import Throttle.Fault
import Throttle.Text.Pieces

/-!
# Storage

Files by their paths. A path consists of parts with slashes in between; a part that is a single point
means nothing. Paths that do not start with a slash start from a directory.

## Main definitions

* `Stored` — what is stored under a path.
* `Storage` — the directory and everything that is stored.
-/

namespace Throttle

/-- What is stored under a path. -/
inductive Stored where
  | nothing
  | directory
  | bytes (content : ByteArray)

namespace Stored

/-- Whether a file is stored there. -/
def isFile : Stored → Bool
  | bytes _ => true
  | _ => false

/-- The text of a file. -/
def text : Stored → Except FileFault String
  | nothing => .error .missing
  | directory => .error .directory
  | bytes content => match String.fromUTF8? content with
    | some text => .ok text
    | none => .error .notText

end Stored

namespace FilePath

/-- The parts of a path that mean something. -/
def parts (path : String) : List String :=
  ((Text.pieces '/' path.toList).map String.ofList).filter fun part => part ≠ "" ∧ part ≠ "."

/-- Whether a path starts from the root of all directories. -/
def isAbsolute (path : String) : Bool := path.toList.head? == some '/'

/-- A path of some parts. -/
def join (absolute : Bool) (parts : List String) : String :=
  (if absolute then "/" else "") ++ "/".intercalate parts

/-- The extension of a file's name: what stands behind the last point, unless that is the first
character or the name means the directory above. -/
def extension? (name : String) : Option String :=
  let behind := name.toList.reverse.takeWhile (· != '.')
  let front := name.toList.reverse.drop (behind.length + 1)
  if name = ".." ∨ front.isEmpty then none else some (String.ofList behind.reverse)

/-- The way from one directory to a file. -/
def relative : List String → List String → List String
  | [], file => file
  | base, [] => base.map fun _ => ".."
  | step :: base, part :: file =>
    if step = part then relative base file
    else (step :: base).map (fun _ => "..") ++ part :: file

end FilePath

/-- The directory that paths start from and what is stored under each path. -/
structure Storage where
  directory : String
  stored : String → Stored

namespace Storage

/-- A path that starts from the root. -/
def absolute (storage : Storage) (path : String) : String :=
  if FilePath.isAbsolute path then path
  else if storage.directory.toList.getLast? = some '/' then storage.directory ++ path
  else storage.directory ++ "/" ++ path

/-- A path that starts from the directory. -/
def relative (storage : Storage) (path : String) : String :=
  FilePath.join false
    (FilePath.relative (FilePath.parts storage.directory) (FilePath.parts (storage.absolute path)))

end Storage

end Throttle
