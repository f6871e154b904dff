/-!
# UTF-8

Text as bytes. A character takes one to four bytes: the lead byte says how many bytes follow and, where
not every byte may follow, which ones; all further bytes are tail bytes.

## Main definitions

* `Utf8Fault` — where bytes stop being text.
* `decode` — the text that bytes stand for.
-/

namespace Throttle.Text

/-- Where bytes stop being text. -/
inductive Utf8Fault where
  /-- So many bytes from an index on cannot begin a character. -/
  | invalid (length index : Nat)
  /-- The bytes end within the character that begins at an index. -/
  | incomplete (index : Nat)
deriving Repr, DecidableEq

/-- The fault in words. -/
def Utf8Fault.message : Utf8Fault → String
  | invalid length index =>
    "invalid utf-8 sequence of " ++ toString length ++ " bytes from index " ++ toString index
  | incomplete index => "incomplete utf-8 byte sequence from index " ++ toString index

/-- What a lead byte says. -/
structure LeadByte where
  /-- How many bytes follow. -/
  tails : Nat
  /-- The first part of the code point. -/
  bits : Nat
  /-- The least and the largest byte that may come next. -/
  low : Nat
  high : Nat
deriving Repr, DecidableEq

/-- What a byte says as a lead byte, if a character can begin with it. The bounds keep out longer forms of
characters with a shorter one, surrogates, and code points that are too large. -/
def LeadByte.ofByte? (byte : UInt8) : Option LeadByte :=
  let n := byte.toNat
  if n < 0x80 then some ⟨0, n, 0, 0⟩
  else if n < 0xc2 then none
  else if n < 0xe0 then some ⟨1, n - 0xc0, 0x80, 0xbf⟩
  else if n < 0xf0 then
    some ⟨2, n - 0xe0, if n = 0xe0 then 0xa0 else 0x80, if n = 0xed then 0x9f else 0xbf⟩
  else if n < 0xf5 then
    some ⟨3, n - 0xf0, if n = 0xf0 then 0x90 else 0x80, if n = 0xf4 then 0x8f else 0xbf⟩
  else none

/-- How the tail bytes of a character are read. -/
inductive TailResult where
  /-- The code point and the bytes that are left. -/
  | complete (code : Nat) (rest : List UInt8)
  /-- The character is cut off behind so many of its bytes. -/
  | broken (length : Nat)
  /-- There are no more bytes. -/
  | unfinished
deriving Repr, DecidableEq

/-- Read `tails` tail bytes, of which the next one lies within bounds, behind `done` bytes. -/
def readTail (code low high done : Nat) : Nat → List UInt8 → TailResult
  | 0, rest => .complete code rest
  | _ + 1, [] => .unfinished
  | tails + 1, byte :: rest =>
    if low ≤ byte.toNat ∧ byte.toNat ≤ high then
      readTail (code * 64 + byte.toNat % 64) 0x80 0xbf (done + 1) tails rest
    else .broken done

theorem length_le_of_readTail {code low high done tails : Nat} {bytes : List UInt8}
    {result : Nat} {rest : List UInt8}
    (h : readTail code low high done tails bytes = .complete result rest) :
    rest.length ≤ bytes.length := by
  induction tails generalizing code low high done bytes with
  | zero => simp only [readTail, TailResult.complete.injEq] at h; simp [h.2]
  | succ tails ih =>
    cases bytes with
    | nil => simp [readTail] at h
    | cons byte bytes =>
      simp only [readTail] at h
      split at h
      · exact Nat.le_succ_of_le (ih h)
      · cases h

/-- The characters of bytes that begin at an index. -/
def decodeFrom (index : Nat) (bytes : List UInt8) : Except Utf8Fault (List Char) :=
  match bytes with
  | [] => .ok []
  | byte :: tail =>
    match LeadByte.ofByte? byte with
    | none => .error (.invalid 1 index)
    | some lead =>
      match h : readTail lead.bits lead.low lead.high 1 lead.tails tail with
      | .unfinished => .error (.incomplete index)
      | .broken length => .error (.invalid length index)
      | .complete code rest =>
        (decodeFrom (index + lead.tails + 1) rest).map (Char.ofNat code :: ·)
termination_by bytes.length
decreasing_by
  have := length_le_of_readTail h
  simp only [List.length_cons]
  omega

/-- The text that bytes stand for. -/
def decode (bytes : List UInt8) : Except Utf8Fault String :=
  (decodeFrom 0 bytes).map String.ofList

end Throttle.Text
