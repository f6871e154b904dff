import Throttle.CommandLine.Program

/-!
# The executable

Files, the environment, the clock and the streams of the program. What to do with them is settled by
`CommandLine.Call.opening` and by the operations of the world.
-/

namespace Throttle.CommandLine

/-- The names and values of the environment. What is not text is left out. -/
def readEnvironment : IO (List (String × String)) := do
  let bytes ← try IO.FS.readBinFile "/proc/self/environ" catch _ => pure .empty
  let entries := (String.fromUTF8? bytes).getD ""
  return (Text.pieces '\x00' entries.toList).filterMap fun entry =>
    match splitAtEquals entry with
    | (name, some value) => some (String.ofList name, String.ofList value)
    | (_, none) => none

/-- What is stored under the paths that a file with settings may have. -/
def storageFor (path : Option String) : IO Storage := do
  let mut found : List (String × Stored) := []
  for candidate in path.toList.flatMap Storage.candidates do
    let stored ← try
        pure (Stored.bytes (← IO.FS.readBinFile candidate))
      catch _ => pure Stored.nothing
    found := (candidate, stored) :: found
  let known := found
  return {
    directory := (← IO.currentDir).toString
    stored path := (known.lookup path).getD .nothing }

/-- The world as it is when the clock shows an instant. -/
def atInstant (world : World) (now : Nat) : World := { world with now }.runSweepers

/-- The milliseconds to sleep until the next timer of an activity. -/
def sleepMillis (world : World) (activity : Activity) : UInt32 :=
  let alarm := World.nextAlarm world.now (world.now + World.longestWait) activity.alarms
  .ofNat (min ((alarm - world.now).toNat / Time.millisecond + 1) Time.second)

/-- Sleep through an activity until it is over. -/
def seeThrough (clock : IO Nat) (world : World) (progress : Progress) : IO (World × Outcome) := do
  let mut world := world
  let mut progress := progress
  let mut outcome := Outcome.lost
  repeat
    match progress with
    | .reached last =>
      outcome := last
      break
    | .waiting activity =>
      IO.sleep (sleepMillis world activity)
      let (polled, next) := (atInstant world (← clock)).poll activity
      world := polled
      progress := next
  return (world, outcome)

/-- The next line of a stream; it is empty at the end. -/
def readLine (input : IO.FS.Stream) : IO (List UInt8) := do
  let mut line : Array UInt8 := #[]
  repeat
    match (← input.read 1).toList with
    | [] => break
    | bytes =>
      line := line ++ bytes
      if bytes == [Text.lineFeed] then break
  return line.toList

/-- Decide the keys in the lines of a stream while they come in. -/
def serve (clock : IO Nat) (options : Options) (opened : World) (input output : IO.FS.Stream) :
    IO (Option Failure) := do
  let mut world := opened
  let mut failure := none
  repeat
    let line ← readLine input
    if line.isEmpty then break
    match Text.decode line with
    | .error fault =>
      failure := some (.input fault)
      break
    | .ok text =>
      match (atInstant world (← clock)).beginLine options.wait text with
      | none => continue
      | some (begun, progress) =>
        let (reached, outcome) ← seeThrough clock begun progress
        world := reached
        match World.lineAnswer (some outcome) with
        | .decided decision =>
          output.putStr (decision.report options.json)
          output.flush
        | .failed fault =>
          failure := some (.library fault)
          break
        | .passedOver | .stopped => break
  return failure

/-- Do what a call asks for. -/
def perform (call : Call) : IO (Option Failure) := do
  match call.opening with
  | .error failure => return some failure
  | .ok (.tell text) =>
    (← IO.getStdout).putStr text
    return none
  | .ok (.decideKeys options world) =>
    let start ← IO.monoNanosNow
    serve (do return (← IO.monoNanosNow) - start) options world (← IO.getStdin) (← IO.getStdout)

end Throttle.CommandLine

open Throttle.CommandLine in
/-- Run the program. -/
def main (arguments : List String) : IO UInt32 := do
  let path := match Command.ofArguments arguments with
    | .ok (.decideKeys options) => options.config
    | _ => none
  let environment ← readEnvironment
  let storage ← storageFor path
  match ← perform { arguments, environment, storage } with
  | none => return 0
  | some failure =>
    IO.eprintln failure.text
    return .ofNat failure.code
