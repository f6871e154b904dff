import Throttle.Batch
import Throttle.CommandLine.LogFilter
import Throttle.CommandLine.Options
import Throttle.CommandLine.Report
import Throttle.Settings.File
import Throttle.Text.Lines
import Throttle.Text.Utf8

/-!
# The program

The program reads keys from lines and reports a decision about each one. Its arguments come first, then
the log filter, then the settings, then the lines; the first of them that is wrong ends the program.
What was reported up to then stays reported.

## Main definitions

* `Failure` — why the program fails, with its exit code and its text.
* `Call.opening` — what the program has to do before it reads a line.
* `Call.run` — a whole run, in which waiting takes no time.
-/

namespace Throttle.CommandLine

/-- Why the program fails. -/
inductive Failure where
  | usage (fault : UsageFault)
  | log (fault : LogFault)
  | library (fault : Fault)
  | input (fault : Text.Utf8Fault)
deriving Repr, DecidableEq

namespace Failure

/-- The exit code of a failure. -/
def code : Failure → Nat
  | usage _ => 2
  | log .torn => 101
  | _ => 1

/-- The cause in words. A level that is not known is told as the cause of its own failure, too. -/
def message : Failure → String
  | usage fault => fault.message
  | log .unknownLevel =>
    LogFault.unknownLevel.message ++ "\n\nCaused by:\n    " ++ LogFault.unknownLevel.message
  | log fault => fault.message
  | library fault => fault.message
  | input fault => fault.message

/-- What the program says when it fails. -/
def text (failure : Failure) : String := "Error: " ++ failure.message

end Failure

/-- What a program is called with. -/
structure Call where
  arguments : List String
  /-- The names and values of the environment. -/
  environment : List (String × String)
  storage : Storage

/-- What there is to do after a call has been understood. -/
inductive Opening where
  /-- Say something, and no more. -/
  | tell (text : String)
  /-- Decide keys, from a world in which no key has been asked for. -/
  | decideKeys (options : Options) (world : World)

/-- The text that tells the version. -/
def versionText : String := "windmill 0.1.0\n"

/-- The text that tells the options. -/
def helpText : String :=
  "Admit keys read from stdin through a sliding window rate limiter.\n\n" ++
  "Each input line is a key. One decision is written to stdout per key.\n\n" ++
  "Usage: windmill [OPTIONS]\n\nOptions:\n" ++
  "  -c, --config <CONFIG>        Configuration file (YAML, JSON or TOML); WINDMILL__* variables " ++
  "override it\n" ++
  "      --wait                   Wait for capacity instead of rejecting\n" ++
  "      --json                   Print decisions as JSON lines\n" ++
  "      --log-level <LOG_LEVEL>  Log filter used when RUST_LOG is not set [default: info]\n" ++
  "      --log-json               Emit logs as JSON\n" ++
  "  -h, --help                   Print help\n" ++
  "  -V, --version                Print version\n"

/-- The variable with a log filter. -/
def logVariable : String := "RUST_LOG"

/-- The log filter if none is given. -/
def defaultLogLevel : String := "info"

namespace Call

/-- What there is to do after a call has been understood. -/
def opening (call : Call) : Except Failure Opening := do
  match ← (Command.ofArguments call.arguments).mapError Failure.usage with
  | .showVersion => pure (.tell versionText)
  | .showHelp => pure (.tell helpText)
  | .decideKeys options =>
    (LogFilter.checkAny (call.environment.lookup logVariable)
      (options.logLevel.getD defaultLogLevel)).mapError Failure.log
    let settings ←
      (Settings.load call.storage options.config call.environment).mapError Failure.library
    let plan ← settings.check.mapError fun fault => Failure.library (.ofCheck fault)
    pure (.decideKeys options (.opening plan settings.cleanupPeriod))

end Call

/-- What a run leaves behind. -/
structure Transcript where
  output : String
  failure : Option Failure
deriving Repr, DecidableEq

namespace Transcript

/-- The exit code of the run. -/
def code (transcript : Transcript) : Nat :=
  match transcript.failure with
  | none => 0
  | some failure => failure.code

/-- A run that says something and then goes on as in `transcript`. -/
def saying (text : String) (transcript : Transcript) : Transcript :=
  { transcript with output := text ++ transcript.output }

/-- A run over some lines. -/
def ofLines (options : Options) (world : World) : List (List UInt8) → Transcript
  | [] => ⟨"", none⟩
  | line :: rest =>
    match Text.decode line with
    | .error fault => ⟨"", some (.input fault)⟩
    | .ok text =>
      match world.answer options.wait text with
      | (world, .passedOver) => ofLines options world rest
      | (world, .decided decision) =>
        (ofLines options world rest).saying (decision.report options.json)
      | (_, .stopped) => ⟨"", none⟩
      | (_, .failed fault) => ⟨"", some (.library fault)⟩

end Transcript

/-- A whole run, in which waiting takes no time. -/
def Call.run (call : Call) (input : List UInt8) : Transcript :=
  match call.opening with
  | .error failure => ⟨"", some failure⟩
  | .ok (.tell text) => ⟨text, none⟩
  | .ok (.decideKeys options world) => .ofLines options world (Text.lines input)

end Throttle.CommandLine
