/-!
# Options

The arguments of the program. An option has a long name behind two dashes, and some have a letter behind
one dash. The value of an option is the next argument, or is attached to the name: behind an equals sign
or, for a letter, directly. Two dashes alone end the options; nothing may follow them.

Arguments count from left to right: the first one that is wrong, or that asks for the version or for
help, settles the matter.

## Main definitions

* `Options` — what the arguments ask for.
* `Command.ofArguments` — the meaning of arguments.
-/

namespace Throttle.CommandLine

/-- How keys are decided and reported. -/
structure Options where
  /-- The file with the settings. -/
  config : Option String := none
  /-- Wait for room instead of turning keys down. -/
  wait : Bool := false
  /-- Report decisions as JSON. -/
  json : Bool := false
  /-- Which events are logged, unless the environment says so. -/
  logLevel : Option String := none
  /-- Write the log as JSON. -/
  logJson : Bool := false
deriving Repr, DecidableEq

/-- The options by their meaning. -/
inductive OptionName where
  | config
  | wait
  | json
  | logLevel
  | logJson
  | help
  | version
deriving Repr, DecidableEq

/-- What the program is asked to do. -/
inductive Command where
  | decideKeys (options : Options)
  | showVersion
  | showHelp
deriving Repr, DecidableEq

/-- Why arguments cannot be understood. -/
inductive UsageFault where
  | unexpected (argument : String)
  | missingValue (name : String)
  | unwantedValue (name : String)
  | repeated (name : String)
deriving Repr, DecidableEq

/-- The fault in words. -/
def UsageFault.message : UsageFault → String
  | unexpected argument => "unexpected argument '" ++ argument ++ "' found"
  | missingValue name => "a value is required for '--" ++ name ++ "' but none was supplied"
  | unwantedValue name => "unexpected value for '--" ++ name ++ "' found; no more were expected"
  | repeated name => "the argument '--" ++ name ++ "' cannot be used multiple times"

namespace OptionName

/-- The options and their long names. -/
def longNames : List (OptionName × String) :=
  [(config, "config"), (wait, "wait"), (json, "json"), (logLevel, "log-level"),
   (logJson, "log-json"), (help, "help"), (version, "version")]

/-- The options with a letter. -/
def letters : List (Char × OptionName) := [('c', config), ('h', help), ('V', version)]

/-- The long name of an option. -/
def longName (name : OptionName) : String := (longNames.lookup name).getD ""

/-- The option with a long name. -/
def ofLongName? (text : String) : Option OptionName :=
  (longNames.find? fun entry => entry.2 == text).map (·.1)

/-- Whether an option needs a value. -/
def takesValue : OptionName → Bool
  | config | logLevel => true
  | _ => false

end OptionName

/-- A text up to the first equals sign, and what is behind that sign. -/
def splitAtEquals (text : List Char) : List Char × Option (List Char) :=
  let name := text.takeWhile (· != '=')
  (name, (text.drop name.length).tail?)

/-- The option that an argument names, and the value attached to it. Behind a letter that takes no value
nothing counts. -/
def readOption (argument : String) : Except UsageFault (OptionName × Option String) :=
  match argument.toList with
  | '-' :: '-' :: text =>
    let (name, value?) := splitAtEquals text
    match OptionName.ofLongName? (String.ofList name) with
    | some option => .ok (option, value?.map String.ofList)
    | none => .error (.unexpected argument)
  | '-' :: letter :: text =>
    match OptionName.letters.lookup letter with
    | none => .error (.unexpected argument)
    | some option =>
      .ok (option,
        if !option.takesValue || text.isEmpty then none
        else if text.head? == some '=' then some (String.ofList text.tail)
        else some (String.ofList text))
  | _ => .error (.unexpected argument)

/-- Whether an argument can be the value of the option in front of it. -/
def canBeValue (argument : String) : Bool :=
  argument == "-" || argument.toList.head? != some '-'

namespace Options

/-- Take the value of an option. -/
def give (options : Options) (name : OptionName) (value : String) : Except UsageFault Options :=
  match name with
  | .config =>
    if value = "" then .error (.missingValue name.longName)
    else if options.config.isSome then .error (.repeated name.longName)
    else .ok { options with config := some value }
  | .logLevel =>
    if options.logLevel.isSome then .error (.repeated name.longName)
    else .ok { options with logLevel := some value }
  | _ => .error (.unwantedValue name.longName)

/-- Whether an option without a value has been turned on. -/
def isOn (options : Options) : OptionName → Bool
  | .wait => options.wait
  | .json => options.json
  | .logJson => options.logJson
  | _ => false

/-- Turn on an option that was off. -/
def turnOn (options : Options) (name : OptionName) : Except UsageFault Options :=
  if options.isOn name then .error (.repeated name.longName)
  else match name with
    | .wait => .ok { options with wait := true }
    | .json => .ok { options with json := true }
    | .logJson => .ok { options with logJson := true }
    | _ => .ok options

end Options

namespace Command

/-- The meaning of arguments behind those that gave `options`. -/
def read (options : Options) : List String → Except UsageFault Command
  | [] => .ok (.decideKeys options)
  | ["--"] => .ok (.decideKeys options)
  | "--" :: argument :: _ => .error (.unexpected argument)
  | argument :: rest => do
    match ← readOption argument with
    | (.help, none) => .ok .showHelp
    | (.version, none) => .ok .showVersion
    | (name, some value) => read (← options.give name value) rest
    | (name, none) =>
      if name.takesValue then
        match rest with
        | [] => .error (.missingValue name.longName)
        | value :: rest =>
          if canBeValue value then read (← options.give name value) rest
          else .error (.missingValue name.longName)
      else read (← options.turnOn name) rest

/-- The meaning of arguments. -/
def ofArguments (arguments : List String) : Except UsageFault Command := read {} arguments

end Command

end Throttle.CommandLine
