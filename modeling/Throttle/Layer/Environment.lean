import Throttle.Layer.Value
import Throttle.Number.Literal

/-!
# Layers in the environment

Variables of the environment give settings, too. The name of such a variable starts with a mark and
goes on with the path of the setting, with two underscores in place of each point. Letters of either
case may be used.

## Main definitions

* `settingName?` — the path that a variable's name means.
* `Scalar.ofVariable` — what the text of a variable means.
* `ofEnvironment` — the names in an environment and what they stand for.
-/

namespace Throttle.Layer

/-- How the names of variables that give settings start. -/
def variableMark : List Char := "windmill__".toList

/-- A name with a point in place of every two underscores, from left to right. -/
def pointed : List Char → List Char
  | '_' :: '_' :: rest => '.' :: pointed rest
  | c :: rest => c :: pointed rest
  | [] => []

/-- The path that a variable's name means, if the variable gives a setting. -/
def settingName? (name : String) : Option String :=
  let name := name.toList.map Char.toLower
  if variableMark.isPrefixOf name then
    some (String.ofList (pointed (name.drop variableMark.length)))
  else none

/-- What the text of a variable means: a truth value, an integer, a floating point number, or itself. -/
def Scalar.ofVariable (text : String) : Scalar :=
  let word := lowerCase text
  if word = "true" then boolean true
  else if word = "false" then boolean false
  else match Number.signed? 10 text.toList, Number.float? text.toList with
    | some value, _ => integer value
    | none, some value => float value
    | none, none => .text text

/-- Where the value of a variable came from. -/
def environmentOrigin : String := "the environment"

/-- The names in an environment that give settings, and what they stand for. -/
def ofEnvironment (environment : List (String × String)) : List (String × Value) :=
  environment.filterMap fun entry =>
    (settingName? entry.1).map fun name =>
      (name, .scalar (.ofVariable entry.2) environmentOrigin)

end Throttle.Layer
