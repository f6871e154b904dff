import Throttle.Text.Quoted

/-!
# Text in JSON

Text stands between double quotes. A quote and a backslash stand behind a backslash, control characters are
given by a letter or by their code point in four digits, and every other character stands for itself.
-/

namespace Throttle.Text

/-- How a character is written between the quotes of JSON. -/
def jsonChar (c : Char) : List Char :=
  match c with
  | '"' => ['\\', '"']
  | '\\' => ['\\', '\\']
  | '\n' => ['\\', 'n']
  | '\r' => ['\\', 'r']
  | '\t' => ['\\', 't']
  | '\x08' => ['\\', 'b']
  | '\x0c' => ['\\', 'f']
  | c =>
    if c.toNat < 0x20 then
      let digits := hexDigits c.toNat
      ['\\', 'u'] ++ List.replicate (4 - digits.length) '0' ++ digits
    else [c]

/-- Text between the quotes of JSON. -/
def jsonQuoted (text : String) : String :=
  String.ofList ('"' :: text.toList.flatMap jsonChar ++ ['"'])

example : jsonQuoted "a\"\x01\x7f" = "\"a\\\"\\u0001\x7f\"" := by decide +kernel

end Throttle.Text
