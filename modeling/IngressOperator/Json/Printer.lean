import IngressOperator.Json.Basic
import IngressOperator.Text.Digits

/-!
# Printing JSON

The compact text of a value: no blanks, the members of an object in the order in which it lists them, and in strings only the
characters escaped that must be.
-/

namespace IngressOperator

namespace Number

/-- The text of a number; a decimal is written with an exponent. -/
def text : Number → String
  | .int value => toString value
  | .decimal digits exponent => toString digits ++ "e" ++ toString exponent

end Number

namespace Json.Printer

/-- A character as it stands in a string. -/
def escaped (c : Char) : List Char :=
  match c with
  | '"' => ['\\', '"']
  | '\\' => ['\\', '\\']
  | '\n' => ['\\', 'n']
  | '\r' => ['\\', 'r']
  | '\t' => ['\\', 't']
  | c =>
    if c.toNat = 8 then ['\\', 'b']
    else if c.toNat = 12 then ['\\', 'f']
    else if c.toNat < 0x20 then ['\\', 'u', '0', '0', Digits.ofHex (c.toNat / 16), Digits.ofHex c.toNat]
    else [c]

/-- A string in quotes. -/
def quoted (s : String) : String := String.ofList ('"' :: (s.toList.flatMap escaped ++ ['"']))

mutual

/-- Appends the text of a value. -/
def value (out : String) : Json → String
  | .null => out ++ "null"
  | .bool true => out ++ "true"
  | .bool false => out ++ "false"
  | .num n => out ++ n.text
  | .str s => out ++ quoted s
  | .arr [] => out ++ "[]"
  | .arr (j :: js) => items (value (out ++ "[") j) js ++ "]"
  | .obj [] => out ++ "\x7b\x7d"
  | .obj ((name, j) :: js) => members (value (out ++ "\x7b" ++ quoted name ++ ":") j) js ++ "\x7d"

/-- Appends the text of the further items of an array. -/
def items (out : String) : List Json → String
  | [] => out
  | j :: js => items (value (out ++ ",") j) js

/-- Appends the text of the further members of an object. -/
def members (out : String) : List (String × Json) → String
  | [] => out
  | (name, j) :: js => members (value (out ++ "," ++ quoted name ++ ":") j) js

end

end Json.Printer

/-- The compact text of a value. -/
def Json.text (j : Json) : String := Json.Printer.value "" j

end IngressOperator
