import IngressOperator.Text.Digits
import IngressOperator.Text.Unmarked

/-!
# Quoted texts

A text in double quotes with escapes, as an error message shows the fields of an answer of the API server.
-/

namespace IngressOperator.Quoted

/-- The hexadecimal digits of a number without leading zeros. -/
def hexDigits (n : Nat) : List Char := Nat.toDigits 16 n

/-- A character as it stands between the quotes: the quote and the backslash are escaped, blanks other than the space have a
letter or a number, and a character without a mark of its own stands by its number. -/
def escaped (c : Char) : List Char :=
  match c with
  | '\x00' => ['\\', '0']
  | '\t' => ['\\', 't']
  | '\r' => ['\\', 'r']
  | '\n' => ['\\', 'n']
  | '"' => ['\\', '"']
  | '\\' => ['\\', '\\']
  | c => if Unmarked.isUnmarked c then ['\\', 'u', '\x7b'] ++ hexDigits c.toNat ++ ['\x7d'] else [c]

/-- A text in quotes. -/
def quote (s : String) : String := String.ofList ('"' :: (s.toList.flatMap escaped ++ ['"']))

end IngressOperator.Quoted
