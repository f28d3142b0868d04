/-!
# Digits

Values of runs of digits, and numbers written in digits.
-/

namespace IngressOperator.Digits

/-- The value of a decimal digit. -/
def decimal? (c : Char) : Option Nat := if '0' ≤ c ∧ c ≤ '9' then some (c.toNat - '0'.toNat) else none

/-- The value of a hexadecimal digit of either case. -/
def hex? (c : Char) : Option Nat :=
  if '0' ≤ c ∧ c ≤ '9' then some (c.toNat - '0'.toNat)
  else if 'a' ≤ c ∧ c ≤ 'f' then some (c.toNat - 'a'.toNat + 10)
  else if 'A' ≤ c ∧ c ≤ 'F' then some (c.toNat - 'A'.toNat + 10)
  else none

/-- Whether a character is a decimal digit. -/
def isDigit (c : Char) : Bool := '0' ≤ c && c ≤ '9'

/-- The value of a run of decimal digits; any other character counts as zero. -/
def value (cs : List Char) : Nat := cs.foldl (fun n c => 10 * n + (decimal? c).getD 0) 0

/-- The value of a text of one or more decimal digits. -/
def nat? (cs : List Char) : Option Nat := if cs.isEmpty || !cs.all isDigit then none else some (value cs)

/-- The decimal digit of a value below ten. -/
def ofDecimal (n : Nat) : Char := Char.ofNat ('0'.toNat + n % 10)

/-- The hexadecimal digit, in lower case, of a value below sixteen. -/
def ofHex (n : Nat) : Char := if n % 16 < 10 then Char.ofNat ('0'.toNat + n % 16) else Char.ofNat ('a'.toNat + (n % 16 - 10))

/-- The decimal digits of a number. -/
def ofNat (n : Nat) : List Char := (n.repr).toList

/-- The last `width` decimal digits of a number, with leading zeros. -/
def fixed : Nat → Nat → List Char
  | 0, _ => []
  | width + 1, n => fixed width (n / 10) ++ [ofDecimal n]

/-- The decimal digits of a number, filled up to a width with leading zeros. -/
def padded (width n : Nat) : List Char := if n < Nat.pow 10 width then fixed width n else ofNat n

end IngressOperator.Digits
