import IngressOperator.Text.Digits
import IngressOperator.Text.Utf8

/-!
# Form encoding

A value as it stands in the query of a request: letters, digits and `*-._` as they are, a space as `+`, every other byte by its
two hexadecimal digits.
-/

namespace IngressOperator.FormEncoded

/-- Whether a byte stands as it is. -/
def isPlain (b : UInt8) : Bool :=
  (0x30 ≤ b && b ≤ 0x39) || (0x41 ≤ b && b ≤ 0x5A) || (0x61 ≤ b && b ≤ 0x7A) ||
    b == 0x2A || b == 0x2D || b == 0x2E || b == 0x5F

/-- The upper-case hexadecimal digit of a value below sixteen. -/
def hexDigit (n : Nat) : Char := if n < 10 then Char.ofNat (48 + n) else Char.ofNat (65 + (n - 10))

/-- A byte as it stands in the value. -/
def encodeByte (b : UInt8) : List Char :=
  if isPlain b then [Char.ofNat b.toNat]
  else if b = 0x20 then ['+']
  else ['%', hexDigit (b.toNat / 16), hexDigit (b.toNat % 16)]

/-- The encoded form of a value. -/
def encode (s : String) : String := String.ofList ((Utf8.encode s).flatMap encodeByte)

end IngressOperator.FormEncoded
