/-!
# Base64

Bytes written with the standard alphabet and padding. Reading is strict: groups of four, padding at the end only and exactly
where a group is short, no other character, and zero in the bits that the padding cuts off.

## Main statements

* `Base64.decode?_encode`: what is written reads back.
-/

namespace IngressOperator.Base64

/-- The character of a value below 64. -/
def digit (n : Nat) : Char :=
  if n < 26 then Char.ofNat (65 + n)
  else if n < 52 then Char.ofNat (97 + (n - 26))
  else if n < 62 then Char.ofNat (48 + (n - 52))
  else if n = 62 then '+' else '/'

/-- The value of a character. -/
def value? (c : Char) : Option Nat :=
  let n := c.toNat
  if 65 ≤ n ∧ n ≤ 90 then some (n - 65)
  else if 97 ≤ n ∧ n ≤ 122 then some (n - 97 + 26)
  else if 48 ≤ n ∧ n ≤ 57 then some (n - 48 + 52)
  else if c = '+' then some 62
  else if c = '/' then some 63
  else none

/-- Writes bytes in groups of three. -/
def encode : List UInt8 → List Char
  | [] => []
  | [a] =>
    let n := a.toNat * 16
    [digit (n / 64), digit (n % 64), '=', '=']
  | [a, b] =>
    let n := (a.toNat * 256 + b.toNat) * 4
    [digit (n / 4096), digit (n / 64 % 64), digit (n % 64), '=']
  | a :: b :: c :: rest =>
    let n := (a.toNat * 256 + b.toNat) * 256 + c.toNat
    digit (n / 262144) :: digit (n / 4096 % 64) :: digit (n / 64 % 64) :: digit (n % 64) :: encode rest

/-- Reads groups of four characters. -/
def decode? : List Char → Option (List UInt8)
  | [] => some []
  | [a, b, '=', '='] => do
    let a ← value? a
    let b ← value? b
    let n := a * 64 + b
    if n % 16 = 0 then pure [UInt8.ofNat (n / 16)] else none
  | [a, b, c, '='] => do
    let a ← value? a
    let b ← value? b
    let c ← value? c
    let n := (a * 64 + b) * 64 + c
    if n % 4 = 0 then pure [UInt8.ofNat (n / 1024), UInt8.ofNat (n / 4 % 256)] else none
  | a :: b :: c :: d :: rest => do
    let a ← value? a
    let b ← value? b
    let c ← value? c
    let d ← value? d
    let rest ← decode? rest
    let n := ((a * 64 + b) * 64 + c) * 64 + d
    pure (UInt8.ofNat (n / 65536) :: UInt8.ofNat (n / 256 % 256) :: UInt8.ofNat (n % 256) :: rest)
  | _ => none

theorem value?_digit : ∀ n < 64, value? (digit n) = some n := by decide

theorem digit_ne_pad : ∀ n < 64, digit n ≠ '=' := by decide

/-- What is written reads back. -/
theorem decode?_encode (bytes : List UInt8) : decode? (encode bytes) = some bytes := by
  fun_induction encode bytes with
  | case1 => rfl
  | case2 a n =>
    have ha := a.toNat_lt
    have h1 := value?_digit (n / 64) (by omega)
    have h2 := value?_digit (n % 64) (by omega)
    have hn : n / 64 * 64 + n % 64 = n := by omega
    have h0 : n % 16 = 0 := by omega
    have hd : n / 16 = a.toNat := by omega
    simp [decode?, h1, h2, hn, h0, hd]
  | case3 a b n =>
    have ha := a.toNat_lt
    have hb := b.toNat_lt
    have h1 := value?_digit (n / 4096) (by omega)
    have h2 := value?_digit (n / 64 % 64) (by omega)
    have h3 := value?_digit (n % 64) (by omega)
    have hp := digit_ne_pad (n % 64) (by omega)
    have hn : (n / 4096 * 64 + n / 64 % 64) * 64 + n % 64 = n := by omega
    have h0 : n % 4 = 0 := by omega
    have hx : n / 1024 = a.toNat := by omega
    have hy : n / 4 % 256 = b.toNat := by omega
    rw [decode?]
    · simp [h1, h2, h3, hn, h0, hx, hy]
    · intro
      exact absurd ‹_› hp
  | case4 a b c rest n ih =>
    have ha := a.toNat_lt
    have hb := b.toNat_lt
    have hc := c.toNat_lt
    have h1 := value?_digit (n / 262144) (by omega)
    have h2 := value?_digit (n / 4096 % 64) (by omega)
    have h3 := value?_digit (n / 64 % 64) (by omega)
    have h4 := value?_digit (n % 64) (by omega)
    have hp := digit_ne_pad (n % 64) (by omega)
    have hn : ((n / 262144 * 64 + n / 4096 % 64) * 64 + n / 64 % 64) * 64 + n % 64 = n := by omega
    have hx : n / 65536 = a.toNat := by omega
    have hy : n / 256 % 256 = b.toNat := by omega
    have hz : n % 256 = c.toNat := by omega
    rw [decode?]
    · simp [h1, h2, h3, h4, ih, hn, hx, hy, hz]
    · intro h
      exact absurd h (digit_ne_pad (n / 64 % 64) (by omega))
    · intro
      exact absurd ‹_› hp

end IngressOperator.Base64
