/-!
# UTF-8

The text of a list of bytes, where every maximal run of bytes that is the beginning of no character, or only the beginning of
one, is replaced by one U+FFFD.

## Main statements

* `Utf8.decode_eq_empty_iff`: no text is lost altogether.
-/

namespace IngressOperator.Utf8

/-- The character shown in place of bytes that are none. -/
def replacement : Char := Char.ofNat 0xFFFD

/-- The number of bytes that follow a leading byte, with the range of the first of them. -/
def lead? (b : UInt8) : Option (Nat × UInt8 × UInt8) :=
  if b < 0x80 then some (0, 0x80, 0xBF)
  else if 0xC2 ≤ b ∧ b ≤ 0xDF then some (1, 0x80, 0xBF)
  else if b = 0xE0 then some (2, 0xA0, 0xBF)
  else if b = 0xED then some (2, 0x80, 0x9F)
  else if 0xE1 ≤ b ∧ b ≤ 0xEF then some (2, 0x80, 0xBF)
  else if b = 0xF0 then some (3, 0x90, 0xBF)
  else if 0xF1 ≤ b ∧ b ≤ 0xF3 then some (3, 0x80, 0xBF)
  else if b = 0xF4 then some (3, 0x80, 0x8F)
  else none

/-- The bits that a leading byte gives to its character. -/
def leadBits (following : Nat) (b : UInt8) : Nat :=
  match following with
  | 0 => b.toNat
  | 1 => b.toNat % 32
  | 2 => b.toNat % 16
  | _ => b.toNat % 8

/-- The text of bytes: `owed` more bytes complete the character whose bits so far are `bits`, and the next one must lie
between `low` and `high`. -/
def decodeFrom (owed bits : Nat) (low high : UInt8) : List UInt8 → List Char
  | [] => if owed = 0 then [] else [replacement]
  | b :: bs =>
    if owed ≠ 0 ∧ low ≤ b ∧ b ≤ high then
      let bits := bits * 64 + b.toNat % 64
      if owed = 1 then Char.ofNat bits :: decodeFrom 0 0 0 0 bs else decodeFrom (owed - 1) bits 0x80 0xBF bs
    else
      let broken := if owed = 0 then [] else [replacement]
      match lead? b with
      | none => broken ++ replacement :: decodeFrom 0 0 0 0 bs
      | some (0, _, _) => broken ++ Char.ofNat b.toNat :: decodeFrom 0 0 0 0 bs
      | some (following, low, high) => broken ++ decodeFrom following (leadBits following b) low high bs

/-- The text of a list of bytes. -/
def decode (bytes : List UInt8) : String := String.ofList (decodeFrom 0 0 0 0 bytes)

/-- Bytes that are begun or given leave something to be read. -/
theorem decodeFrom_ne_nil {owed bits : Nat} {low high : UInt8} {bytes : List UInt8} (h : owed ≠ 0 ∨ bytes ≠ []) :
    decodeFrom owed bits low high bytes ≠ [] := by
  induction bytes generalizing owed bits low high with
  | nil =>
    have howed : owed ≠ 0 := h.resolve_right fun hb => hb rfl
    simp [decodeFrom, howed]
  | cons b bs ih =>
    unfold decodeFrom
    dsimp only
    split
    · next hin =>
      split
      · simp
      · next howed => exact ih (.inl (by omega))
    · split
      · simp
      · simp
      · next following low' high' hlong hlead =>
        have hfollowing : following ≠ 0 := hlong
        simp [ih (.inl hfollowing)]

/-- Bytes have no text only if there are none. -/
theorem decode_eq_empty_iff {bytes : List UInt8} : decode bytes = "" ↔ bytes = [] := by
  constructor
  · intro h
    cases bytes with
    | nil => rfl
    | cons b bs =>
      have htext : decodeFrom 0 0 0 0 (b :: bs) = [] := by simpa [decode] using congrArg String.toList h
      exact absurd htext (decodeFrom_ne_nil (.inr (List.cons_ne_nil b bs)))
  · rintro rfl
    rfl

/-- The bytes of a text. -/
def encode (s : String) : List UInt8 := s.toUTF8.toList

end IngressOperator.Utf8
