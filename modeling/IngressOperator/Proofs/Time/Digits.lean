import Mathlib.Algebra.Group.Nat.Defs
import IngressOperator.Text.Digits

/-!
# Digits that are read back

Numbers filled up to a width stand for themselves: their digits are digits, there are at least as many as the width asks for, and
their value is the number.
-/

namespace IngressOperator.Digits

theorem isDigit_ofDecimal (n : Nat) : isDigit (ofDecimal n) = true := by
  have h : ∀ k < 10, isDigit (Char.ofNat ('0'.toNat + k)) = true := by decide
  exact h (n % 10) (Nat.mod_lt _ (by decide))

theorem decimal?_ofDecimal (n : Nat) : decimal? (ofDecimal n) = some (n % 10) := by
  have h : ∀ k < 10, decimal? (Char.ofNat ('0'.toNat + k)) = some k := by decide
  exact h (n % 10) (Nat.mod_lt _ (by decide))

/-! ### Fixed widths -/

theorem length_fixed (width n : Nat) : (fixed width n).length = width := by
  induction width generalizing n with
  | zero => rfl
  | succ width ih => simp [fixed, ih]

theorem isDigit_of_mem_fixed {width n : Nat} {c : Char} (h : c ∈ fixed width n) : isDigit c = true := by
  induction width generalizing n with
  | zero => simp [fixed] at h
  | succ width ih =>
    rcases List.mem_append.1 h with h | h
    · exact ih h
    · rw [List.mem_singleton.1 h]
      exact isDigit_ofDecimal n

/-- One more digit at the end is worth itself, and all before it ten times as much. -/
theorem value_concat (cs : List Char) (c : Char) : value (cs ++ [c]) = 10 * value cs + (decimal? c).getD 0 := by
  simp [value]

/-- The last digits of a number are worth its remainder. -/
theorem value_fixed (width n : Nat) : value (fixed width n) = n % 10 ^ width := by
  induction width generalizing n with
  | zero => simp [fixed, value, Nat.mod_one]
  | succ width ih =>
    rw [fixed, value_concat, ih, decimal?_ofDecimal, Option.getD_some, Nat.pow_succ, Nat.mul_comm (10 ^ width), Nat.mod_mul]
    omega

/-! ### All digits -/

/-- The characters of a number are the digits of the library. -/
theorem isDigit_of_mem_ofNat {n : Nat} {c : Char} (h : c ∈ ofNat n) : isDigit c = true := by
  have hm : c ∈ Nat.toDigits 10 n := by simpa [ofNat] using h
  have hc : c.isDigit = true := Nat.isDigit_of_mem_toDigits (by decide) (by decide) hm
  simpa [isDigit, Char.isDigit, Char.le_def] using hc

theorem value_eq_ofDigitChars (cs : List Char) (h : ∀ c ∈ cs, isDigit c = true) : value cs = Nat.ofDigitChars 10 cs 0 := by
  suffices hs : ∀ n, cs.foldl (fun n c => 10 * n + (decimal? c).getD 0) n = Nat.ofDigitChars 10 cs n from hs 0
  induction cs with
  | nil => intro n; simp
  | cons c cs ih =>
    intro n
    have hc : decimal? c = some (c.toNat - '0'.toNat) := by
      have := h c (by simp)
      simp only [isDigit, Bool.and_eq_true, decide_eq_true_eq] at this
      simp [decimal?, this]
    rw [List.foldl_cons, hc, Nat.ofDigitChars_cons]
    exact ih (fun d hd => h d (List.mem_cons_of_mem _ hd)) _

theorem value_ofNat (n : Nat) : value (ofNat n) = n := by
  rw [value_eq_ofDigitChars _ fun c hc => isDigit_of_mem_ofNat hc]
  simp [ofNat]

/-- A number is known by its digits. -/
theorem toString_injective {m n : Nat} (h : toString m = toString n) : m = n := by
  have hdigits : ofNat m = ofNat n := congrArg String.toList h
  rw [← value_ofNat m, hdigits, value_ofNat]

/-! ### Padding -/

theorem isDigit_of_mem_padded {width n : Nat} {c : Char} (h : c ∈ padded width n) : isDigit c = true := by
  unfold padded at h
  split at h
  · exact isDigit_of_mem_fixed h
  · exact isDigit_of_mem_ofNat h

theorem length_padded {width n : Nat} (h : n < 10 ^ width) : (padded width n).length = width := by
  rw [padded, Nat.pow_eq, if_pos h, length_fixed]

/-- A number that is filled up is worth itself. -/
theorem value_padded (width n : Nat) : value (padded width n) = n := by
  unfold padded
  split
  · next h => exact (value_fixed width n).trans (Nat.mod_eq_of_lt h)
  · exact value_ofNat n

theorem padded_ne_nil {width n : Nat} (h : 0 < width) : padded width n ≠ [] := by
  unfold padded
  split
  · intro he
    have := length_fixed width n
    simp [he] at this
    omega
  · simp [ofNat]

theorem nat?_padded {width n : Nat} (h : 0 < width) : nat? (padded width n) = some n := by
  have ha : (padded width n).all isDigit = true := List.all_eq_true.2 fun c hc => isDigit_of_mem_padded hc
  simp [nat?, padded_ne_nil h, ha, value_padded]

end IngressOperator.Digits
