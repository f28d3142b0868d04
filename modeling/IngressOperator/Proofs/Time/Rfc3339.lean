import IngressOperator.Proofs.Time.Digits
import IngressOperator.Time.Rfc3339

/-!
# Instants that are read back

The text of an instant of the calendar stands for that instant. Every part of it is read by the reader of that part up to the
part after it, since digits are no blanks and each separator ends a run of digits.

## Main statements

* `Rfc3339.decode?_encode`: an instant of the calendar is read back from its text.
-/

namespace IngressOperator.Rfc3339

open Text (isBlank)

/-! ### Numbers -/

/-- A digit is no blank. -/
theorem isBlank_of_isDigit {c : Char} (h : Digits.isDigit c = true) : isBlank c = false := by
  simp only [Digits.isDigit, Bool.and_eq_true, decide_eq_true_eq, Char.le_def, UInt32.le_iff_toNat_le] at h
  obtain ⟨h0, h1⟩ := h
  have h0 : 48 ≤ c.toNat := h0
  have h1 : c.toNat ≤ 57 := h1
  simp only [isBlank, Bool.or_eq_false_iff, Bool.and_eq_false_iff, decide_eq_false_iff_not, beq_eq_false_iff_ne]
  omega

/-- Nothing is skipped before a character that is no blank. -/
theorem skipBlanks_cons {c : Char} (cs : List Char) (h : isBlank c = false) : skipBlanks (c :: cs) = c :: cs := by
  simp [skipBlanks, h]

/-- Nothing is skipped before digits. -/
theorem skipBlanks_digits {ds : List Char} (rest : List Char) (hne : ds ≠ []) (hd : ∀ c ∈ ds, Digits.isDigit c = true) :
    skipBlanks (ds ++ rest) = ds ++ rest := by
  cases ds with
  | nil => exact absurd rfl hne
  | cons d ds => exact skipBlanks_cons _ (isBlank_of_isDigit (hd d (by simp)))

/-- A number ends before the first character that is no digit. -/
theorem number?_digits {width : Nat} {ds rest : List Char} (hne : ds ≠ []) (hd : ∀ c ∈ ds, Digits.isDigit c = true)
    (hw : ds.length ≤ width) (hr : ds.length = width ∨ ∃ c cs, rest = c :: cs ∧ Digits.isDigit c = false) :
    number? width (ds ++ rest) = some (Digits.value ds, rest) := by
  have hrun : ((ds ++ rest).take width).takeWhile Digits.isDigit = ds := by
    rw [List.take_append, List.take_of_length_le hw, List.takeWhile_append_of_pos hd]
    rcases hr with hr | ⟨c, cs, rfl, hc⟩
    · simp [hr]
    · cases width - ds.length <;> simp [hc]
  have hn : Digits.nat? ds = some (Digits.value ds) := by
    simp [Digits.nat?, hne, List.all_eq_true.2 hd]
  simp [number?, skipBlanks_digits rest hne hd, hrun, hn]

/-- A number that is filled up to its width is read back. -/
theorem number?_padded {width n : Nat} (rest : List Char) (hw : 0 < width) (h : n < 10 ^ width) :
    number? width (Digits.padded width n ++ rest) = some (n, rest) := by
  rw [number?_digits (Digits.padded_ne_nil hw) (fun c hc => Digits.isDigit_of_mem_padded hc)
    (Nat.le_of_eq (Digits.length_padded h)) (.inl (Digits.length_padded h)), Digits.value_padded]

/-- A separator stands for itself. -/
theorem separator?_cons {c : Char} (cs : List Char) (h : isBlank c = false) : separator? c (c :: cs) = some cs := by
  simp [separator?, skipBlanks_cons cs h]

/-! ### Dates -/

/-- The first character of digits is no sign. -/
theorem ne_sign_of_isDigit {c : Char} (h : Digits.isDigit c = true) : c ≠ '-' ∧ c ≠ '+' := by
  constructor <;> · rintro rfl; revert h; decide

/-- A year is read back in front of a hyphen. -/
theorem year?_year (y : Int) (rest : List Char) : year? (year y ++ '-' :: rest) = some (y, '-' :: rest) := by
  have hne (n : Nat) : Digits.padded 4 n ≠ [] := Digits.padded_ne_nil (by decide)
  have hd (n : Nat) : ∀ c ∈ Digits.padded 4 n, Digits.isDigit c = true := fun c hc => Digits.isDigit_of_mem_padded hc
  have hlong (n : Nat) : number? (Digits.padded 4 n ++ '-' :: rest).length (Digits.padded 4 n ++ '-' :: rest) =
      some (n, '-' :: rest) := by
    rw [number?_digits (hne n) (hd n) (by simp) (.inr ⟨'-', rest, rfl, by decide⟩), Digits.value_padded]
  have hhead (n : Nat) : (Digits.padded 4 n ++ '-' :: rest).head?.any Digits.isDigit = true := by
    cases hp : Digits.padded 4 n with
    | nil => exact absurd hp (hne n)
    | cons d ds => simpa using hd n d (by simp [hp])
  unfold year
  split
  · next h =>
    have hn : y.toNat < 10 ^ 4 := by omega
    have hs := number?_padded ('-' :: rest) (by decide : 0 < 4) hn
    cases hp : Digits.padded 4 y.toNat with
    | nil => exact absurd hp (hne _)
    | cons d ds =>
      have hdig := hd y.toNat d (by simp [hp])
      obtain ⟨hm, hpl⟩ := ne_sign_of_isDigit hdig
      rw [hp] at hs
      rw [List.cons_append] at hs ⊢
      rw [year?, skipBlanks_cons _ (isBlank_of_isDigit hdig)]
      split
      · next he => exact absurd (List.cons.inj he).1 hm
      · next he => exact absurd (List.cons.inj he).1 hpl
      · rw [hs]
        simp only [Option.map_some, Option.some.injEq, Prod.mk.injEq, and_true]
        omega
  · next h =>
    by_cases hneg : y < 0
    · simp only [hneg, if_true, List.cons_append, year?, skipBlanks_cons _ (by decide : isBlank '-' = false), hhead, hlong,
        Option.map_some, Option.some.injEq, Prod.mk.injEq, and_true]
      omega
    · simp only [hneg, if_false, List.cons_append, year?, skipBlanks_cons _ (by decide : isBlank '+' = false), hhead, if_true,
        hlong, Option.map_some, Option.some.injEq, Prod.mk.injEq, and_true]
      omega

/-- A date of the calendar is read back. -/
theorem date?_date {d : Date} (hr : d.InReach) (hv : d.IsValid) (rest : List Char) :
    date? (date d ++ rest) = some (d, rest) := by
  obtain ⟨year, month, day⟩ := d
  have hb : 1 ≤ month ∧ month ≤ 12 ∧ 1 ≤ day ∧ day ≤ 31 := by
    obtain ⟨h1, h2, h3, h4⟩ := hv
    refine ⟨h1, h2, h3, Int.le_trans h4 ?_⟩
    simp only [Date.monthLength]
    grind
  have hm : month.toNat < 10 ^ 2 := by omega
  have hd : day.toNat < 10 ^ 2 := by omega
  have em : (month.toNat : Int) = month := by omega
  have ed : (day.toNat : Int) = day := by omega
  simp only [date, date?, List.append_assoc, List.cons_append, year?_year, number?_padded _ (by decide : 0 < 2) hm,
    number?_padded _ (by decide : 0 < 2) hd, separator?_cons _ (by decide : isBlank '-' = false), Option.bind_eq_bind,
    Option.bind_some, em, ed, hr, hv, and_self, if_true, Option.pure_def]

/-! ### Times of day -/

/-- A fraction of a second is read back in front of a character that is no digit. -/
theorem fraction?_fraction {nanos : Nat} (h : nanos < 1000000000) :
    fraction? (fraction nanos ++ ['Z']) = some (nanos, ['Z']) := by
  have group {width : Nat} {n : Nat} (hw : 0 < width) (h9 : width ≤ 9) (hn : n < 10 ^ width) :
      fraction? ('.' :: (Digits.padded width n ++ ['Z'])) = some (n * 10 ^ (9 - width), ['Z']) := by
    have hd : ∀ c ∈ Digits.padded width n, Digits.isDigit c = true := fun c hc => Digits.isDigit_of_mem_padded hc
    have hl := Digits.length_padded hn
    have hrun : ((Digits.padded width n ++ ['Z']).take 9).takeWhile Digits.isDigit = Digits.padded width n := by
      rw [List.take_append, List.take_of_length_le (by omega), List.takeWhile_append_of_pos hd]
      cases 9 - (Digits.padded width n).length <;> simp [show Digits.isDigit 'Z' = false by decide]
    have hrest : (Digits.padded width n ++ ['Z']).dropWhile Digits.isDigit = ['Z'] := by
      rw [List.dropWhile_append_of_pos hd]
      decide
    simp [fraction?, hrun, hrest, Digits.nat?_padded hw, hl, Nat.pow_eq]
  unfold fraction
  split
  · next h0 => simp [fraction?, h0]
  · split
    · next h6 =>
      rw [List.cons_append, group (by decide) (by decide) (by omega)]
      simp only [Nat.reduceSub, Nat.reducePow, Option.some.injEq, Prod.mk.injEq, and_true]
      omega
    · split
      · next h3 =>
        rw [List.cons_append, group (by decide) (by decide) (by omega)]
        simp only [Nat.reduceSub, Nat.reducePow, Option.some.injEq, Prod.mk.injEq, and_true]
        omega
      · rw [List.cons_append, group (by decide) (by decide) (by omega)]
        simp

/-- The time of day of an instant that a clock can show is read back. -/
theorem time?_time {t : Instant} (h : t.nanos < Instant.perSecond ∨ t.seconds % 60 = 59) :
    time? (time t ++ (fraction t.fraction ++ ['Z'])) = some (t.secondOfDay.toNat, ⟨t.nanos, t.nanos_lt⟩, ['Z']) := by
  have hs : 0 ≤ t.secondOfDay ∧ t.secondOfDay < 86400 := by
    simp only [Instant.secondOfDay]
    omega
  have h60 : t.secondOfDay % 60 = t.seconds % 60 := by
    simp only [Instant.secondOfDay]
    omega
  have hlt := t.nanos_lt
  have hh : t.hour < 24 := by simp only [Instant.hour]; omega
  have hm : t.minute < 60 := by simp only [Instant.minute]; omega
  have hsec : t.second ≤ 60 := by simp only [Instant.second, Instant.perSecond] at *; omega
  have hleap : t.fraction + (if t.second = 60 then Instant.perSecond else 0) = t.nanos := by
    by_cases hn : t.nanos < Instant.perSecond
    · rw [if_neg (by simp only [Instant.second, Instant.perSecond] at *; omega), Instant.fraction, Nat.mod_eq_of_lt hn]
      rfl
    · rw [if_pos (by simp only [Instant.second, Instant.perSecond] at *; omega)]
      simp only [Instant.fraction, Instant.perSecond] at *
      omega
  have hday : t.hour * 3600 + t.minute * 60 + min t.second 59 = t.secondOfDay.toNat := by
    simp only [Instant.hour, Instant.minute, Instant.second, Instant.perSecond] at *
    omega
  have hf : t.fraction < 1000000000 := by simp only [Instant.fraction, Instant.perSecond]; omega
  have hp (n : Nat) (hn : n ≤ 60) (rest : List Char) : number? 2 (Digits.padded 2 n ++ rest) = some (n, rest) :=
    number?_padded rest (by decide) (by omega)
  simp only [time, time?, List.append_assoc, List.cons_append, hp t.hour (by omega), hp t.minute (by omega), hp t.second hsec,
    separator?_cons _ (by decide : isBlank ':' = false), fraction?_fraction hf, Option.bind_eq_bind, Option.bind_some,
    Option.pure_def, hleap, hday]
  rw [dif_pos ⟨hh, hm, hsec, hlt⟩]

/-! ### Instants -/

/-- An instant of the calendar is read back from its text. -/
theorem decode?_encode {t : Instant} (h : t.InCalendar) : decode? (encode t) = some t := by
  have hs : 0 ≤ t.secondOfDay ∧ t.days * 86400 + t.secondOfDay = t.seconds := by
    simp only [Instant.secondOfDay, Instant.days]
    omega
  have hback : (⟨t.days * 86400 + t.secondOfDay.toNat - 0, t.nanos, t.nanos_lt⟩ : Instant) = t := by
    have he : t.days * 86400 + t.secondOfDay.toNat - 0 = t.seconds := by omega
    simp only [he]
  have ho : offset? ['Z'] = some (0, []) := by decide
  have hblank : (skipBlanks []).isEmpty = true := rfl
  simp only [decode?, encode, String.toList_ofList, date?_date h.1 (Date.isValid_ofDays t.days), Option.bind_eq_bind,
    Option.bind_some, or_true, true_or, if_true, List.append_assoc, time?_time h.2, ho, Date.toDays_ofDays, hback, hblank, h,
    and_self, Option.pure_def]

end IngressOperator.Rfc3339
