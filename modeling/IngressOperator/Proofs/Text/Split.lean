import Mathlib.Data.List.DropRight
import IngressOperator.Text.Blank

/-!
# Parts of a text

Where a text is divided at the last occurrence of a character, and what is left of it without an ending of one character.

## Main statements

* `Text.splitLast?_eq_some_iff`: a text is divided where no other occurrence of the character follows.
* `Text.dropEndWhile_eq_iff`: what is left does not end in the character that was dropped.
-/

namespace IngressOperator.Text

variable {sep : Char} {cs before after : List Char}

/-! ### The last occurrence of a character -/

/-- Only a text without the character is not divided. -/
theorem splitLast?_eq_none_iff : splitLast? sep cs = none ↔ sep ∉ cs := by
  induction cs with
  | nil => simp [splitLast?]
  | cons c cs ih =>
    cases hs : splitLast? sep cs with
    | some parts =>
      have hmem : sep ∈ cs := by
        by_contra hnot
        rw [ih.mpr hnot] at hs
        cases hs
      simp [splitLast?, hs, hmem]
    | none =>
      have hnot : sep ∉ cs := ih.mp hs
      by_cases hc : c = sep
      · simp [splitLast?, hs, hc]
      · simp [splitLast?, hs, hc, hnot, Ne.symm hc]

/-- The part after the last occurrence is the one in which there is none. -/
theorem splitLast?_append_cons (before : List Char) (hafter : sep ∉ after) :
    splitLast? sep (before ++ sep :: after) = some (before, after) := by
  induction before with
  | nil => simp [splitLast?, splitLast?_eq_none_iff.mpr hafter]
  | cons b before ih => simp [splitLast?, ih]

/-- A text is divided where no other occurrence of the character follows. -/
theorem splitLast?_eq_some_iff :
    splitLast? sep cs = some (before, after) ↔ cs = before ++ sep :: after ∧ sep ∉ after := by
  constructor
  · intro h
    induction cs generalizing before with
    | nil => cases h
    | cons c cs ih =>
      simp only [splitLast?] at h
      split at h
      · next before' after' hs =>
        cases h
        obtain ⟨rfl, hafter⟩ := ih hs
        exact ⟨rfl, hafter⟩
      · next hs =>
        split at h
        · next hc =>
          cases h
          exact ⟨congrArg (· :: after) hc, splitLast?_eq_none_iff.mp hs⟩
        · cases h
  · rintro ⟨rfl, hafter⟩
    exact splitLast?_append_cons before hafter

/-! ### Endings -/

/-- What is left without an ending of a class does not end in a character of the class. -/
theorem dropEndWhile_eq_iff_of_class {p : Char → Bool} {body : List Char} :
    dropEndWhile p cs = body ↔
      (∃ ending, cs = body ++ ending ∧ ∀ c ∈ ending, p c = true) ∧ ∀ c, body.getLast? = some c → p c = false := by
  constructor
  · rintro rfl
    refine ⟨⟨cs.rtakeWhile p, List.rdropWhile_append_rtakeWhile.symm, fun c hc => List.mem_rtakeWhile_imp hc⟩, fun c hlast => ?_⟩
    obtain ⟨hne, hend⟩ := List.mem_getLast?_eq_getLast hlast
    rw [hend, ← Bool.not_eq_true]
    exact List.rdropWhile_last_not p cs hne
  · rintro ⟨⟨ending, rfl, hending⟩, hlast⟩
    rw [dropEndWhile_append_of_all hending]
    refine List.rdropWhile_eq_self_iff.mpr fun hne hend => ?_
    rw [hlast _ (List.getLast?_eq_some_getLast hne)] at hend
    cases hend

/-- What is left without an ending of one character does not end in it, and the ending is a repetition of it. -/
theorem dropEndWhile_eq_iff {body : List Char} :
    dropEndWhile (· == sep) cs = body ↔ (∃ count, cs = body ++ List.replicate count sep) ∧ body.getLast? ≠ some sep := by
  rw [dropEndWhile_eq_iff_of_class]
  refine and_congr ⟨?_, ?_⟩ ?_
  · rintro ⟨ending, rfl, hending⟩
    exact ⟨ending.length, congrArg (body ++ ·) (List.eq_replicate_of_mem fun c hc => beq_iff_eq.mp (hending c hc))⟩
  · rintro ⟨count, rfl⟩
    exact ⟨_, rfl, fun c hc => beq_iff_eq.mpr (List.eq_of_mem_replicate hc)⟩
  · cases body.getLast? <;> simp

end IngressOperator.Text
