import IngressOperator.Proofs.Text.Split

/-!
# Texts without the blanks around them

What is left of a text without the blanks at its ends is the one part of it that neither begins nor ends in a blank and has only
blanks around it. So blanks that are put around a text do not matter.

## Main statements

* `Text.trim_eq_iff`: what is left of a text.
* `Text.trim_surrounded`: blanks around a text do not matter.
-/

namespace IngressOperator.Text

variable {cs ds body before after : List Char}

/-- Whether a text is white space only. -/
def Blank (cs : List Char) : Prop := ∀ c ∈ cs, isBlank c = true

instance : DecidablePred Blank := fun cs => decidable_of_iff (cs.all isBlank = true) List.all_eq_true

/-- Whether a text does not begin in a blank. -/
def BeginsSolid (cs : List Char) : Prop := ∀ c ∈ cs.head?, isBlank c = false

instance : DecidablePred BeginsSolid := fun cs =>
  decidable_of_iff (cs.head?.all (!isBlank ·) = true) (by simp [BeginsSolid, Option.all_eq_true])

/-- Whether a text does not end in a blank. -/
def EndsSolid (cs : List Char) : Prop := ∀ c ∈ cs.getLast?, isBlank c = false

instance : DecidablePred EndsSolid := fun cs =>
  decidable_of_iff (cs.getLast?.all (!isBlank ·) = true) (by simp [EndsSolid, Option.all_eq_true])

/-- Whether a text is another one without the blanks at its ends. -/
structure Trimmed (cs body : List Char) : Prop where
  text : ∃ before after, cs = before ++ (body ++ after) ∧ Blank before ∧ Blank after
  begins : BeginsSolid body
  ends : EndsSolid body

/-! ### Beginnings and ends -/

theorem beginsSolid_of_forall (h : ∀ c ∈ cs, isBlank c = false) : BeginsSolid cs :=
  fun c hc => h c (List.mem_of_mem_head? hc)

theorem endsSolid_of_forall (h : ∀ c ∈ cs, isBlank c = false) : EndsSolid cs :=
  fun c hc => h c (List.mem_of_getLast? hc)

theorem beginsSolid_append (hcs : BeginsSolid cs) (hds : BeginsSolid ds) : BeginsSolid (cs ++ ds) := by
  cases cs with
  | nil => exact hds
  | cons c cs => exact hcs

theorem BeginsSolid.of_append (h : BeginsSolid (cs ++ ds)) : BeginsSolid cs := by
  cases cs with
  | nil => exact nofun
  | cons c cs => exact h

theorem endsSolid_append (hne : ds ≠ []) : EndsSolid (cs ++ ds) ↔ EndsSolid ds := by
  rw [EndsSolid, EndsSolid, List.getLast?_append_of_ne_nil _ hne]

/-- A text that does not begin in a blank has none to drop there. -/
theorem BeginsSolid.dropWhile_eq (h : BeginsSolid cs) : cs.dropWhile isBlank = cs := by
  cases cs with
  | nil => rfl
  | cons c cs => rw [List.dropWhile_cons, if_neg (by simp [h c rfl])]

/-- What is left without the blanks at the beginning does not begin in a blank. -/
theorem beginsSolid_dropWhile (cs : List Char) : BeginsSolid (cs.dropWhile isBlank) := by
  intro c hc
  rw [← Bool.not_eq_true]
  intro hblank
  have hnot := List.head?_dropWhile_not isBlank cs
  rw [hc] at hnot
  exact absurd hblank (by simpa using hnot)

/-- A text that does not end in a blank has none to drop there. -/
theorem EndsSolid.dropEndWhile_eq (h : EndsSolid cs) : dropEndWhile isBlank cs = cs :=
  dropEndWhile_eq_iff_of_class.mpr ⟨⟨[], (List.append_nil cs).symm, nofun⟩, h⟩

/-! ### Trimming -/

theorem blank_nil : Blank [] := List.forall_mem_nil _

theorem blank_append : Blank (cs ++ ds) ↔ Blank cs ∧ Blank ds := List.forall_mem_append

/-- Nothing is left of blanks. -/
theorem dropWhile_eq_nil_iff : cs.dropWhile isBlank = [] ↔ Blank cs := by
  simp [Blank]

/-- Blanks around a text do not matter. -/
theorem trim_surrounded (hbefore : Blank before) (hafter : Blank after) (cs : List Char) :
    trim (before ++ (cs ++ after)) = trim cs := by
  unfold trim
  rw [List.dropWhile_append_of_pos hbefore, List.dropWhile_append]
  split
  · next hnil =>
    rw [List.isEmpty_iff] at hnil
    rw [hnil, dropWhile_eq_nil_iff.mpr hafter]
  · exact dropEndWhile_append_of_all hafter

/-- Only the blanks at its beginning are dropped of a text before one that neither begins nor ends in a blank. -/
theorem trim_append (hne : ds ≠ []) (hbegins : BeginsSolid ds) (hends : EndsSolid ds) (cs : List Char) :
    trim (cs ++ ds) = cs.dropWhile isBlank ++ ds := by
  have hrest : (cs ++ ds).dropWhile isBlank = cs.dropWhile isBlank ++ ds := by
    rw [List.dropWhile_append, hbegins.dropWhile_eq]
    split
    · next hnil => rw [List.isEmpty_iff.mp hnil, List.nil_append]
    · rfl
  rw [trim, hrest, ((endsSolid_append hne).mpr hends).dropEndWhile_eq]

/-- What is left of a text without the blanks at its ends. -/
theorem trim_eq_iff : trim cs = body ↔ Trimmed cs body := by
  constructor
  · intro h
    obtain ⟨⟨after, hrest, hafter⟩, hends⟩ := dropEndWhile_eq_iff_of_class.mp h
    refine ⟨⟨cs.takeWhile isBlank, after, ?_, fun c hc => List.mem_takeWhile_imp hc, hafter⟩, ?_, hends⟩
    · rw [← hrest, List.takeWhile_append_dropWhile]
    · exact BeginsSolid.of_append (hrest ▸ beginsSolid_dropWhile cs)
  · rintro ⟨⟨before, after, rfl, hbefore, hafter⟩, hbegins, hends⟩
    rw [trim_surrounded hbefore hafter, trim, hbegins.dropWhile_eq, hends.dropEndWhile_eq]

theorem trim_eq_nil_iff : trim cs = [] ↔ Blank cs := by
  rw [trim_eq_iff]
  constructor
  · rintro ⟨⟨before, after, rfl, hbefore, hafter⟩, -, -⟩
    exact blank_append.mpr ⟨hbefore, blank_append.mpr ⟨blank_nil, hafter⟩⟩
  · exact fun h => ⟨⟨cs, [], (List.append_nil cs).symm, h, blank_nil⟩, nofun, nofun⟩

/-- A text without the blanks at its beginning ends as it did before, unless it was blank. -/
theorem endsSolid_dropWhile : EndsSolid (cs.dropWhile isBlank) ↔ Blank cs ∨ EndsSolid cs := by
  cases hrest : cs.dropWhile isBlank with
  | nil => exact iff_of_true nofun (.inl (dropWhile_eq_nil_iff.mp hrest))
  | cons c rest =>
    have hsolid : ¬ Blank cs := fun hblank => List.cons_ne_nil c rest (hrest.symm.trans (dropWhile_eq_nil_iff.mpr hblank))
    have hcs : cs = cs.takeWhile isBlank ++ c :: rest := by rw [← hrest, List.takeWhile_append_dropWhile]
    rw [or_iff_right hsolid]
    conv_rhs => rw [hcs]
    exact (endsSolid_append (List.cons_ne_nil c rest)).symm

end IngressOperator.Text
