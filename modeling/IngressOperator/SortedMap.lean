/-!
# Sorted maps

A `SortedMap` is a finite map kept as a list of entries in strictly increasing key order, so that two maps with the same
entries are equal and every listing of a map is in key order. `Dict` is the map keyed by text.

## Main statements

* `SortedMap.get?_insert`: an insertion is seen under its own key and nowhere else.
* `SortedMap.ext_get?`: a map is determined by its look-ups.
-/

namespace IngressOperator

universe u v w

/-! ### Lists of entries -/

namespace Entries

variable {κ : Type u} {α : Type v} [Ord κ]

/-- The value of the first entry under the key. -/
def find? (k : κ) : List (κ × α) → Option α
  | [] => none
  | (k', a) :: rest => if compare k k' = .eq then some a else find? k rest

/-- Puts an entry before the first larger key, in place of an equal one. -/
def insert (k : κ) (a : α) : List (κ × α) → List (κ × α)
  | [] => [(k, a)]
  | (k', a') :: rest =>
    match compare k k' with
    | .lt => (k, a) :: (k', a') :: rest
    | .eq => (k, a) :: rest
    | .gt => (k', a') :: insert k a rest

/-- The entries stand in strictly increasing key order. -/
abbrev Sorted (l : List (κ × α)) : Prop := l.Pairwise fun x y => compare x.1 y.1 = .lt

@[simp] theorem find?_nil {k : κ} : find? k ([] : List (κ × α)) = none := rfl

theorem mem_insert {k : κ} {a : α} {l : List (κ × α)} {e : κ × α} (h : e ∈ insert k a l) : e = (k, a) ∨ e ∈ l := by
  induction l with
  | nil => simpa [insert] using h
  | cons x rest ih =>
    obtain ⟨k', a'⟩ := x
    simp only [insert] at h
    split at h
    · simpa using h
    · rcases List.mem_cons.1 h with h | h
      · exact .inl h
      · exact .inr (List.mem_cons_of_mem _ h)
    · rcases List.mem_cons.1 h with h | h
      · exact .inr (by simp [h])
      · exact (ih h).imp id (List.mem_cons_of_mem _)

variable [Std.TransOrd κ]

theorem Sorted.insert {k : κ} {a : α} {l : List (κ × α)} (h : Sorted l) : Sorted (insert k a l) := by
  induction l with
  | nil => simp [Entries.insert, Sorted]
  | cons x rest ih =>
    obtain ⟨k', a'⟩ := x
    obtain ⟨hx, hr⟩ := List.pairwise_cons.1 h
    simp only [Entries.insert]
    split
    · next hc =>
      refine List.pairwise_cons.2 ⟨fun e he => ?_, h⟩
      rcases List.mem_cons.1 he with rfl | he
      · exact hc
      · exact Std.TransCmp.lt_trans hc (hx e he)
    · next hc =>
      exact List.pairwise_cons.2 ⟨fun e he => Std.TransCmp.lt_of_eq_of_lt hc (hx e he), hr⟩
    · next hc =>
      refine List.pairwise_cons.2 ⟨fun e he => ?_, ih hr⟩
      rcases mem_insert he with rfl | he
      · exact Std.OrientedCmp.lt_of_gt hc
      · exact hx e he

variable [Std.LawfulEqOrd κ]

theorem find?_insert {j k : κ} {a : α} {l : List (κ × α)} :
    find? j (insert k a l) = if compare j k = .eq then some a else find? j l := by
  induction l with
  | nil => simp [insert, find?]
  | cons x rest ih =>
    obtain ⟨k', a'⟩ := x
    simp only [insert]
    split
    · simp only [find?]
    · next hc =>
      have := Std.LawfulEqCmp.eq_of_compare hc
      subst this
      by_cases hj : compare j k = .eq <;> simp [find?, hj]
    · next hc =>
      simp only [find?, ih]
      by_cases hj : compare j k' = .eq
      · have := Std.LawfulEqCmp.eq_of_compare hj
        subst this
        have hne : compare j k ≠ .eq := by
          have hs : compare j k = (compare k j).swap := Std.OrientedCmp.eq_swap
          rw [hs, hc]
          decide
        simp [hne]
      · simp [hj]

omit [Std.TransOrd κ] [Std.LawfulEqOrd κ] in
theorem find?_eq_none_of_lt {k : κ} {l : List (κ × α)} (h : ∀ e ∈ l, compare k e.1 = .lt) : find? k l = none := by
  induction l with
  | nil => rfl
  | cons x rest ih =>
    obtain ⟨k', a'⟩ := x
    have hx := h (k', a') (by simp)
    simp only [find?]
    rw [if_neg (by simp [hx])]
    exact ih fun e he => h e (List.mem_cons_of_mem _ he)

omit [Std.TransOrd κ] in
theorem mem_iff_find? {k : κ} {a : α} {l : List (κ × α)} (h : Sorted l) : (k, a) ∈ l ↔ find? k l = some a := by
  induction l with
  | nil => simp
  | cons x rest ih =>
    obtain ⟨k', a'⟩ := x
    obtain ⟨hx, hr⟩ := List.pairwise_cons.1 h
    simp only [find?, List.mem_cons]
    by_cases hk : compare k k' = .eq
    · have := Std.LawfulEqCmp.eq_of_compare hk
      subst this
      simp only [Prod.mk.injEq, true_and, Std.ReflCmp.compare_self, if_true, Option.some.injEq]
      constructor
      · rintro (rfl | hm)
        · rfl
        · exact absurd (hx _ hm) (by simp)
      · rintro rfl
        exact .inl rfl
    · have hne : k ≠ k' := by
        rintro rfl
        exact hk Std.ReflCmp.compare_self
      simp [hk, hne, ih hr]

theorem ext_find? {l l' : List (κ × α)} (h : Sorted l) (h' : Sorted l') (hf : ∀ k, find? k l = find? k l') : l = l' := by
  induction l generalizing l' with
  | nil =>
    cases l' with
    | nil => rfl
    | cons x rest =>
      have := hf x.1
      simp [find?] at this
  | cons x rest ih =>
    obtain ⟨k, a⟩ := x
    cases l' with
    | nil =>
      have := hf k
      simp [find?] at this
    | cons x' rest' =>
      obtain ⟨k', a'⟩ := x'
      obtain ⟨hx, hr⟩ := List.pairwise_cons.1 h
      obtain ⟨hx', hr'⟩ := List.pairwise_cons.1 h'
      have hk : k = k' := by
        have h1 : (k, a) ∈ (k', a') :: rest' := (mem_iff_find? h').2 (by rw [← hf]; simp [find?])
        have h2 : (k', a') ∈ (k, a) :: rest := (mem_iff_find? h).2 (by rw [hf]; simp [find?])
        rcases List.mem_cons.1 h1 with h1 | h1
        · exact (Prod.mk.inj h1).1
        · rcases List.mem_cons.1 h2 with h2 | h2
          · exact (Prod.mk.inj h2).1.symm
          · have e1 := hx' _ h1
            have e2 := hx _ h2
            have := Std.TransCmp.lt_trans e1 e2
            simp at this
      subst hk
      have ha : a = a' := by
        have := hf k
        simpa [find?] using this
      subst ha
      congr 1
      refine ih hr hr' fun j => ?_
      by_cases hj : compare j k = .eq
      · have := Std.LawfulEqCmp.eq_of_compare hj
        subst this
        rw [find?_eq_none_of_lt hx, find?_eq_none_of_lt hx']
      · have := hf j
        simpa [find?, hj] using this

end Entries

/-! ### The map -/

/-- A finite map whose entries are listed in strictly increasing key order. -/
structure SortedMap (κ : Type u) (α : Type v) [Ord κ] where
  /-- The entries in key order. -/
  toList : List (κ × α)
  /-- The order is strict, so no key occurs twice. -/
  sorted : Entries.Sorted toList

namespace SortedMap

variable {κ : Type u} {α : Type v} {β : Type w} [Ord κ]

theorem ext_toList {m n : SortedMap κ α} (h : m.toList = n.toList) : m = n := by
  cases m; cases n; cases h; rfl

instance [DecidableEq κ] [DecidableEq α] : DecidableEq (SortedMap κ α) := fun m n =>
  if h : m.toList = n.toList then isTrue (ext_toList h) else isFalse fun e => h (e ▸ rfl)

instance : EmptyCollection (SortedMap κ α) := ⟨⟨[], .nil⟩⟩

instance : Inhabited (SortedMap κ α) := ⟨∅⟩

/-- Whether the map has no entry. -/
def isEmpty (m : SortedMap κ α) : Bool := m.toList.isEmpty

/-- The number of entries. -/
def size (m : SortedMap κ α) : Nat := m.toList.length

/-- The value under a key. -/
def get? (m : SortedMap κ α) (k : κ) : Option α := Entries.find? k m.toList

/-- Whether a key has a value. -/
def contains (m : SortedMap κ α) (k : κ) : Bool := (m.get? k).isSome

/-- The keys in order. -/
def keys (m : SortedMap κ α) : List κ := m.toList.map (·.1)

/-- Keeps the entries that satisfy a test. -/
def filter (p : κ → α → Bool) (m : SortedMap κ α) : SortedMap κ α :=
  ⟨m.toList.filter fun e => p e.1 e.2, m.sorted.filter _⟩

/-- Removes the entry under a key. -/
def erase (m : SortedMap κ α) (k : κ) : SortedMap κ α := m.filter fun k' _ => compare k k' != .eq

/-- Applies a function to every value. -/
def mapValues (f : α → β) (m : SortedMap κ α) : SortedMap κ β :=
  ⟨m.toList.map fun e => (e.1, f e.2), List.pairwise_map.2 m.sorted⟩

variable [Std.TransOrd κ]

/-- Puts a value under a key, in place of an earlier one. -/
def insert (m : SortedMap κ α) (k : κ) (a : α) : SortedMap κ α :=
  ⟨Entries.insert k a m.toList, m.sorted.insert⟩

/-- Puts the entries of a list one after the other, so that the last one under a key stands. -/
def insertMany (m : SortedMap κ α) (l : List (κ × α)) : SortedMap κ α :=
  l.foldl (fun m e => m.insert e.1 e.2) m

/-- The map of a list of entries; the last one under a key stands. -/
def ofList (l : List (κ × α)) : SortedMap κ α := insertMany ∅ l

omit [Std.TransOrd κ] in
@[simp] theorem toList_empty : (∅ : SortedMap κ α).toList = [] := rfl

omit [Std.TransOrd κ] in
@[simp] theorem get?_empty {k : κ} : (∅ : SortedMap κ α).get? k = none := rfl

variable [Std.LawfulEqOrd κ]

theorem get?_insert {m : SortedMap κ α} {j k : κ} {a : α} :
    (m.insert k a).get? j = if compare j k = .eq then some a else m.get? j :=
  Entries.find?_insert

@[simp] theorem get?_insert_self {m : SortedMap κ α} {k : κ} {a : α} : (m.insert k a).get? k = some a := by
  simp [get?_insert]

theorem get?_insert_of_ne {m : SortedMap κ α} {j k : κ} {a : α} (h : j ≠ k) : (m.insert k a).get? j = m.get? j := by
  rw [get?_insert, if_neg]
  exact fun e => h (Std.LawfulEqCmp.eq_of_compare e)

/-- A map is determined by its look-ups. -/
theorem ext_get? {m n : SortedMap κ α} (h : ∀ k, m.get? k = n.get? k) : m = n :=
  ext_toList (Entries.ext_find? m.sorted n.sorted h)

/-- Putting a value where it is already changes nothing. -/
theorem insert_eq_self {m : SortedMap κ α} {k : κ} {a : α} (h : m.get? k = some a) : m.insert k a = m := by
  refine ext_get? fun j => ?_
  rw [get?_insert]
  split
  · next hj =>
    rw [Std.LawfulEqCmp.eq_of_compare hj, h]
  · rfl

omit [Std.TransOrd κ] in
theorem get?_erase {m : SortedMap κ α} {j k : κ} : (m.erase k).get? j = if compare j k = .eq then none else m.get? j := by
  simp only [get?, erase, filter]
  induction m.toList with
  | nil => simp
  | cons x rest ih =>
    obtain ⟨k', a'⟩ := x
    by_cases hk : compare k k' = .eq
    · have := Std.LawfulEqCmp.eq_of_compare hk
      subst this
      rw [List.filter_cons_of_neg (by simp)]
      rw [ih]
      by_cases hj : compare j k = .eq <;> simp [Entries.find?, hj]
    · rw [List.filter_cons_of_pos (by simpa using hk)]
      simp only [Entries.find?, ih]
      by_cases hj : compare j k = .eq
      · have := Std.LawfulEqCmp.eq_of_compare hj
        subst this
        simp [hk]
      · simp [hj]

/-- Of entries with increasing keys each is found after they have been put into a map. -/
theorem get?_insertMany {m : SortedMap κ α} {l : List (κ × α)} (h : Entries.Sorted l) (k : κ) :
    (m.insertMany l).get? k = (Entries.find? k l).or (m.get? k) := by
  induction l generalizing m with
  | nil => simp [insertMany]
  | cons e l ih =>
    obtain ⟨hx, hl⟩ := List.pairwise_cons.1 h
    have hi : (m.insertMany (e :: l)).get? k = ((m.insert e.1 e.2).insertMany l).get? k := rfl
    rw [hi, ih hl, get?_insert]
    by_cases hk : compare k e.1 = .eq
    · have := Std.LawfulEqCmp.eq_of_compare hk
      subst this
      simp [Entries.find?, Entries.find?_eq_none_of_lt hx]
    · simp [Entries.find?, hk]

omit [Std.LawfulEqOrd κ] in
/-- The entries of a map that was made of a list are entries of the list. -/
theorem mem_of_mem_insertMany {m : SortedMap κ α} {l : List (κ × α)} {e : κ × α}
    (h : e ∈ (m.insertMany l).toList) : e ∈ m.toList ∨ e ∈ l := by
  induction l generalizing m with
  | nil => exact .inl h
  | cons x l ih =>
    rcases ih (m := m.insert x.1 x.2) h with h | h
    · rcases Entries.mem_insert h with rfl | h
      · exact .inr List.mem_cons_self
      · exact .inl h
    · exact .inr (List.mem_cons_of_mem _ h)

/-- A map is made of its entries. -/
theorem ofList_toList (m : SortedMap κ α) : ofList m.toList = m :=
  ext_get? fun k => by
    rw [ofList, get?_insertMany m.sorted]
    simp [get?]

omit [Std.TransOrd κ] in
theorem mem_toList_iff {m : SortedMap κ α} {k : κ} {a : α} : (k, a) ∈ m.toList ↔ m.get? k = some a :=
  Entries.mem_iff_find? m.sorted

end SortedMap

/-- A map keyed by text, listed in the order of code points. -/
abbrev Dict (α : Type u) := SortedMap String α

end IngressOperator
