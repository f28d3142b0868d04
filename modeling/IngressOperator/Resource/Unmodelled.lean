import IngressOperator.Wire

/-!
# Members without a model

A specification of a foreign kind may have members that have no field here. They are kept as they are, so that an object
that is read, changed and written back loses none of them. Their names never are names of fields.

## Main statements

* `Unmodelled.find?_fill`: a member without a model is written as it was read, and a field is never covered by one.
-/

namespace IngressOperator

/-- The members of a record whose fields have the given names that have no field. -/
structure Unmodelled (fields : List String) where
  /-- The members by name. -/
  members : Dict Json
  /-- No member has the name of a field. -/
  get?_field : ∀ name ∈ fields, members.get? name = none

namespace Unmodelled

variable {fields : List String}

theorem ext_members {a b : Unmodelled fields} (h : a.members = b.members) : a = b := by
  cases a; cases b; cases h; rfl

instance : DecidableEq (Unmodelled fields) := fun a b =>
  if h : a.members = b.members then isTrue (ext_members h) else isFalse fun e => h (e ▸ rfl)

instance : EmptyCollection (Unmodelled fields) := ⟨⟨∅, fun _ _ => rfl⟩⟩

instance : Inhabited (Unmodelled fields) := ⟨∅⟩

/-- Puts the members whose names are no names of fields into a map. -/
def collect (fields : List String) : Json.Members → Dict Json
  | [] => ∅
  | (name, j) :: ms => if name ∈ fields then collect fields ms else (collect fields ms).insert name j

theorem get?_collect {name : String} {ms : Json.Members} :
    (collect fields ms).get? name = if name ∈ fields then none else Entries.find? name ms := by
  induction ms with
  | nil => simp [collect]
  | cons m ms ih =>
    obtain ⟨name', j⟩ := m
    simp only [collect, Entries.find?]
    by_cases h' : name' ∈ fields
    · rw [if_pos h', ih]
      by_cases h : name ∈ fields
      · simp [h]
      · have hne : ¬ compare name name' = .eq := fun e => h (Std.LawfulEqCmp.eq_of_compare e ▸ h')
        simp [h, hne]
    · rw [if_neg h', SortedMap.get?_insert, ih]
      by_cases he : compare name name' = .eq
      · have := Std.LawfulEqCmp.eq_of_compare he
        subst this
        simp [h']
      · simp [he]

/-- The members of an object that have no field. -/
def ofMembers (fields : List String) (ms : Json.Members) : Unmodelled fields :=
  ⟨collect fields ms, fun name h => by rw [get?_collect, if_pos h]⟩

/-- Adds entries to the members of an object. -/
def insertAll (entries ms : Json.Members) : Json.Members := entries.foldr (fun e ms => Entries.insert e.1 e.2 ms) ms

theorem find?_insertAll {name : String} {entries ms : Json.Members} :
    Entries.find? name (insertAll entries ms) = (Entries.find? name entries).or (Entries.find? name ms) := by
  induction entries with
  | nil => simp [insertAll]
  | cons e entries ih =>
    simp only [insertAll, List.foldr_cons] at ih ⊢
    rw [Entries.find?_insert, ih, Entries.find?.eq_2]
    by_cases h : compare name e.1 = .eq <;> simp [h]

/-- The object of a record's fields and of the members that have none. -/
def fill (extra : Unmodelled fields) (written : List (String × Option Json)) : Json :=
  .obj (insertAll extra.members.toList (Json.recordMembers written))

/-- A member without a model is written as it was read, and a field is never covered by one. -/
theorem find?_fill {extra : Unmodelled fields} {written : List (String × Option Json)} {name : String} :
    (extra.fill written).get? name =
      if name ∈ fields then Json.field? name written
      else (extra.members.get? name).or (Json.field? name written) := by
  have h : (extra.fill written).get? name = (extra.members.get? name).or (Json.field? name written) := by
    simp only [fill, Json.get?, Json.members?, Option.bind_some, find?_insertAll, Json.find?_recordMembers, SortedMap.get?]
  rw [h]
  split
  · next hf => simp [extra.get?_field name hf]
  · rfl

end Unmodelled

end IngressOperator
