import IngressOperator.Wire

/-!
# Carried records

Records that the operator does not look into. What it needs to know of them is how they are read and written, so that an object
that is read, changed elsewhere and written back has them as before. A carried record is given by its members: their names, the
types of their values, and which of them are there in every record.
-/

namespace IngressOperator

/-! ### Members -/

/-- A member of a record. One that is there in every record has its default if it is absent or null. -/
inductive Slot : Type 1 where
  | always (name : String) (α : Type) [Wire α] [Inhabited α] [DecidableEq α]
  | optional (name : String) (α : Type) [Wire α] [DecidableEq α]

namespace Slot

/-- The name of a member. -/
def name : Slot → String
  | always name _ => name
  | optional name _ => name

/-- What a record has under a member. -/
def Value : Slot → Type
  | always _ α => α
  | optional _ α => Option α

instance : (slot : Slot) → DecidableEq slot.Value
  | always _ α => inferInstanceAs (DecidableEq α)
  | optional _ α => inferInstanceAs (DecidableEq (Option α))

instance : (slot : Slot) → Inhabited slot.Value
  | always _ α => inferInstanceAs (Inhabited α)
  | optional _ α => inferInstanceAs (Inhabited (Option α))

/-- The field that is written for a value. -/
def field : (slot : Slot) → slot.Value → String × Option Json
  | always name α, value => Wire.always (α := α) name value
  | optional name α, value => Wire.present (α := α) name value

/-- Reads the value of a member. -/
def value? (ms : Json.Members) : (slot : Slot) → Option slot.Value
  | always name α => Wire.lenient? (α := α) ms name
  | optional name α => Wire.optional? (α := α) ms name

end Slot

/-! ### Records -/

namespace Carried

/-- The values of some members, one after the other. -/
def Values : List Slot → Type
  | [] => Unit
  | slot :: slots => slot.Value × Values slots

instance Values.decEq : (slots : List Slot) → DecidableEq (Values slots)
  | [] => inferInstanceAs (DecidableEq Unit)
  | slot :: slots =>
    have := decEq slots
    inferInstanceAs (DecidableEq (slot.Value × Values slots))

instance Values.inhabited : (slots : List Slot) → Inhabited (Values slots)
  | [] => inferInstanceAs (Inhabited Unit)
  | slot :: slots =>
    have := inhabited slots
    inferInstanceAs (Inhabited (slot.Value × Values slots))

/-- The fields that are written for values. -/
def fields : (slots : List Slot) → Values slots → List (String × Option Json)
  | [], _ => []
  | slot :: slots, values => slot.field values.1 :: fields slots values.2

/-- Reads the values of members. -/
def values? (ms : Json.Members) : (slots : List Slot) → Option (Values slots)
  | [] => some ()
  | slot :: slots => do
    let value ← slot.value? ms
    let values ← values? ms slots
    pure (value, values)

end Carried

/-- A record of the given members, no two of which have one name. -/
structure Carried (slots : List Slot) (nodup : (slots.map Slot.name).Nodup := by decide) where
  values : Carried.Values slots

namespace Carried

variable {slots : List Slot} {nodup : (slots.map Slot.name).Nodup}

theorem ext_values {a b : Carried slots nodup} (h : a.values = b.values) : a = b := by
  cases a; cases b; cases h; rfl

instance : DecidableEq (Carried slots nodup) := fun a b =>
  if h : a.values = b.values then isTrue (ext_values h) else isFalse fun e => h (e ▸ rfl)

instance : Inhabited (Carried slots nodup) := ⟨⟨default⟩⟩

instance : Wire (Carried slots nodup) where
  encode x := .record (fields slots x.values)
  decode? j := do
    let ms ← j.members?
    let values ← values? ms slots
    pure ⟨values⟩

end Carried

/-- A record that only has a name. -/
abbrev Named := Carried [.always "name" String]

/-- A record of a name and a text. -/
abbrev NamedText := Carried [.always "name" String, .always "value" String]

end IngressOperator
