import IngressOperator.Proofs.Wire.Record
import IngressOperator.Resource.Carried

/-!
# Carried records are read back

A carried record is read back if the values of each of its members are. As no two members have one name, the field of a member
is what is found under its name, and each member can be looked at by itself.

## Main statements

* `Carried.values?_of_shows`: the values of a carried record are read wherever its fields are found.
-/

namespace IngressOperator

open Wire (Shows)

namespace Slot

/-- A member whose values are read back. -/
class Lawful (slot : Slot) : Prop where
  value?_of_shows {ms : Json.Members} {fields : List (String × Option Json)} (value : slot.Value) :
    Shows ms fields slot.name → Json.field? slot.name fields = (slot.field value).2 → slot.value? ms = some value

@[simp] theorem fst_field (slot : Slot) (value : slot.Value) : (slot.field value).1 = slot.name := by
  cases slot <;> rfl

variable {name : String} {α : Type} [Wire α] [DecidableEq α] [Wire.Lawful α]

instance [Inhabited α] : Lawful (.always name α) where
  value?_of_shows {ms fields} (value : α) hs hf := by
    have hf : Json.field? name fields = some (Wire.encode value) := hf
    calc (Wire.lenient? ms name : Option α)
      _ = Wire.ofLenient? (Json.field? name fields) := Wire.lenient?_of_shows hs
      _ = some value := by rw [hf, Wire.ofLenient?_encode]

instance : Lawful (.optional name α) where
  value?_of_shows {ms fields} (value : Option α) hs hf := by
    have hf : Json.field? name fields = value.map Wire.encode := hf
    calc (Wire.optional? ms name : Option (Option α))
      _ = Wire.ofOptional? (Json.field? name fields) := Wire.optional?_of_shows hs
      _ = some value := by rw [hf, Wire.ofOptional?_map_encode]

end Slot

namespace Carried

/-- Members the values of each of which are read back. -/
class Lawful (slots : List Slot) : Prop where
  lawful : ∀ slot ∈ slots, slot.Lawful

instance : Lawful [] := ⟨nofun⟩

instance {slot : Slot} {slots : List Slot} [h : slot.Lawful] [hs : Lawful slots] : Lawful (slot :: slots) :=
  ⟨List.forall_mem_cons.2 ⟨h, hs.lawful⟩⟩

/-- Under a name that no member has there is no field. -/
theorem field?_fields_of_notMem {name : String} {slots : List Slot} (h : name ∉ slots.map Slot.name) (values : Values slots) :
    Json.field? name (fields slots values) = none := by
  induction slots with
  | nil => rfl
  | cons slot slots ih =>
    obtain ⟨hne, hslots⟩ := not_or.1 (mt List.mem_cons.2 h)
    rw [fields, Wire.field?_cons, slot.fst_field, if_neg hne]
    exact ih hslots values.2

/-- The values of a carried record are read wherever its fields are found. -/
theorem values?_of_shows {slots : List Slot} (hl : ∀ slot ∈ slots, slot.Lawful) (hn : (slots.map Slot.name).Nodup)
    {ms : Json.Members} (values : Values slots) (hs : ∀ name ∈ slots.map Slot.name, Shows ms (fields slots values) name) :
    values? ms slots = some values := by
  induction slots with
  | nil => rfl
  | cons slot slots ih =>
    obtain ⟨hslot, hslots⟩ := List.forall_mem_cons.1 hl
    obtain ⟨hfresh, hn⟩ := List.nodup_cons.1 hn
    obtain ⟨hhead, htail⟩ := List.forall_mem_cons.1 hs
    have hvalue : slot.value? ms = some values.1 := by
      refine hslot.value?_of_shows values.1 hhead ?_
      rw [fields, Wire.field?_cons, if_pos (slot.fst_field _).symm, field?_fields_of_notMem hfresh, Option.or_none]
    have hvalues : values? ms slots = some values.2 := by
      refine ih hslots hn values.2 fun name hname => ?_
      -- The first member has another name, so its field is passed over.
      have hne : name ≠ slot.name := fun e => hfresh (e ▸ hname)
      have hshows := htail name hname
      rwa [Shows, fields, Wire.field?_cons, slot.fst_field, if_neg hne] at hshows
    rw [values?, hvalue, hvalues]
    rfl

end Carried

/-- A carried record is read back if the values of its members are. -/
instance {slots : List Slot} {nodup : (slots.map Slot.name).Nodup} [h : Carried.Lawful slots] :
    Wire.Lawful (Carried slots nodup) where
  decode?_encode x := by
    simp only [Wire.encode, Wire.decode?]
    simp [Carried.values?_of_shows h.lawful nodup x.values]
  encode_ne_null _ := nofun

end IngressOperator
