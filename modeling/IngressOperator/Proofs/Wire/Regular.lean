import IngressOperator.Proofs.Json.Text
import IngressOperator.Proofs.Wire.Resources

/-!
# Written forms as texts

A written form is regular if its numbers are integers of a 64-bit range and the members of its objects stand in key order. Such a
form is read from any text of it, so that a value which is read back from its written form is read back from its text. The forms
of records are regular if those of their fields are.

## Main statements

* `Wire.roundTrips_of`: a value that is read back from its written form is read back from every text of that form.
-/

namespace IngressOperator

/-- A wire form that writes regular values only. -/
class Wire.Regular (α : Type) [Wire α] : Prop where
  encode_regular (a : α) : (Wire.encode a).Regular Json.InOrder

namespace Wire

export Regular (encode_regular)

section

variable {α : Type} [Wire α]

/-! ### Records -/

/-- Whether a field is written as a regular value, if it is written. -/
def FieldRegular (field : String × Option Json) : Prop := ∀ j, field.2 = some j → j.Regular Json.InOrder

theorem regular_recordMembers {fields : List (String × Option Json)} (h : ∀ field ∈ fields, FieldRegular field) :
    ∀ m ∈ Json.recordMembers fields, m.2.Regular Json.InOrder := by
  induction fields with
  | nil => exact fun _ hm => absurd hm List.not_mem_nil
  | cons field fields ih =>
    obtain ⟨hfield, hfields⟩ := List.forall_mem_cons.1 h
    obtain ⟨name, value⟩ := field
    cases value with
    | none => exact ih hfields
    | some j =>
      intro m hm
      rcases Entries.mem_insert hm with rfl | hm
      · exact hfield j rfl
      · exact ih hfields m hm

/-- A record is regular if its fields are. -/
theorem regular_record {fields : List (String × Option Json)} (h : ∀ field ∈ fields, FieldRegular field) :
    (Json.record fields).Regular Json.InOrder :=
  .obj (List.pairwise_map.2 Json.sorted_recordMembers) (regular_recordMembers h)

/-! ### Fields -/

@[simp] theorem fieldRegular_text (name value : String) : FieldRegular (text name value) := by
  intro j hj
  rw [snd_text] at hj
  split at hj
  · cases hj
  · cases hj
    exact .str value

variable [Regular α]

@[simp] theorem fieldRegular_always (name : String) (a : α) : FieldRegular (always name a) := by
  intro j hj
  cases hj
  exact encode_regular a

@[simp] theorem fieldRegular_present (name : String) (a : Option α) : FieldRegular (present name a) := by
  intro j hj
  obtain ⟨x, -, rfl⟩ := Option.map_eq_some_iff.1 hj
  exact encode_regular x

/-! ### Texts -/

/-- Whether a value is read back from every text of its written form, be it the one that is printed or one with the members of
objects in another order. -/
def RoundTrips (a : α) : Prop :=
  Json.Prints (encode a).text (encode a) ∧
    ∀ text, Json.Prints text (encode a) → (Json.read? text).bind decode? = some a

/-- A value that is read back from its written form is read back from every text of that form. -/
theorem roundTrips_of {a : α} (hd : decode? (encode a) = some a) : RoundTrips a := by
  refine ⟨(encode_regular a).prints, fun text ht => ?_⟩
  rw [Json.read?_of_prints ht]
  exact hd

/-! ### Values -/

instance : Regular String := ⟨.str⟩

instance : Regular Bool := ⟨.bool⟩

instance : Regular Int32 where
  encode_regular i := by
    have h1 := Int32.le_toInt i
    have h2 := Int32.toInt_lt i
    have hmin : Int64.minValue.toInt = -9223372036854775808 := rfl
    refine .int ⟨by omega, ?_⟩
    simp only [UInt64.size]
    omega

instance : Regular Int64 where
  encode_regular i := by
    have h1 := Int64.le_toInt i
    have h2 := Int64.toInt_lt i
    have hmin : Int64.minValue.toInt = -9223372036854775808 := rfl
    refine .int ⟨by omega, ?_⟩
    simp only [UInt64.size]
    omega

instance : Regular (List α) where
  encode_regular as := by
    refine .arr fun j hj => ?_
    obtain ⟨a, -, rfl⟩ := List.mem_map.1 hj
    exact encode_regular a

instance : Regular (Dict α) where
  encode_regular m := by
    refine .obj ?_ fun e he => ?_
    · rw [List.map_map]
      exact List.pairwise_map.2 m.sorted
    · obtain ⟨e, -, rfl⟩ := List.mem_map.1 he
      exact encode_regular e.2

@[simp] theorem fieldRegular_items (name : String) (as : List α) : FieldRegular (items name as) := by
  intro j hj
  rw [snd_items] at hj
  split at hj
  · cases hj
  · cases hj
    exact encode_regular as

@[simp] theorem fieldRegular_entries (name : String) (as : Dict α) : FieldRegular (entries name as) := by
  intro j hj
  rw [snd_entries] at hj
  split at hj
  · cases hj
  · cases hj
    exact encode_regular as

end

/-! ### Specifications -/

instance : Regular ManagementState := ⟨fun x => by cases x <;> exact .str _⟩

instance : Regular OperandImage := ⟨fun x => regular_record (by simp)⟩

instance : Regular IssuerKind := ⟨fun x => .str x.name⟩

instance : Regular CertIssuer := ⟨fun x => regular_record (by simp)⟩

instance : Regular CertSpec := ⟨fun x => regular_record (by simp)⟩

instance : Regular ResourceClaim := ⟨fun x => regular_record (by simp)⟩

instance : Regular Resources := ⟨fun x => regular_record (by simp)⟩

instance : Regular Toleration := ⟨fun x => regular_record (by simp)⟩

instance : Regular IngressSpec := ⟨fun x => regular_record (by simp)⟩

/-! ### Statuses -/

instance : Regular ConditionType := ⟨fun t => .str t.name⟩

instance : Regular ConditionStatus := ⟨fun x => by cases x <;> exact .str _⟩

instance : Regular Instant := ⟨fun _ => .str _⟩

instance : Regular Condition := ⟨fun x => regular_record (by simp)⟩

instance : Regular PodState := ⟨fun x => regular_record (by simp)⟩

instance : Regular OperandStatus := ⟨fun x => by cases x <;> exact .str _⟩

instance : Regular OperandState := ⟨fun x => regular_record (by simp)⟩

instance : Regular IngressStatus := ⟨fun x => regular_record (by simp)⟩

/-! ### The resource -/

instance : Regular Stamp := ⟨fun _ => .str _⟩

instance : Regular OwnerReference := ⟨fun x => regular_record (by simp)⟩

instance : Regular FieldSet := ⟨fun s => Json.regular_of_isRegular s.json s.regular⟩

instance : Regular ManagedFields := ⟨fun x => regular_record (by simp)⟩

instance : Regular Meta := ⟨fun x => regular_record (by simp)⟩

instance : Regular ManagementIngress := ⟨fun x => regular_record (by simp)⟩

end Wire

end IngressOperator
