import IngressOperator.Proofs.Time.Rfc3339
import IngressOperator.Resource.Config
import IngressOperator.Resource.Unmodelled

/-!
# Records that are read back

A wire form is lawful if every value is read back from its written form, which is never null. A record is lawful if its fields
are: each member is read as the field of its name, which is said once for every way in which a member is read or written.

## Main statements

* `Wire.optional?_record` and the like: a member of a written record is what is read from the field of its name.
* `Wire.ofOptional?_map_encode` and the like: from a written field its value is read.
-/

namespace IngressOperator

/-- A wire form by which values are read back. -/
class Wire.Lawful (α : Type) [Wire α] : Prop where
  decode?_encode (a : α) : Wire.decode? (Wire.encode a) = some a
  encode_ne_null (a : α) : Wire.encode a ≠ .null

namespace Wire

export Lawful (decode?_encode encode_ne_null)

/-! ### Steps of reading -/

section

variable {α β : Type} {x y : Option α} {f : α → Option β}

/-- A step is read before the steps after it, which need its value. -/
theorem bind_congr_left (h : x = y) : x.bind f = y.bind f := by
  rw [h]

/-- What is read in two steps is read in the second from the value of the first. -/
theorem bind_eq_some {b : β} : (x >>= f) = some b ↔ ∃ a, x = some a ∧ f a = some b :=
  Option.bind_eq_some_iff

end

section

variable {α : Type} [Wire α]

/-! ### Members and fields -/

/-- The value that is read from a field that must be there. -/
def ofRequired? (field : Option Json) : Option α := field.bind decode?

/-- The value that is read from a field whose absence means the default. -/
def ofDefaulted? [Inhabited α] : Option Json → Option α
  | none => some default
  | some j => decode? j

/-- The value that is read from a field whose absence means the default, as does null. -/
def ofLenient? [Inhabited α] : Option Json → Option α
  | none | some .null => some default
  | some j => decode? j

/-- The value that is read from a field that may be absent or null. -/
def ofOptional? : Option Json → Option (Option α)
  | none | some .null => some none
  | some j => (decode? j).map some

variable {ms : Json.Members} {fields : List (String × Option Json)} {name name' : String}

/-- Members that show what fields hold under a name. -/
def Shows (ms : Json.Members) (fields : List (String × Option Json)) (name : String) : Prop :=
  Entries.find? name ms = Json.field? name fields

/-- A record shows its fields. -/
@[simp] theorem shows_record (fields : List (String × Option Json)) (name : String) :
    Shows (Json.recordMembers fields) fields name :=
  Json.find?_recordMembers

theorem required?_of_shows (h : Shows ms fields name) :
    (required? ms name : Option α) = ofRequired? (Json.field? name fields) := by
  rw [required?, h, ofRequired?]

theorem defaulted?_of_shows [Inhabited α] (h : Shows ms fields name) :
    (defaulted? ms name : Option α) = ofDefaulted? (Json.field? name fields) := by
  rw [defaulted?, h]
  rfl

theorem lenient?_of_shows [Inhabited α] (h : Shows ms fields name) :
    (lenient? ms name : Option α) = ofLenient? (Json.field? name fields) := by
  rw [lenient?, h]
  rfl

theorem optional?_of_shows (h : Shows ms fields name) :
    (optional? ms name : Option (Option α)) = ofOptional? (Json.field? name fields) := by
  rw [optional?, h]
  rfl

@[simp] theorem required?_record :
    (required? (Json.recordMembers fields) name : Option α) = ofRequired? (Json.field? name fields) :=
  required?_of_shows (shows_record fields name)

@[simp] theorem defaulted?_record [Inhabited α] :
    (defaulted? (Json.recordMembers fields) name : Option α) = ofDefaulted? (Json.field? name fields) :=
  defaulted?_of_shows (shows_record fields name)

@[simp] theorem lenient?_record [Inhabited α] :
    (lenient? (Json.recordMembers fields) name : Option α) = ofLenient? (Json.field? name fields) :=
  lenient?_of_shows (shows_record fields name)

@[simp] theorem optional?_record :
    (optional? (Json.recordMembers fields) name : Option (Option α)) = ofOptional? (Json.field? name fields) :=
  optional?_of_shows (shows_record fields name)

/-- A fixed text is found in the record that holds it. -/
@[simp] theorem fixed?_record {text : String} (h : Json.field? name fields = some (encode text)) :
    fixed? (Json.recordMembers fields) name text = some () := by
  rw [fixed?, Json.find?_recordMembers, h]
  exact if_pos rfl

@[simp] theorem members?_record : (Json.record fields).members? = some (Json.recordMembers fields) := by
  rw [Json.record, Json.members?]

@[simp] theorem positional?_record (names : List String) :
    positional? names (Json.record fields) = some (Json.recordMembers fields) := by
  rw [Json.record, positional?]

/-! ### Records with other members -/

section

variable {names : List String} (extra : Unmodelled names)

@[simp] theorem members?_fill :
    (extra.fill fields).members? = some (Unmodelled.insertAll extra.members.toList (Json.recordMembers fields)) := rfl

/-- Members without a model cover no field. -/
theorem shows_fill (h : name ∈ names) :
    Shows (Unmodelled.insertAll extra.members.toList (Json.recordMembers fields)) fields name := by
  have hf := @Unmodelled.find?_fill names extra fields name
  rwa [if_pos h] at hf

@[simp] theorem required?_fill (h : name ∈ names) :
    (required? (Unmodelled.insertAll extra.members.toList (Json.recordMembers fields)) name : Option α) =
      ofRequired? (Json.field? name fields) :=
  required?_of_shows (shows_fill extra h)

@[simp] theorem defaulted?_fill [Inhabited α] (h : name ∈ names) :
    (defaulted? (Unmodelled.insertAll extra.members.toList (Json.recordMembers fields)) name : Option α) =
      ofDefaulted? (Json.field? name fields) :=
  defaulted?_of_shows (shows_fill extra h)

@[simp] theorem optional?_fill (h : name ∈ names) :
    (optional? (Unmodelled.insertAll extra.members.toList (Json.recordMembers fields)) name : Option (Option α)) =
      ofOptional? (Json.field? name fields) :=
  optional?_of_shows (shows_fill extra h)

/-- Members without a model are read back if every field that is written has a name of its own. -/
theorem ofMembers_fill (h : ∀ name, name ∉ names → Json.field? name fields = none) :
    Unmodelled.ofMembers names (Unmodelled.insertAll extra.members.toList (Json.recordMembers fields)) = extra := by
  refine Unmodelled.ext_members (SortedMap.ext_get? fun name => ?_)
  rw [Unmodelled.ofMembers, Unmodelled.get?_collect, Unmodelled.find?_insertAll, Json.find?_recordMembers]
  by_cases hn : name ∈ names
  · rw [if_pos hn, extra.get?_field name hn]
  · rw [if_neg hn, h name hn, Option.or_none]
    rfl

end

/-! ### Fields by name -/

@[simp] theorem field?_nil : Json.field? name [] = none := rfl

@[simp] theorem field?_cons (field : String × Option Json) :
    Json.field? name (field :: fields) =
      if name = field.1 then field.2.or (Json.field? name fields) else Json.field? name fields := by
  obtain ⟨name', value⟩ := field
  cases value <;> simp [Json.field?]

@[simp] theorem fst_always (a : α) : (always name a).1 = name := rfl

@[simp] theorem snd_always (a : α) : (always name a).2 = some (encode a) := rfl

@[simp] theorem fst_present (a : Option α) : (present name a).1 = name := rfl

@[simp] theorem snd_present (a : Option α) : (present name a).2 = a.map encode := rfl

@[simp] theorem fst_text (value : String) : (text name value).1 = name := rfl

@[simp] theorem snd_text (value : String) : (text name value).2 = if value.isEmpty then none else some (.str value) := rfl

@[simp] theorem fst_items (as : List α) : (items name as).1 = name := rfl

@[simp] theorem snd_items (as : List α) : (items name as).2 = if as.isEmpty then none else some (encode as) := rfl

@[simp] theorem fst_entries (as : Dict α) : (entries name as).1 = name := rfl

@[simp] theorem snd_entries (as : Dict α) : (entries name as).2 = if as.isEmpty then none else some (encode as) := rfl

end

/-! ### Values of fields -/

section

variable {α : Type} [Wire α]

/-- A value that is left out when it is the default is read back if it is read back where it is written. -/
theorem ofDefaulted?_unless [Inhabited α] {a : α} {c : Prop} [Decidable c] (hd : decode? (encode a) = some a)
    (h : c → a = default) : ofDefaulted? (if c then none else some (encode a)) = some a := by
  by_cases hc : c
  · simp [ofDefaulted?, hc, h hc]
  · rw [if_neg hc]
    exact hd

/-- What may be absent is read back if what is there is read back and not null. -/
theorem ofOptional?_map_of {a : Option α} (hd : ∀ x, a = some x → decode? (encode x) = some x)
    (hn : ∀ x : α, encode x ≠ .null) : ofOptional? (a.map encode) = some a := by
  cases a with
  | none => rfl
  | some x =>
    have hd := hd x rfl
    rw [Option.map_some]
    cases h : encode x with
    | null => exact absurd h (hn x)
    | _ =>
      rw [h] at hd
      simp [ofOptional?, hd]

/-- The items of a list are read one after the other. -/
theorem decodeItems?_map_of {as : List α} (h : ∀ a ∈ as, decode? (encode a) = some a) :
    decodeItems? (as.map encode) = some as := by
  induction as with
  | nil => rfl
  | cons a as ih =>
    have ih := ih fun x hx => h x (List.mem_cons_of_mem _ hx)
    simp [decodeItems?, h a (by simp), ih]

/-- A list is read back if its items are. -/
theorem decode?_encode_list {as : List α} (h : ∀ a ∈ as, decode? (encode a) = some a) : decode? (encode as) = some as :=
  decodeItems?_map_of h

/-- The entries of a map are read one after the other. -/
theorem decodeEntries?_map_of {es : List (String × α)} (h : ∀ e ∈ es, decode? (encode e.2) = some e.2) :
    decodeEntries? (es.map fun e => (e.1, encode e.2)) = some es := by
  induction es with
  | nil => rfl
  | cons e es ih =>
    have ih := ih fun x hx => h x (List.mem_cons_of_mem _ hx)
    simp [decodeEntries?, h e (by simp), ih]

/-- A map is read back if its values are. -/
theorem decode?_encode_dict {m : Dict α} (h : ∀ e ∈ m.toList, decode? (encode e.2) = some e.2) :
    decode? (encode m) = some m := by
  simp [encode, decode?, Json.members?, decodeEntries?_map_of h, SortedMap.ofList_toList]

/-- Every item that was read is read from some JSON value. -/
theorem exists_of_decodeItems? {js : List Json} {as : List α} (h : decodeItems? js = some as) {a : α} (ha : a ∈ as) :
    ∃ j, decode? j = some a := by
  induction js generalizing as with
  | nil =>
    cases h
    cases ha
  | cons j js ih =>
    simp only [decodeItems?, Option.bind_eq_bind, Option.bind_eq_some_iff, Option.pure_def, Option.some.injEq] at h
    obtain ⟨x, hx, xs, hxs, rfl⟩ := h
    rcases List.mem_cons.1 ha with rfl | ha
    · exact ⟨j, hx⟩
    · exact ih hxs ha

theorem exists_of_decode?_list {j : Json} {as : List α} (h : decode? j = some as) {a : α} (ha : a ∈ as) :
    ∃ j, decode? j = some a := by
  obtain ⟨js, -, hjs⟩ := Option.bind_eq_some_iff.1 h
  exact exists_of_decodeItems? hjs ha

/-- Every value of an entry that was read is read from some JSON value. -/
theorem exists_of_decodeEntries? {ms : Json.Members} {es : List (String × α)} (h : decodeEntries? ms = some es)
    {e : String × α} (he : e ∈ es) : ∃ j, decode? j = some e.2 := by
  induction ms generalizing es with
  | nil =>
    cases h
    cases he
  | cons m ms ih =>
    obtain ⟨name, j⟩ := m
    simp only [decodeEntries?, Option.bind_eq_bind, Option.bind_eq_some_iff, Option.pure_def, Option.some.injEq] at h
    obtain ⟨x, hx, xs, hxs, rfl⟩ := h
    rcases List.mem_cons.1 he with rfl | he
    · exact ⟨j, hx⟩
    · exact ih hxs he

theorem exists_of_decode?_dict {j : Json} {m : Dict α} (h : decode? j = some m) {e : String × α} (he : e ∈ m.toList) :
    ∃ j, decode? j = some e.2 := by
  obtain ⟨ms, -, hms⟩ := Option.bind_eq_some_iff.1 h
  obtain ⟨es, hes, rfl⟩ := Option.map_eq_some_iff.1 hms
  rcases SortedMap.mem_of_mem_insertMany he with he | he
  · cases he
  · exact exists_of_decodeEntries? hes he

variable [Lawful α]

@[simp] theorem ofRequired?_encode (a : α) : ofRequired? (some (encode a)) = some a := decode?_encode a

@[simp] theorem ofDefaulted?_encode [Inhabited α] (a : α) : ofDefaulted? (some (encode a)) = some a := decode?_encode a

@[simp] theorem ofLenient?_encode [Inhabited α] (a : α) : ofLenient? (some (encode a)) = some a := by
  have hn := encode_ne_null a
  have hd := decode?_encode a
  cases h : encode a with
  | null => exact absurd h hn
  | _ => rw [← hd, h]; rfl

@[simp] theorem ofOptional?_map_encode (a : Option α) : ofOptional? (a.map encode) = some a :=
  ofOptional?_map_of (fun x _ => decode?_encode x) encode_ne_null

instance : Lawful (List α) := ⟨fun _ => decode?_encode_list fun a _ => decode?_encode a, fun _ => nofun⟩

instance : Lawful (Dict α) := ⟨fun _ => decode?_encode_dict fun e _ => decode?_encode e.2, fun _ => nofun⟩

@[simp] theorem ofDefaulted?_items (as : List α) [Decidable (as = [])] :
    ofDefaulted? (if as = [] then none else some (encode as)) = some as :=
  ofDefaulted?_unless (decode?_encode as) id

@[simp] theorem ofDefaulted?_entries (as : Dict α) :
    ofDefaulted? (if as.isEmpty = true then none else some (encode as)) = some as :=
  ofDefaulted?_unless (decode?_encode as) fun h => SortedMap.ext_toList (List.isEmpty_iff.1 h)

end

/-! ### Plain values -/

instance : Lawful Bool := ⟨fun _ => rfl, fun _ => nofun⟩

instance : Lawful String := ⟨fun _ => rfl, fun _ => nofun⟩

@[simp] theorem ofDefaulted?_text (value : String) [Decidable (value = "")] :
    ofDefaulted? (if value = "" then none else some (.str value)) = some value :=
  ofDefaulted?_unless (decode?_encode value) id

instance : Lawful Int32 where
  decode?_encode i := by
    have h : fitsSigned 32 i.toInt = true := by
      have h1 := Int32.le_toInt i
      have h2 := Int32.toInt_lt i
      have hpow : Int.pow 2 (32 - 1) = 2147483648 := rfl
      simp only [fitsSigned, Bool.and_eq_true, decide_eq_true_eq]
      omega
    simp [encode, decode?, Json.int?, h]
  encode_ne_null _ := nofun

instance : Lawful Int64 where
  decode?_encode i := by
    have h : fitsSigned 64 i.toInt = true := by
      have h1 := Int64.le_toInt i
      have h2 := Int64.toInt_lt i
      have hpow : Int.pow 2 (64 - 1) = 9223372036854775808 := rfl
      simp only [fitsSigned, Bool.and_eq_true, decide_eq_true_eq]
      omega
    simp [encode, decode?, Json.int?, h]
  encode_ne_null _ := nofun

instance : Lawful Bytes where
  decode?_encode b := by
    simp [encode, decode?, Json.str?, Base64.decode?_encode]
  encode_ne_null _ := nofun

/-- A stamp is read back: it has no fraction and lies in the calendar. -/
instance : Lawful Stamp where
  decode?_encode s := by
    have h : s.instant.truncated.InCalendar := by
      rw [s.whole]
      exact s.inCalendar
    have hs : (⟨s.instant.truncated, s.instant.truncated_truncated, h⟩ : Stamp) = s := by
      cases s
      congr
    simp [encode, decode?, Json.str?, Rfc3339.decode?_encode s.inCalendar, Stamp.ofInstant?, h, hs]
  encode_ne_null _ := nofun

instance : Lawful IntOrString where
  decode?_encode
    | .int i => by
      have h := decode?_encode i
      simp only [encode, decode?] at h ⊢
      simp [h]
    | .string _ => rfl
  encode_ne_null
    | .int _ => nofun
    | .string _ => nofun

end Wire

end IngressOperator
