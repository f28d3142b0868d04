import IngressOperator.Json.Basic

/-!
# Wire forms

`Wire α` says how a value of a type stands in JSON. A record is written from its fields, where an absent one is left out, and
read member by member; what an absent or a null member means is said per member: `required?` refuses both, `defaulted?` takes
the default for an absent one, `lenient?` for both, and `optional?` reads both as no value. Members that a record does not know
are skipped.
-/

namespace IngressOperator

/-- The JSON form of the values of a type: how one is written, and which JSON is read as which value. -/
class Wire (α : Type) where
  /-- The written form of a value. -/
  encode : α → Json
  /-- The value that a JSON value stands for, if it stands for one. -/
  decode? : Json → Option α

namespace Wire

variable {α : Type} [Wire α]

/-! ### Members of a record -/

/-- A field that is always written. -/
def always (name : String) (value : α) : String × Option Json := (name, some (encode value))

/-- A field that is written if it has a value. -/
def present (name : String) (value : Option α) : String × Option Json := (name, value.map encode)

/-- A member that must be there. -/
def required? (members : Json.Members) (name : String) : Option α := (Entries.find? name members).bind decode?

/-- A member whose absence means the default. -/
def defaulted? [Inhabited α] (members : Json.Members) (name : String) : Option α :=
  match Entries.find? name members with
  | none => some default
  | some j => decode? j

/-- A member whose absence means the default, as does null. -/
def lenient? [Inhabited α] (members : Json.Members) (name : String) : Option α :=
  match Entries.find? name members with
  | none | some .null => some default
  | some j => decode? j

/-- A member that may be absent or null. -/
def optional? (members : Json.Members) (name : String) : Option (Option α) :=
  match Entries.find? name members with
  | none | some .null => some none
  | some j => (decode? j).map some

/-- The members of a record given as an object or as the list of its members in a fixed order. -/
def positional? (names : List String) : Json → Option Json.Members
  | .obj members => some members
  | .arr items =>
    if items.length ≤ names.length then some ((names.zip items).foldl (fun ms m => Entries.insert m.1 m.2 ms) []) else none
  | _ => none

/-- A member that, if it is there, must be the given text. -/
def fixed? (members : Json.Members) (name text : String) : Option Unit :=
  match Entries.find? name members with
  | none => some ()
  | some j => if j = .str text then some () else none

/-! ### Names of an enumeration -/

/-- The name of a constant: a text, or an object whose only member has that name and is null. -/
def constant? : Json → Option String
  | .str s => some s
  | .obj [(name, .null)] => some name
  | _ => none

/-! ### Values -/

instance : Wire Json := ⟨id, some⟩

instance : Wire Bool := ⟨.bool, Json.bool?⟩

instance : Wire String := ⟨.str, Json.str?⟩

/-- A text that is written unless it is empty. -/
def text (name value : String) : String × Option Json := (name, if value.isEmpty then none else some (.str value))

/-- Whether an integer fits in a signed word of the given width. -/
def fitsSigned (width : Nat) (i : Int) : Bool := -Int.pow 2 (width - 1) ≤ i && i < Int.pow 2 (width - 1)

instance : Wire Int32 where
  encode i := .num (.int i.toInt)
  decode? j := j.int?.bind fun i => if fitsSigned 32 i then some (Int32.ofInt i) else none

instance : Wire Int64 where
  encode i := .num (.int i.toInt)
  decode? j := j.int?.bind fun i => if fitsSigned 64 i then some (Int64.ofInt i) else none

/-- The natural number below a bound that a JSON value holds. -/
def natBelow? (bound : Nat) (j : Json) : Option Nat :=
  j.int?.bind fun i => if 0 ≤ i ∧ i < bound then some i.toNat else none

instance : Wire UInt16 where
  encode n := .nat n.toNat
  decode? j := (natBelow? UInt16.size j).map UInt16.ofNat

instance : Wire UInt64 where
  encode n := .nat n.toNat
  decode? j := (natBelow? UInt64.size j).map UInt64.ofNat

/-- Reads every item of a list. -/
def decodeItems? : List Json → Option (List α)
  | [] => some []
  | j :: js => do
    let a ← decode? j
    let as ← decodeItems? js
    pure (a :: as)

instance : Wire (List α) where
  encode as := .arr (as.map encode)
  decode? j := j.arr?.bind decodeItems?

/-- A list that is written unless it is empty. -/
def items (name : String) (values : List α) : String × Option Json :=
  (name, if values.isEmpty then none else some (encode values))

/-- Reads the value of every entry. -/
def decodeEntries? : Json.Members → Option (List (String × α))
  | [] => some []
  | (k, j) :: js => do
    let a ← decode? j
    let as ← decodeEntries? js
    pure ((k, a) :: as)

instance : Wire (Dict α) where
  encode m := .obj (m.toList.map fun e => (e.1, encode e.2))
  decode? j := j.members?.bind fun ms => (decodeEntries? ms).map SortedMap.ofList

/-- A map that is written unless it is empty. -/
def entries (name : String) (values : Dict α) : String × Option Json :=
  (name, if values.isEmpty then none else some (encode values))

end Wire

end IngressOperator
