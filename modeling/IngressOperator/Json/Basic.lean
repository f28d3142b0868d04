import IngressOperator.SortedMap

/-!
# JSON values

A JSON value as the operator sees it. The members of an object are listed in key order (`Json.object` builds such a list,
and so does the reader), so two objects that differ in the order of their members only are the same value. A whole number
in the range of a signed or an unsigned 64-bit word is an integer; any other number is a decimal fraction.

## Main statements

* `Json.beq_iff_eq`: the boolean comparison of two values is equality.
* `Json.find?_recordMembers`: a record shows exactly the fields that are present.
-/

namespace IngressOperator

/-- A JSON number: an integer of a 64-bit range, or `digits · 10 ^ exponent`. -/
inductive Number where
  | int (value : Int)
  | decimal (digits exponent : Int)
deriving DecidableEq, Inhabited

namespace Number

/-- Moves the trailing zeros of a decimal's digits into its exponent; `fuel` bounds their count. -/
def shiftZeros : Nat → Int → Int → Number
  | 0, digits, exponent => .decimal digits exponent
  | fuel + 1, digits, exponent =>
    if digits = 0 then .decimal 0 0
    else if digits % 10 = 0 then shiftZeros fuel (digits / 10) (exponent + 1)
    else .decimal digits exponent

/-- The decimal with the fewest digits of the given value. -/
def ofDecimal (digits exponent : Int) : Number := shiftZeros (digits.natAbs.log2 + 1) digits exponent

/-- The number of a whole value: an integer when a 64-bit word, signed or not, holds it. -/
def ofInt (value : Int) : Number :=
  if Int64.minValue.toInt ≤ value ∧ value < UInt64.size then .int value else ofDecimal value 0

end Number

/-- A JSON value; the members of an object stand in key order. -/
inductive Json where
  | null
  | bool (value : Bool)
  | num (value : Number)
  | str (value : String)
  | arr (items : List Json)
  | obj (members : List (String × Json))
deriving Inhabited

namespace Json

/-! ### Equality -/

mutual

/-- Whether two values are the same. -/
def beq : Json → Json → Bool
  | .null, .null => true
  | .bool a, .bool b => a == b
  | .num a, .num b => a == b
  | .str a, .str b => a == b
  | .arr a, .arr b => beqItems a b
  | .obj a, .obj b => beqMembers a b
  | _, _ => false

/-- Whether two lists of values are the same. -/
def beqItems : List Json → List Json → Bool
  | [], [] => true
  | a :: as, b :: bs => beq a b && beqItems as bs
  | _, _ => false

/-- Whether two lists of members are the same. -/
def beqMembers : List (String × Json) → List (String × Json) → Bool
  | [], [] => true
  | (j, a) :: as, (k, b) :: bs => j == k && (beq a b && beqMembers as bs)
  | _, _ => false

end

mutual

theorem beq_iff_eq : ∀ a b : Json, beq a b = true ↔ a = b
  | .null, b => by cases b <;> simp [beq]
  | .bool _, b => by cases b <;> simp [beq]
  | .num _, b => by cases b <;> simp [beq]
  | .str _, b => by cases b <;> simp [beq]
  | .arr as, b => by
    cases b with
    | arr bs => simpa [beq] using beqItems_iff_eq as bs
    | _ => simp [beq]
  | .obj as, b => by
    cases b with
    | obj bs => simpa [beq] using beqMembers_iff_eq as bs
    | _ => simp [beq]

theorem beqItems_iff_eq : ∀ as bs : List Json, beqItems as bs = true ↔ as = bs
  | [], bs => by cases bs <;> simp [beqItems]
  | a :: as, bs => by
    cases bs with
    | nil => simp [beqItems]
    | cons b bs => simp [beqItems, beq_iff_eq a b, beqItems_iff_eq as bs]

theorem beqMembers_iff_eq : ∀ as bs : List (String × Json), beqMembers as bs = true ↔ as = bs
  | [], bs => by cases bs <;> simp [beqMembers]
  | (j, a) :: as, bs => by
    cases bs with
    | nil => simp [beqMembers]
    | cons e bs =>
      obtain ⟨k, b⟩ := e
      simp [beqMembers, beq_iff_eq a b, beqMembers_iff_eq as bs, Prod.ext_iff, and_assoc]

end

instance : DecidableEq Json := fun a b => decidable_of_iff _ (beq_iff_eq a b)

/-! ### Objects -/

/-- The members of an object. -/
abbrev Members := List (String × Json)

/-- The object of a list of members; the last one under a name stands. -/
def object (members : Members) : Json := .obj (members.foldl (fun ms m => Entries.insert m.1 m.2 ms) [])

/-- The members of an object, and none of any other value. -/
def members? : Json → Option Members
  | .obj members => some members
  | _ => none

/-- The member of an object under a name. -/
def get? (name : String) (j : Json) : Option Json := j.members?.bind (Entries.find? name)

/-- The value reached through a path of member names. -/
def path? : List String → Json → Option Json
  | [], j => some j
  | name :: path, j => (j.get? name).bind (path? path)

/-- Puts a member into an object; any other value becomes an object of that member alone. -/
def set (j : Json) (name : String) (value : Json) : Json :=
  .obj (Entries.insert name value (j.members?.getD []))

@[simp] theorem get?_set_self {j : Json} {name : String} {value : Json} : (j.set name value).get? name = some value := by
  simp [set, get?, members?, Entries.find?_insert]

theorem get?_set_of_ne {ms : Members} {name name' : String} {value : Json} (h : name' ≠ name) :
    ((obj ms).set name value).get? name' = (obj ms).get? name' := by
  have hc : compare name' name ≠ .eq := fun e => h (Std.LawfulEqCmp.eq_of_compare e)
  simp [set, get?, members?, Entries.find?_insert, hc]

/-- The text of a string value. -/
def str? : Json → Option String
  | .str s => some s
  | _ => none

/-- The truth value of a boolean. -/
def bool? : Json → Option Bool
  | .bool b => some b
  | _ => none

/-- The value of an integer. -/
def int? : Json → Option Int
  | .num (.int i) => some i
  | _ => none

/-- The items of an array. -/
def arr? : Json → Option (List Json)
  | .arr items => some items
  | _ => none

/-- The number of a natural value. -/
def nat (n : Nat) : Json := .num (.int n)

/-! ### Regular values -/

mutual

/-- Whether all numbers of a value are integers of a 64-bit range and the members of all its objects stand in key order. -/
def isRegular : Json → Bool
  | .null | .bool _ | .str _ => true
  | .num (.int value) => Int64.minValue.toInt ≤ value && value < UInt64.size
  | .num (.decimal ..) => false
  | .arr items => areRegular items
  | .obj members => decide (Entries.Sorted members) && areMembersRegular members

/-- Whether all values of a list are regular. -/
def areRegular : List Json → Bool
  | [] => true
  | j :: js => isRegular j && areRegular js

/-- Whether the values of all members are regular. -/
def areMembersRegular : Members → Bool
  | [] => true
  | (_, j) :: members => isRegular j && areMembersRegular members

end

/-! ### Records -/

/-- The members of a record: the fields that are present, in key order. -/
def recordMembers : List (String × Option Json) → Members
  | [] => []
  | (name, some value) :: fields => Entries.insert name value (recordMembers fields)
  | (_, none) :: fields => recordMembers fields

/-- The object of the fields that are present. -/
def record (fields : List (String × Option Json)) : Json := .obj (recordMembers fields)

/-- What a list of fields holds under a name. -/
def field? (name : String) : List (String × Option Json) → Option Json
  | [] => none
  | (name', value) :: fields => if compare name name' = .eq then value <|> field? name fields else field? name fields

/-- A record shows under each name what its fields hold there. -/
theorem find?_recordMembers {name : String} {fields : List (String × Option Json)} :
    Entries.find? name (recordMembers fields) = field? name fields := by
  induction fields with
  | nil => rfl
  | cons x fields ih =>
    obtain ⟨name', value⟩ := x
    cases value with
    | none => by_cases h : compare name name' = .eq <;> simp [recordMembers, field?, h, ih]
    | some value =>
      simp only [recordMembers, field?, Entries.find?_insert, ih]
      by_cases h : compare name name' = .eq <;> simp [h]

theorem sorted_recordMembers {fields : List (String × Option Json)} : Entries.Sorted (recordMembers fields) := by
  induction fields with
  | nil => simp [recordMembers]
  | cons x fields ih =>
    obtain ⟨name, value⟩ := x
    cases value with
    | none => exact ih
    | some value => exact ih.insert

end Json

end IngressOperator
