import IngressOperator.Json.Basic
import IngressOperator.Text.Digits

/-!
# Reading JSON

`Json.asWritten?` reads a text into a value whose objects list their members as the text does, repeated names included;
`Json.read?` brings the members of every object into key order, where the last one under a name stands. The reader is total:
every step on a nested value spends one unit of fuel and takes a character, and the text's length is fuel enough.
-/

namespace IngressOperator.Json

namespace Reader

/-- What follows leading blanks. -/
def skipBlanks (cs : List Char) : List Char := cs.dropWhile fun c => c == ' ' || c == '\t' || c == '\n' || c == '\r'

/-- What follows a given beginning. -/
def after? : List Char → List Char → Option (List Char)
  | [], cs => some cs
  | w :: ws, c :: cs => if w = c then after? ws cs else none
  | _ :: _, [] => none

/-- The value of four hexadecimal digits, and what follows them. -/
def hex4? : List Char → Option (Nat × List Char)
  | a :: b :: c :: d :: rest => do
    let a ← Digits.hex? a
    let b ← Digits.hex? b
    let c ← Digits.hex? c
    let d ← Digits.hex? d
    pure (((a * 16 + b) * 16 + c) * 16 + d, rest)
  | _ => none

/-- The character of a `\u` escape, read after the `u`; the two halves of a pair stand in two escapes. -/
def unicode? (cs : List Char) : Option (Char × List Char) := do
  let (high, rest) ← hex4? cs
  if 0xD800 ≤ high ∧ high < 0xDC00 then
    match rest with
    | '\\' :: 'u' :: rest => do
      let (low, rest) ← hex4? rest
      if 0xDC00 ≤ low ∧ low < 0xE000 then
        pure (Char.ofNat (0x10000 + (high - 0xD800) * 0x400 + (low - 0xDC00)), rest)
      else none
    | _ => none
  else if 0xDC00 ≤ high ∧ high < 0xE000 then none
  else pure (Char.ofNat high, rest)

/-- The character of an escape, read after the backslash. -/
def escape? : List Char → Option (Char × List Char)
  | '"' :: rest => some ('"', rest)
  | '\\' :: rest => some ('\\', rest)
  | '/' :: rest => some ('/', rest)
  | 'b' :: rest => some (Char.ofNat 8, rest)
  | 'f' :: rest => some (Char.ofNat 12, rest)
  | 'n' :: rest => some ('\n', rest)
  | 'r' :: rest => some ('\r', rest)
  | 't' :: rest => some ('\t', rest)
  | 'u' :: rest => unicode? rest
  | _ => none

/-- The rest of a string after its opening quote, up to and with the closing one; `done` is the part read, reversed. -/
def string? : Nat → List Char → List Char → Option (String × List Char)
  | 0, _, _ => none
  | _ + 1, _, [] => none
  | fuel + 1, done, c :: rest =>
    if c = '"' then some (String.ofList done.reverse, rest)
    else if c = '\\' then do
      let (c, rest) ← escape? rest
      string? fuel (c :: done) rest
    else if c.toNat < 0x20 then none
    else string? fuel (c :: done) rest

/-- Whether a run of digits may be the whole part of a number: it is not empty and has no leading zero. -/
def isWhole : List Char → Bool
  | [] => false
  | ['0'] => true
  | c :: _ => c != '0'

/-- The fraction digits of a number, if it has a point. -/
def fraction? : List Char → Option (List Char × List Char)
  | '.' :: rest =>
    let digits := rest.takeWhile Digits.isDigit
    if digits.isEmpty then none else some (digits, rest.dropWhile Digits.isDigit)
  | rest => some ([], rest)

/-- The digits of an exponent after its mark and sign. -/
def exponentDigits? (cs : List Char) : Option (Nat × List Char) :=
  (Digits.nat? (cs.takeWhile Digits.isDigit)).map fun n => (n, cs.dropWhile Digits.isDigit)

/-- The exponent of a number, if it has one. -/
def exponent? : List Char → Option (Option Int × List Char)
  | c :: rest =>
    if c = 'e' ∨ c = 'E' then
      match rest with
      | '-' :: rest => (exponentDigits? rest).map fun (n, rest) => (some (-(n : Int)), rest)
      | '+' :: rest => (exponentDigits? rest).map fun (n, rest) => (some (n : Int), rest)
      | rest => (exponentDigits? rest).map fun (n, rest) => (some (n : Int), rest)
    else some (none, c :: rest)
  | [] => some (none, [])

/-- A number without its sign, and what follows it. -/
def magnitude? (negative : Bool) (cs : List Char) : Option (Number × List Char) := do
  let whole := cs.takeWhile Digits.isDigit
  if !isWhole whole then none
  else
    let (fraction, rest) ← fraction? (cs.dropWhile Digits.isDigit)
    let (exponent, rest) ← exponent? rest
    let digits : Int := Digits.value (whole ++ fraction)
    let signed := if negative then -digits else digits
    let number :=
      if fraction.isEmpty ∧ exponent.isNone then
        if negative ∧ digits = 0 then .decimal 0 0 else .ofInt signed
      else .ofDecimal signed (exponent.getD 0 - fraction.length)
    pure (number, rest)

/-- A number, and what follows it. -/
def number? : List Char → Option (Number × List Char)
  | '-' :: rest => magnitude? true rest
  | rest => magnitude? false rest

/-- A name and the colon after it. -/
def name? (cs : List Char) : Option (String × List Char) :=
  match skipBlanks cs with
  | '"' :: rest => do
    let (name, rest) ← string? (rest.length + 1) [] rest
    match skipBlanks rest with
    | ':' :: rest => pure (name, rest)
    | _ => none
  | _ => none

mutual

/-- A value, and what follows it. -/
def value? : Nat → List Char → Option (Json × List Char)
  | 0, _ => none
  | fuel + 1, cs =>
    match skipBlanks cs with
    | [] => none
    | c :: rest =>
      match c with
      | '"' => (string? (rest.length + 1) [] rest).map fun (s, rest) => (.str s, rest)
      | '[' =>
        match skipBlanks rest with
        | ']' :: rest => some (.arr [], rest)
        | rest => (items? fuel rest).map fun (items, rest) => (.arr items, rest)
      | '\x7b' =>
        match skipBlanks rest with
        | '\x7d' :: rest => some (.obj [], rest)
        | rest => (members? fuel rest).map fun (members, rest) => (.obj members, rest)
      | 'n' => (after? "ull".toList rest).map fun rest => (.null, rest)
      | 't' => (after? "rue".toList rest).map fun rest => (.bool true, rest)
      | 'f' => (after? "alse".toList rest).map fun rest => (.bool false, rest)
      | c => (number? (c :: rest)).map fun (n, rest) => (.num n, rest)

/-- The items of an array up to and with its closing bracket. -/
def items? : Nat → List Char → Option (List Json × List Char)
  | 0, _ => none
  | fuel + 1, cs => do
    let (item, rest) ← value? fuel cs
    match skipBlanks rest with
    | ']' :: rest => pure ([item], rest)
    | ',' :: rest => do
      let (items, rest) ← items? fuel rest
      pure (item :: items, rest)
    | _ => none

/-- The members of an object up to and with its closing brace. -/
def members? : Nat → List Char → Option (List (String × Json) × List Char)
  | 0, _ => none
  | fuel + 1, cs => do
    let (name, rest) ← name? cs
    let (value, rest) ← value? fuel rest
    match skipBlanks rest with
    | '\x7d' :: rest => pure ([(name, value)], rest)
    | ',' :: rest => do
      let (members, rest) ← members? fuel rest
      pure ((name, value) :: members, rest)
    | _ => none

end

end Reader

/-- The value of a text, with the members of objects as written. -/
def asWritten? (cs : List Char) : Option Json := do
  let (j, rest) ← Reader.value? (2 * cs.length + 2) cs
  if (Reader.skipBlanks rest).isEmpty then pure j else none

mutual

/-- Brings the members of every object into key order; the last one under a name stands. -/
def ordered : Json → Json
  | .arr items => .arr (orderedItems items)
  | .obj members => object (orderedMembers members)
  | j => j

/-- Orders every value of a list. -/
def orderedItems : List Json → List Json
  | [] => []
  | j :: js => ordered j :: orderedItems js

/-- Orders the value of every member of a list. -/
def orderedMembers : List (String × Json) → List (String × Json)
  | [] => []
  | (name, j) :: js => (name, ordered j) :: orderedMembers js

end

/-- The value of a text. -/
def read? (text : String) : Option Json := (asWritten? text.toList).map ordered

end IngressOperator.Json
