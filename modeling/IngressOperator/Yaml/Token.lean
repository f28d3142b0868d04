import IngressOperator.Yaml.Scalar

/-!
# YAML tokens

A text as a list of tokens. Where blocks begin and end is told by indentation. A key is only known as one when the colon after
it is met: every place at which a key may begin is remembered, one for each level of brackets, and the tokens that announce a
key are put in before it then. Such a key lies on one line and is at most 1024 characters long.
-/

namespace IngressOperator.Yaml

/-- The handle and the rest of a tag. -/
structure Tag where
  handle : List Char
  suffix : List Char
deriving DecidableEq

/-- A token. -/
inductive Token where
  | version (major minor : Nat)
  | tagHandle (handle : List Char)
  | documentStart
  | documentEnd
  | sequenceStart
  | mappingStart
  | blockEnd
  | bracketOpen
  | bracketClose
  | braceOpen
  | braceClose
  | entry
  | comma
  | key
  | value
  | reference (name : List Char)
  | anchor (name : List Char)
  | tag (tag : Tag)
  | scalar (text : List Char) (plain : Bool)
deriving DecidableEq

namespace Token

/-- A place at which a key may begin. -/
structure KeyPlace where
  /-- Whether nothing but a key may stand there. -/
  required : Bool
  /-- The number of tokens before it. -/
  number : Nat
  index : Nat
  line : Nat
  column : Nat
deriving DecidableEq

/-- What is known between two tokens. -/
structure Scan where
  cursor : Cursor
  /-- The tokens so far, the last one first. -/
  tokens : List Token := []
  /-- The columns at which the open blocks begin, the innermost first. -/
  indents : List Nat := []
  /-- For every open bracket, the innermost first, and for what is outside, where a key may have begun. -/
  keys : List (Option KeyPlace) := [none]
  /-- Whether a key may begin at the next token. -/
  keyAllowed : Bool := true
deriving DecidableEq

namespace Scan

/-- Whether the cursor is within brackets. -/
def inFlow (s : Scan) : Bool := 1 < s.keys.length

/-- The column at which the innermost block begins. -/
def indent (s : Scan) : Option Nat := s.indents.head?

/-- Adds a token. -/
def push (s : Scan) (t : Token) : Scan := { s with tokens := t :: s.tokens }

/-- Puts a token in after the given number of tokens. -/
def insertAt (s : Scan) (number : Nat) (t : Token) : Scan :=
  { s with tokens := s.tokens.insertIdx (s.tokens.length - number) t }

/-- The place at which a key may have begun on the innermost level. -/
def keyPlace (s : Scan) : Option KeyPlace := s.keys.head?.bind id

/-- Replaces that place. -/
def withKeyPlace (s : Scan) (k : Option KeyPlace) : Scan := { s with keys := k :: s.keys.tail }

/-- Gives up the place at which a key may have begun; there must not have to be one. -/
def dropKey? (s : Scan) : Option Scan :=
  if s.keyPlace.any (·.required) then none else some (s.withKeyPlace none)

/-- Remembers that a key may begin here. -/
def saveKey? (s : Scan) : Option Scan :=
  if s.keyAllowed then
    let c := s.cursor
    let required := !s.inFlow && s.indent == some c.column
    (s.dropKey?).map fun s => s.withKeyPlace (some ⟨required, s.tokens.length, c.index, c.line, c.column⟩)
  else some s

/-- Gives up the places that are on another line or too far back. -/
def staleKeys? (s : Scan) : Option Scan :=
  let isStale (k : KeyPlace) : Bool := k.line < s.cursor.line || k.index + 1024 < s.cursor.index
  if s.keys.any fun k => k.any fun k => isStale k && k.required then none
  else some { s with keys := s.keys.map fun k => k.filter fun k => !isStale k }

/-- Opens a block at a column if it lies deeper than the innermost one. -/
def openBlock (s : Scan) (column number : Nat) (t : Token) : Scan :=
  if s.inFlow || s.indent.any (column ≤ ·) then s
  else { s.insertAt number t with indents := column :: s.indents }

/-- Closes the blocks that begin after a column, or all of them. -/
def closeBlocks (s : Scan) (column : Option Nat) : Scan :=
  if s.inFlow then s
  else
    let closed := s.indents.takeWhile fun i => column.all (· < i)
    { s with tokens := closed.map (fun _ => blockEnd) ++ s.tokens, indents := s.indents.drop closed.length }

/-- Takes a number of characters as a token. -/
def take (s : Scan) (count : Nat) (t : Token) : Scan :=
  { s.push t with cursor := (List.range count).foldl (fun c _ => c.skip) s.cursor }

/-- Skips blanks, comments and line ends. -/
def skipGap : Nat → Scan → Scan
  | 0, s => s
  | fuel + 1, s =>
    let c := s.cursor.skipWhile fun x => x == ' ' || (x == '\t' && (s.inFlow || !s.keyAllowed))
    let c := if c.sees '#' 0 then c.skipWhile fun x => !isBreak x else c
    if c.onBreak then skipGap fuel { s with cursor := c.nextLine.2, keyAllowed := s.keyAllowed || !s.inFlow }
    else { s with cursor := c }

/-! ### Tokens of one character -/

/-- A bracket or brace that opens. -/
def openFlow? (s : Scan) (t : Token) : Option Scan :=
  s.saveKey?.map fun s => { s.take 1 t with keys := none :: s.keys, keyAllowed := true }

/-- A bracket or brace that closes. -/
def closeFlow? (s : Scan) (t : Token) : Option Scan :=
  s.dropKey?.map fun s => { s.take 1 t with keys := if s.inFlow then s.keys.tail else s.keys, keyAllowed := false }

/-- A comma. -/
def comma? (s : Scan) : Option Scan := s.dropKey?.map fun s => { s.take 1 comma with keyAllowed := true }

/-- The dash of an entry. -/
def entry? (s : Scan) : Option Scan :=
  if !s.inFlow && !s.keyAllowed then none
  else
    (s.openBlock s.cursor.column s.tokens.length sequenceStart).dropKey?.map fun s =>
      { s.take 1 entry with keyAllowed := true }

/-- The question mark of a key. -/
def key? (s : Scan) : Option Scan :=
  if !s.inFlow && !s.keyAllowed then none
  else
    (s.openBlock s.cursor.column s.tokens.length mappingStart).dropKey?.map fun s =>
      { s.take 1 key with keyAllowed := !s.inFlow }

/-- The colon before a value. -/
def value? (s : Scan) : Option Scan :=
  match s.keyPlace with
  | some k =>
    let s := (s.insertAt k.number key).openBlock k.column k.number mappingStart
    some { (s.withKeyPlace none).take 1 value with keyAllowed := false }
  | none =>
    if !s.inFlow && !s.keyAllowed then none
    else
      let s := s.openBlock s.cursor.column s.tokens.length mappingStart
      some { s.take 1 value with keyAllowed := !s.inFlow }

/-- The mark of a document. -/
def documentMark? (s : Scan) (t : Token) : Option Scan :=
  (s.closeBlocks none).dropKey?.map fun s => { s.take 3 t with keyAllowed := false }

/-! ### Directives -/

/-- A number of at most nine digits. -/
def number? (c : Cursor) : Option (Nat × Cursor) :=
  let (digits, after) := c.takeWhile Digits.isDigit
  if digits.isEmpty || 9 < digits.length then none else some (Digits.value digits, after)

/-- The handle of a tag; in a directive it ends in an exclamation mark. -/
def handle? (directive : Bool) (c : Cursor) : Option (List Char × Cursor) :=
  if c.sees '!' 0 then
    let (name, after) := c.skip.takeWhile isName
    if after.sees '!' 0 then some ('!' :: name ++ ['!'], after.skip)
    else if directive && !name.isEmpty then none
    else some ('!' :: name, after)
  else none

/-- The characters of a tag; `wide` allows those that end one within brackets. -/
def uri (wide : Bool) : Nat → Cursor → Option (List Char × Cursor)
  | 0, c => some ([], c)
  | fuel + 1, c =>
    match c.peek 0 with
    | none => some ([], c)
    | some '%' =>
      if (c.peek 1).any (fun x => (Digits.hex? x).isSome) && (c.peek 2).any fun x => (Digits.hex? x).isSome then
        (uri wide fuel c.skip.skip.skip).map fun (rest, c) => ('%' :: rest, c)
      else none
    | some x =>
      if isName x || ";/?:@&=+$.!~*'()".toList.contains x || (wide && ",[]".toList.contains x) then
        (uri wide fuel c.skip).map fun (rest, c) => (x :: rest, c)
      else some ([], c)

/-- The directive after a percent sign, without the rest of its line. -/
def directive? (c : Cursor) : Option (Token × Cursor) :=
  let (name, c) := c.skip.takeWhile isName
  if name = "YAML".toList ∧ c.gapAt 0 then do
    let (major, c) ← number? (c.skipWhile isBlank)
    if c.sees '.' 0 then
      let (minor, c) ← number? c.skip
      pure (version major minor, c)
    else none
  else if name = "TAG".toList ∧ c.gapAt 0 then do
    let (handle, c) ← handle? true (c.skipWhile isBlank)
    if c.onBlank then
      let c := c.skipWhile isBlank
      let (name, c) ← uri true (c.rest.length + 1) c
      if name.isEmpty || !c.gapAt 0 then none else pure (tagHandle handle, c)
    else none
  else none

/-- A directive with the rest of its line. -/
def directiveLine? (s : Scan) : Option Scan := do
  let s ← (s.closeBlocks none).dropKey?
  let (t, c) ← directive? s.cursor
  let c := c.skipComment
  if c.atLineEnd then pure { s.push t with cursor := c.nextLine.2, keyAllowed := false } else none

/-! ### Longer tokens -/

/-- A name after an ampersand or a star. -/
def name? (s : Scan) (t : List Char → Token) : Option Scan := do
  let s ← s.saveKey?
  let (name, c) := s.cursor.skip.takeWhile isName
  if name.isEmpty || !(c.gapAt 0 || (c.peek 0).any fun x => "?:,]\x7d%@\x60".toList.contains x) then none
  else pure { s.push (t name) with cursor := c, keyAllowed := false }

/-- A tag at an exclamation mark. -/
def readTag? (c : Cursor) : Option (Tag × Cursor) :=
  if c.sees '<' 1 then do
    let (suffix, c) ← uri true (c.rest.length + 1) c.skip.skip
    if suffix.isEmpty || !c.sees '>' 0 then none else pure (⟨[], suffix⟩, c.skip)
  else do
    let (handle, after) ← handle? false c
    if 1 < handle.length ∧ handle.getLast? = some '!' then
      let (suffix, after) ← uri false (c.rest.length + 1) after
      if suffix.isEmpty then none else pure (⟨handle, suffix⟩, after)
    else
      let (suffix, after) ← uri false (c.rest.length + 1) after
      let suffix := handle.drop 1 ++ suffix
      pure (if suffix.isEmpty then ⟨[], ['!']⟩ else ⟨['!'], suffix⟩, after)

/-- A tag. -/
def tag? (s : Scan) : Option Scan := do
  let s ← s.saveKey?
  let (t, c) ← readTag? s.cursor
  if c.gapAt 0 || (s.inFlow && c.sees ',' 0) then pure { s.push (tag t) with cursor := c, keyAllowed := false } else none

/-- A block scalar. -/
def block? (s : Scan) (folded : Bool) : Option Scan := do
  let s ← s.dropKey?
  let r ← readBlock folded s.indent s.cursor.skip
  pure { s.push (scalar r.text false) with cursor := r.cursor, keyAllowed := true }

/-- A quoted scalar. -/
def quoted? (s : Scan) (single : Bool) : Option Scan := do
  let s ← s.saveKey?
  let r ← readQuoted single (s.cursor.rest.length + 1) [] s.cursor.skip
  pure { s.push (scalar r.text false) with cursor := r.cursor, keyAllowed := false }

/-- A plain scalar. -/
def plain? (s : Scan) : Option Scan := do
  let s ← s.saveKey?
  let r ← readPlain s.inFlow ((s.indent.map (· + 1)).getD 0) (s.cursor.rest.length + 1) [] {} s.cursor
  pure { s.push (scalar r.text true) with cursor := r.cursor, keyAllowed := r.lineEnded }

/-- Whether a plain scalar may begin here. -/
def startsPlain (s : Scan) (x : Char) : Bool :=
  let c := s.cursor
  !(isBlank x || isBreak x || "-?:,[]\x7b\x7d#&*!|>'\"%@\x60".toList.contains x)
    || (x == '-' && !(c.peek 1).any isBlank)
    || (!s.inFlow && (x == '?' || x == ':') && !c.gapAt 1)

/-- The next token, at a character that is not skipped. -/
def next? (s : Scan) (x : Char) : Option Scan :=
  let c := s.cursor
  if c.column = 0 ∧ x = '%' then s.directiveLine?
  else if c.marks '-' then s.documentMark? documentStart
  else if c.marks '.' then s.documentMark? documentEnd
  else if x = '[' then s.openFlow? bracketOpen
  else if x = '\x7b' then s.openFlow? braceOpen
  else if x = ']' then s.closeFlow? bracketClose
  else if x = '\x7d' then s.closeFlow? braceClose
  else if x = ',' then s.comma?
  else if x = '-' ∧ c.gapAt 1 then s.entry?
  else if x = '?' ∧ (s.inFlow ∨ c.gapAt 1) then s.key?
  else if x = ':' ∧ (s.inFlow ∨ c.gapAt 1) then s.value?
  else if x = '*' then s.name? reference
  else if x = '&' then s.name? anchor
  else if x = '!' then s.tag?
  else if x = '|' ∧ !s.inFlow then s.block? false
  else if x = '>' ∧ !s.inFlow then s.block? true
  else if x = '\'' then s.quoted? true
  else if x = '"' then s.quoted? false
  else if s.startsPlain x then s.plain?
  else none

/-- All tokens up to the end of the text. -/
def run? : Nat → Scan → Option (List Token)
  | 0, _ => none
  | fuel + 1, s => do
    let s ← (s.skipGap (s.cursor.rest.length + 1)).staleKeys?
    let s := s.closeBlocks (some s.cursor.column)
    match s.cursor.peek 0 with
    | none => (s.closeBlocks none).dropKey?.map fun s => s.tokens.reverse
    | some x => s.next? x >>= run? fuel

end Scan

/-- The tokens of a text. -/
def scan? (cs : List Char) : Option (List Token) :=
  let cs := if cs.head? = some '\ufeff' then cs.tail else cs
  if cs.all isAllowed then Scan.run? (cs.length + 2) { cursor := { rest := cs } } else none

end Token

end IngressOperator.Yaml
