import IngressOperator.Text.Digits
import IngressOperator.Yaml.Cursor

/-!
# YAML scalars

The text of plain, quoted and block scalars. Between two lines of a plain or a quoted scalar a single line break becomes a
space, and more of them lose the first; a block scalar keeps its lines, or folds those that begin without a blank.
-/

namespace IngressOperator.Yaml

/-- The blanks and line breaks between two parts of a scalar. -/
structure Gap where
  blanks : List Char := []
  /-- Whether a line ends in the gap. -/
  broken : Bool := false
  /-- The first line break. -/
  first : List Char := []
  /-- All further line breaks. -/
  further : List Char := []
deriving DecidableEq

/-- Line breaks as they stand in the text: one is folded into a space, and of several the first is dropped. -/
def fold (first further : List Char) : List Char :=
  if first = ['\n'] then if further.isEmpty then [' '] else further else first ++ further

/-- The gap as it stands in the text. -/
def Gap.text (g : Gap) : List Char := if g.broken then fold g.first g.further else g.blanks

/-- Reads a gap on. In a plain scalar no tab may stand where a line is to be indented. -/
def readGap (tabLimit : Option Nat) : Nat → Gap → Cursor → Option (Gap × Cursor)
  | 0, g, c => some (g, c)
  | fuel + 1, g, c =>
    match c.peek 0 with
    | none => some (g, c)
    | some x =>
      if isBlank x then
        if g.broken then
          if x == '\t' && tabLimit.any (c.column < ·) then none else readGap tabLimit fuel g c.skip
        else readGap tabLimit fuel { g with blanks := g.blanks ++ [x] } c.skip
      else if isBreak x then
        let (b, c) := c.nextLine
        if g.broken then readGap tabLimit fuel { g with further := g.further ++ b } c
        else readGap tabLimit fuel { blanks := [], broken := true, first := b, further := g.further } c
      else some (g, c)

/-- A scalar, where the reading of it ends, and whether a line ended last. -/
structure Scanned where
  text : List Char
  cursor : Cursor
  lineEnded : Bool := false
deriving DecidableEq

/-! ### Plain scalars -/

/-- Whether a character ends a plain scalar within brackets. -/
def isFlowIndicator (c : Char) : Bool := c == ',' || c == '[' || c == ']' || c == '\x7b' || c == '\x7d'

/-- A run of characters of a plain scalar without blanks. -/
def plainRun (inFlow : Bool) : Nat → Cursor → Option (List Char × Cursor)
  | 0, c => some ([], c)
  | fuel + 1, c =>
    match c.peek 0 with
    | none => some ([], c)
    | some x =>
      if isBlank x || isBreak x then some ([], c)
      else if inFlow && x == ':' && (c.peek 1).any (fun y => y == '?' || isFlowIndicator y) then none
      else if (x == ':' && c.gapAt 1) || (inFlow && isFlowIndicator x) then some ([], c)
      else (plainRun inFlow fuel c.skip).map fun (run, c) => (x :: run, c)

/-- Reads a plain scalar on, after the text so far and the gap that follows it. -/
def readPlain (inFlow : Bool) (indent : Nat) : Nat → List Char → Gap → Cursor → Option Scanned
  | 0, _, _, _ => none
  | fuel + 1, text, gap, c =>
    if c.atDocumentMark || c.sees '#' 0 then some ⟨text, c, gap.broken⟩
    else do
      let (run, c) ← plainRun inFlow (c.rest.length + 1) c
      let (text, gap) := if run.isEmpty then (text, gap) else (text ++ gap.text ++ run, {})
      if c.onBlank || c.onBreak then
        let (gap, c) ← readGap (some indent) (c.rest.length + 1) gap c
        if !inFlow && c.column < indent then pure ⟨text, c, gap.broken⟩ else readPlain inFlow indent fuel text gap c
      else pure ⟨text, c, gap.broken⟩

/-! ### Quoted scalars -/

/-- The character of an escape that is one letter. -/
def escape? : Char → Option Char
  | '0' => some (Char.ofNat 0)
  | 'a' => some (Char.ofNat 7)
  | 'b' => some (Char.ofNat 8)
  | 't' => some '\t'
  | '\t' => some '\t'
  | 'n' => some '\n'
  | 'v' => some (Char.ofNat 11)
  | 'f' => some (Char.ofNat 12)
  | 'r' => some '\r'
  | 'e' => some (Char.ofNat 27)
  | ' ' => some ' '
  | '"' => some '"'
  | '/' => some '/'
  | '\\' => some '\\'
  | 'N' => some '\u0085'
  | '_' => some '\u00a0'
  | 'L' => some '\u2028'
  | 'P' => some '\u2029'
  | _ => none

/-- The number of hexadecimal digits after the letter of an escape. -/
def escapeLength : Char → Nat
  | 'x' => 2
  | 'u' => 4
  | 'U' => 8
  | _ => 0

/-- The value of a run of hexadecimal digits. -/
def hexValue? (cs : List Char) : Option Nat := cs.foldlM (fun n c => (Digits.hex? c).map (n * 16 + ·)) 0

/-- The character of an escape, read at its backslash. -/
def readEscape (c : Cursor) : Option (Char × Cursor) := do
  let letter ← c.peek 1
  let after := c.skip.skip
  match escape? letter with
  | some x => pure (x, after)
  | none =>
    let length := escapeLength letter
    let digits := after.rest.take length
    if length = 0 ∨ digits.length < length then none
    else
      let value ← hexValue? digits
      if (0xD800 ≤ value ∧ value ≤ 0xDFFF) ∨ 0x10FFFF < value then none
      else pure (Char.ofNat value, { after with rest := after.rest.drop length, index := after.index + length,
                                                column := after.column + length })

/-- A run of characters of a quoted scalar without blanks, and whether an escaped line end closes it. -/
def quotedRun (single : Bool) : Nat → Cursor → Option (List Char × Bool × Cursor)
  | 0, c => some ([], false, c)
  | fuel + 1, c =>
    match c.peek 0 with
    | none => some ([], false, c)
    | some x =>
      if isBlank x || isBreak x then some ([], false, c)
      else if single && x == '\'' && c.sees '\'' 1 then
        (quotedRun single fuel c.skip.skip).map fun (run, rest) => ('\'' :: run, rest)
      else if x == (if single then '\'' else '"') then some ([], false, c)
      else if !single && x == '\\' then
        if (c.peek 1).any isBreak then some ([], true, c.skip.nextLine.2)
        else do
          let (y, c) ← readEscape c
          let (run, rest) ← quotedRun single fuel c
          pure (y :: run, rest)
      else (quotedRun single fuel c.skip).map fun (run, rest) => (x :: run, rest)

/-- Reads a quoted scalar on, after its opening quote and the text so far. -/
def readQuoted (single : Bool) : Nat → List Char → Cursor → Option Scanned
  | 0, _, _ => none
  | fuel + 1, text, c =>
    if c.atDocumentMark || c.rest.isEmpty then none
    else do
      let (run, escaped, c) ← quotedRun single (c.rest.length + 1) c
      let text := text ++ run
      if c.sees (if single then '\'' else '"') 0 then pure ⟨text, c.skip, false⟩
      else
        let (gap, c) ← readGap none (c.rest.length + 1) { broken := escaped } c
        readQuoted single fuel (text ++ gap.text) c

/-! ### Block scalars -/

/-- What happens to the line breaks at the end of a block scalar. -/
inductive Chomp where
  | strip
  | clip
  | keep
deriving DecidableEq

/-- The sign that says so. -/
def chomp? (c : Cursor) : Option Chomp :=
  if c.sees '+' 0 then some .keep else if c.sees '-' 0 then some .strip else none

/-- The indentation that is written out: a digit other than zero. -/
def increment? (c : Cursor) : Option Nat := (c.peek 0).bind Digits.decimal?

/-- The signs after the indicator of a block scalar, in either order. -/
def blockHeader (c : Cursor) : Option (Chomp × Option Nat × Cursor) :=
  match chomp? c with
  | some chomp =>
    match increment? c.skip with
    | some 0 => none
    | some n => some (chomp, some n, c.skip.skip)
    | none => some (chomp, none, c.skip)
  | none =>
    match increment? c with
    | some 0 => none
    | some n =>
      match chomp? c.skip with
      | some chomp => some (chomp, some n, c.skip.skip)
      | none => some (.clip, some n, c.skip)
    | none => some (.clip, none, c)

/-- Skips indentation and empty lines: the line breaks, the widest indentation and where it ends. No tab may stand in the
indentation. -/
def blockBreaks (indent : Option Nat) : Nat → Nat → List Char → Cursor → Option (Nat × List Char × Cursor)
  | 0, _, _, _ => none
  | fuel + 1, widest, breaks, c =>
    let width := (c.rest.takeWhile (· == ' ')).length
    let spaces := match indent with
      | none => width
      | some n => min width (n - c.column)
    let c := { c with rest := c.rest.drop spaces, index := c.index + spaces, column := c.column + spaces }
    let widest := max widest c.column
    if c.sees '\t' 0 && indent.all (c.column < ·) then none
    else if c.onBreak then
      let (b, c) := c.nextLine
      blockBreaks indent fuel widest (breaks ++ b) c
    else some (widest, breaks, c)

/-- Reads the lines of a block scalar: the text so far, the last line break and the empty lines after it, and whether the last
line began with a blank. -/
def blockLines (folded : Bool) (indent : Nat) : Nat → List Char → List Char → List Char → Bool → Cursor →
    Option (List Char × List Char × List Char × Cursor)
  | 0, _, _, _, _, _ => none
  | fuel + 1, text, last, empty, blankLed, c =>
    if c.column != indent || c.rest.isEmpty then some (text, last, empty, c)
    else do
      let blank := c.onBlank
      let joint :=
        if folded && last == ['\n'] && !blankLed && !blank then if empty.isEmpty then [' '] else empty else last ++ empty
      let (line, c) := c.takeWhile fun x => !isBreak x
      let (last, c) := c.nextLine
      let (_, empty, c) ← blockBreaks (some indent) (c.rest.length + 1) 0 [] c
      blockLines folded indent fuel (text ++ joint ++ line) last empty blank c

/-- Reads a block scalar after its indicator; `parent` is the indentation of the block that holds it, if there is one. -/
def readBlock (folded : Bool) (parent : Option Nat) (c : Cursor) : Option Scanned := do
  let (chomp, increment, c) ← blockHeader c
  let c := c.skipComment
  if !c.atLineEnd then none
  else
    let c := c.nextLine.2
    let known := increment.map (parent.getD 0 + ·)
    let (widest, empty, c) ← blockBreaks known (c.rest.length + 1) 0 [] c
    let indent := known.getD (max widest (max ((parent.map (· + 1)).getD 0) 1))
    let (text, last, empty, c) ← blockLines folded indent (c.rest.length + 1) [] [] empty false c
    let text := match chomp with
      | .strip => text
      | .clip => text ++ last
      | .keep => text ++ last ++ empty
    pure ⟨text, c, true⟩

end IngressOperator.Yaml
