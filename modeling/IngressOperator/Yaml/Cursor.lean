/-!
# Reading YAML by characters

The classes of characters that YAML tells apart, and a cursor that knows its line and column.
-/

namespace IngressOperator.Yaml

/-- Whether a character may stand in a document at all. -/
def isAllowed (c : Char) : Bool :=
  let n := c.toNat
  n == 0x09 || n == 0x0A || n == 0x0D || (0x20 ≤ n && n ≤ 0x7E) || n == 0x85 || (0xA0 ≤ n && n ≤ 0xD7FF)
    || (0xE000 ≤ n && n ≤ 0xFFFD && n != 0xFEFF) || 0x10000 ≤ n

/-- Whether a character is a space or a tab. -/
def isBlank (c : Char) : Bool := c == ' ' || c == '\t'

/-- Whether a character ends a line. -/
def isBreak (c : Char) : Bool := c == '\n' || c == '\r' || c == '\u0085' || c == '\u2028' || c == '\u2029'

/-- Whether a character may stand in a name. -/
def isName (c : Char) : Bool := c.isAlphanum || c == '_' || c == '-'

/-- A place in a text: what follows it, and how many characters, lines and columns come before it. -/
structure Cursor where
  rest : List Char
  index : Nat := 0
  line : Nat := 0
  column : Nat := 0
deriving DecidableEq

namespace Cursor

/-- The character that follows at a distance. -/
def peek (c : Cursor) (distance : Nat) : Option Char := c.rest[distance]?

/-- Whether the character at a distance is the given one. -/
def sees (c : Cursor) (char : Char) (distance : Nat) : Bool := c.peek distance == some char

/-- Whether the text ends at a distance, or a blank or the end of a line stands there. -/
def gapAt (c : Cursor) (distance : Nat) : Bool := (c.peek distance).all fun x => isBlank x || isBreak x

/-- Whether a space or a tab follows. -/
def onBlank (c : Cursor) : Bool := (c.peek 0).any isBlank

/-- Whether the end of a line follows. -/
def onBreak (c : Cursor) : Bool := (c.peek 0).any isBreak

/-- Whether the text ends or the end of a line follows. -/
def atLineEnd (c : Cursor) : Bool := (c.peek 0).all isBreak

/-- Past one character of a line. -/
def skip (c : Cursor) : Cursor :=
  match c.rest with
  | [] => c
  | _ :: rest => { c with rest := rest, index := c.index + 1, column := c.column + 1 }

/-- Past the end of a line, with the break as it stands in a scalar. -/
def nextLine (c : Cursor) : List Char × Cursor :=
  match c.rest with
  | '\r' :: '\n' :: rest => (['\n'], ⟨rest, c.index + 2, c.line + 1, 0⟩)
  | x :: rest =>
    if isBreak x then ([if x == '\u2028' || x == '\u2029' then x else '\n'], ⟨rest, c.index + 1, c.line + 1, 0⟩) else ([], c)
  | [] => ([], c)

/-- Past the characters of a class, which holds no line end, and these characters. -/
def takeWhile (p : Char → Bool) (c : Cursor) : List Char × Cursor :=
  let taken := c.rest.takeWhile p
  (taken, { c with rest := c.rest.drop taken.length, index := c.index + taken.length, column := c.column + taken.length })

/-- Past the characters of a class, which holds no line end. -/
def skipWhile (p : Char → Bool) (c : Cursor) : Cursor := (c.takeWhile p).2

/-- Past blanks and a comment up to the end of the line. -/
def skipComment (c : Cursor) : Cursor :=
  let c := c.skipWhile isBlank
  if c.sees '#' 0 then c.skipWhile fun x => !isBreak x else c

/-- Whether a line begins here with three of a character and a gap. -/
def marks (c : Cursor) (char : Char) : Bool :=
  c.column == 0 && c.sees char 0 && c.sees char 1 && c.sees char 2 && c.gapAt 3

/-- Whether a document begins or ends here. -/
def atDocumentMark (c : Cursor) : Bool := c.marks '-' || c.marks '.'

end Cursor

end IngressOperator.Yaml
