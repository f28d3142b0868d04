/-!
# Blanks

White space as the Unicode property `White_Space` has it, and what is left of a text without the blanks, or without any other
class of characters, at its ends.

## Main statements

* `Text.dropEndWhile_append_of_all`: an ending of dropped characters does not matter.
-/

namespace IngressOperator.Text

/-- Whether a character is white space. -/
def isBlank (c : Char) : Bool :=
  let n := c.toNat
  (9 ≤ n && n ≤ 13) || n == 0x20 || n == 0x85 || n == 0xA0 || n == 0x1680 || (0x2000 ≤ n && n ≤ 0x200A)
    || n == 0x2028 || n == 0x2029 || n == 0x202F || n == 0x205F || n == 0x3000

/-- What is left without the longest ending of characters of a class. -/
def dropEndWhile (p : Char → Bool) (cs : List Char) : List Char := (cs.reverse.dropWhile p).reverse

/-- What is left without the blanks at both ends. -/
def trim (cs : List Char) : List Char := dropEndWhile isBlank (cs.dropWhile isBlank)

theorem dropEndWhile_append_of_all {p : Char → Bool} {cs ends : List Char} (h : ∀ c ∈ ends, p c = true) :
    dropEndWhile p (cs ++ ends) = dropEndWhile p cs := by
  unfold dropEndWhile
  rw [List.reverse_append, List.dropWhile_append_of_pos (by simpa using h)]

/-- The parts before and after the last occurrence of a character. -/
def splitLast? (sep : Char) : List Char → Option (List Char × List Char)
  | [] => none
  | c :: cs =>
    match splitLast? sep cs with
    | some (before, after) => some (c :: before, after)
    | none => if c = sep then some ([], cs) else none

/-- The parts before and after the first occurrence of a character. -/
def splitFirst? (sep : Char) : List Char → Option (List Char × List Char)
  | [] => none
  | c :: cs => if c = sep then some ([], cs) else (splitFirst? sep cs).map fun (before, after) => (c :: before, after)

/-- The parts between the occurrences of a character. -/
def splitAll (sep : Char) : List Char → List (List Char)
  | [] => [[]]
  | c :: cs =>
    if c = sep then [] :: splitAll sep cs
    else
      match splitAll sep cs with
      | [] => [[c]]
      | part :: parts => (c :: part) :: parts

end IngressOperator.Text
