import IngressOperator.Json.Printer
import IngressOperator.Json.Reader
import IngressOperator.Proofs.Time.Digits

/-!
# Texts that are read back

A value whose numbers are integers of a 64-bit range is read from its text as it was written, and then the members of its objects
are brought into key order. Each part of the text is read by the reader of that part up to the part after it: an escape stands for
one character, a quote ends a string, and what follows a number in a text cannot be taken for more of it. Every nested value is
shorter than what it stands in, so the length of a text is fuel enough.

## Main statements

* `Json.read?_of_prints`: a text of a value, with the members of its objects in whatever order, is read as that value.
-/

namespace IngressOperator

/-! ### Digits -/

namespace Digits

/-- The digits of a number but zero begin with one that is not zero. -/
theorem exists_ofNat_eq_cons {n : Nat} (h : 0 < n) : ∃ c cs, ofNat n = c :: cs ∧ c ≠ '0' := by
  induction n using Nat.strongRecOn with
  | ind n ih =>
    have hrepr : ofNat n = Nat.toDigits 10 n := by simp [ofNat]
    by_cases hlt : n < 10
    · have hdigit : ∀ k < 10, 0 < k → Nat.digitChar k ≠ '0' := by decide
      exact ⟨n.digitChar, [], by rw [hrepr, Nat.toDigits_of_lt_base hlt], hdigit n hlt h⟩
    · obtain ⟨c, cs, hc, hne⟩ := ih (n / 10) (by omega) (by omega)
      have hquot : ofNat (n / 10) = Nat.toDigits 10 (n / 10) := by simp [ofNat]
      refine ⟨c, cs ++ [(n % 10).digitChar], ?_, hne⟩
      rw [hrepr, Nat.toDigits_of_base_le (by omega) (by omega), ← hquot, hc, List.cons_append]

/-- The text of a number begins with a digit. -/
theorem exists_isDigit_ofNat (n : Nat) : ∃ c cs, ofNat n = c :: cs ∧ isDigit c = true := by
  cases hn : ofNat n with
  | nil => simp [ofNat] at hn
  | cons c cs => exact ⟨c, cs, rfl, isDigit_of_mem_ofNat (hn ▸ List.mem_cons_self)⟩

/-- A digit in lower case is read as its value. -/
theorem hex?_ofHex (n : Nat) : hex? (ofHex n) = some (n % 16) := by
  have h : ∀ k < 16, hex? (if k < 10 then Char.ofNat ('0'.toNat + k) else Char.ofNat ('a'.toNat + (k - 10))) = some k := by
    decide
  exact h (n % 16) (Nat.mod_lt _ (by decide))

end Digits

namespace Json

/-! ### Regular values -/

/-- A value all of whose numbers are integers of a 64-bit range, and all of whose objects have names that satisfy a condition. -/
inductive Regular (N : List String → Prop) : Json → Prop
  | null : Regular N .null
  | bool (b : Bool) : Regular N (.bool b)
  | int {i : Int} (h : Int64.minValue.toInt ≤ i ∧ i < UInt64.size) : Regular N (.num (.int i))
  | str (s : String) : Regular N (.str s)
  | arr {items : List Json} (h : ∀ j ∈ items, Regular N j) : Regular N (.arr items)
  | obj {members : Members} (hn : N (members.map Prod.fst)) (h : ∀ m ∈ members, Regular N m.2) : Regular N (.obj members)

theorem Regular.mono {N N' : List String → Prop} {j : Json} (h : j.Regular N) (hN : ∀ names, N names → N' names) :
    j.Regular N' := by
  induction h with
  | null => exact .null
  | bool b => exact .bool b
  | int h => exact .int h
  | str s => exact .str s
  | arr _ ih => exact .arr ih
  | obj hn _ ih => exact .obj (hN _ hn) ih

/-- The names of the members stand in key order. -/
def InOrder (names : List String) : Prop := names.Pairwise fun a b => compare a b = .lt

theorem InOrder.nodup {names : List String} (h : InOrder names) : names.Nodup :=
  h.imp fun hlt he => by simp [he] at hlt

mutual

/-- What is found to be regular is so, with the names in key order. -/
theorem regular_of_isRegular : ∀ j : Json, j.isRegular = true → j.Regular InOrder
  | .null, _ => .null
  | .bool b, _ => .bool b
  | .num (.int i), h => by
    simp only [isRegular, Bool.and_eq_true, decide_eq_true_eq] at h
    exact .int h
  | .num (.decimal ..), h => nomatch h
  | .str s, _ => .str s
  | .arr items, h => .arr (regular_of_areRegular items h)
  | .obj members, h => by
    simp only [isRegular, Bool.and_eq_true, decide_eq_true_eq] at h
    exact .obj (List.pairwise_map.2 h.1) (regular_of_areMembersRegular members h.2)

theorem regular_of_areRegular : ∀ js : List Json, areRegular js = true → ∀ j ∈ js, j.Regular InOrder
  | [], _ => nofun
  | j :: js, h => by
    simp only [areRegular, Bool.and_eq_true] at h
    exact List.forall_mem_cons.2 ⟨regular_of_isRegular j h.1, regular_of_areRegular js h.2⟩

theorem regular_of_areMembersRegular : ∀ ms : Members, areMembersRegular ms = true → ∀ m ∈ ms, m.2.Regular InOrder
  | [], _ => nofun
  | (name, j) :: ms, h => by
    simp only [areMembersRegular, Bool.and_eq_true] at h
    exact List.forall_mem_cons.2 ⟨regular_of_isRegular j h.1, regular_of_areMembersRegular ms h.2⟩

end

/-- The text of a value as it may be printed: no object has a name twice, but its members may stand in any order. -/
def Prints (text : String) (value : Json) : Prop := ∃ j : Json, j.Regular List.Nodup ∧ j.ordered = value ∧ text = j.text

namespace Printer

/-! ### Printed characters -/

/-- The characters of a string in quotes after the first quote. -/
def unquoted (s : String) : List Char := s.toList.flatMap escaped ++ ['"']

mutual

/-- The characters of the text of a value. -/
def chars : Json → List Char
  | .null => ['n', 'u', 'l', 'l']
  | .bool true => ['t', 'r', 'u', 'e']
  | .bool false => ['f', 'a', 'l', 's', 'e']
  | .num n => n.text.toList
  | .str s => '"' :: unquoted s
  | .arr [] => ['[', ']']
  | .arr (j :: js) => '[' :: (chars j ++ itemChars js)
  | .obj [] => ['\x7b', '\x7d']
  | .obj ((name, j) :: js) => '\x7b' :: '"' :: (unquoted name ++ ':' :: (chars j ++ memberChars js))

/-- The characters of the further items of an array and of its end. -/
def itemChars : List Json → List Char
  | [] => [']']
  | j :: js => ',' :: (chars j ++ itemChars js)

/-- The characters of the further members of an object and of its end. -/
def memberChars : List (String × Json) → List Char
  | [] => ['\x7d']
  | (name, j) :: js => ',' :: '"' :: (unquoted name ++ ':' :: (chars j ++ memberChars js))

end

theorem toList_quoted (s : String) : (quoted s).toList = '"' :: unquoted s := by
  simp [quoted, unquoted]

mutual

theorem toList_value (out : String) : ∀ j : Json, (value out j).toList = out.toList ++ chars j
  | .null => by simp [value, chars]
  | .bool true => by simp [value, chars]
  | .bool false => by simp [value, chars]
  | .num n => by simp [value, chars]
  | .str s => by simp [value, chars, toList_quoted]
  | .arr [] => by simp [value, chars]
  | .arr (j :: js) => by
    have hitems := toList_items (value (out ++ "[") j) js
    rw [toList_value _ j] at hitems
    simpa [value, chars] using hitems
  | .obj [] => by simp [value, chars]
  | .obj ((name, j) :: js) => by
    have hmembers := toList_members (value (out ++ "\x7b" ++ quoted name ++ ":") j) js
    rw [toList_value _ j] at hmembers
    simpa [value, chars, toList_quoted] using hmembers

theorem toList_items (out : String) : ∀ js : List Json, (items out js).toList ++ [']'] = out.toList ++ itemChars js
  | [] => by simp [items, itemChars]
  | j :: js => by
    rw [items, toList_items _ js, toList_value _ j]
    simp [itemChars]

theorem toList_members (out : String) :
    ∀ js : List (String × Json), (members out js).toList ++ ['\x7d'] = out.toList ++ memberChars js
  | [] => by simp [members, memberChars]
  | (name, j) :: js => by
    rw [members, toList_members _ js, toList_value _ j]
    simp [memberChars, toList_quoted]

end

end Printer

theorem toList_text (j : Json) : j.text.toList = Printer.chars j := by
  simpa [text] using Printer.toList_value "" j

namespace Reader

open Printer (escaped unquoted chars itemChars memberChars)

/-! ### Strings -/

theorem hex4?_control (rest : List Char) {n : Nat} (h : n < 0x20) :
    hex4? ('0' :: '0' :: Digits.ofHex (n / 16) :: Digits.ofHex n :: rest) = some (n, rest) := by
  have hzero : Digits.hex? '0' = some 0 := by decide
  have hvalue : ((0 * 16 + 0) * 16 + n / 16 % 16) * 16 + n % 16 = n := by omega
  simp only [hex4?, hzero, Digits.hex?_ofHex, Option.bind_eq_bind, Option.bind_some, Option.pure_def, hvalue]

/-- An escape is read as the character that it was written for. -/
theorem string?_escaped (fuel : Nat) (done rest : List Char) (c : Char) :
    string? (fuel + 1) done (escaped c ++ rest) = string? fuel (c :: done) rest := by
  unfold escaped
  split
  · simp [string?, escape?]
  · simp [string?, escape?]
  · simp [string?, escape?]
  · simp [string?, escape?]
  · simp [string?, escape?]
  · next hquote hback _ _ _ =>
    split
    · next h =>
      obtain rfl : Char.ofNat 8 = c := h ▸ Char.ofNat_toNat c
      simp [string?, escape?]
    · split
      · next h =>
        obtain rfl : Char.ofNat 12 = c := h ▸ Char.ofNat_toNat c
        simp [string?, escape?]
      · split
        · next h =>
          have hu : unicode? ('0' :: '0' :: Digits.ofHex (c.toNat / 16) :: Digits.ofHex c.toNat :: rest) = some (c, rest) := by
            have hhigh : ¬ (0xD800 ≤ c.toNat ∧ c.toNat < 0xDC00) := by omega
            have hlow : ¬ (0xDC00 ≤ c.toNat ∧ c.toNat < 0xE000) := by omega
            simp [unicode?, hex4?_control rest h, hhigh, hlow]
          simp [string?, escape?, hu]
        · next h =>
          rw [List.singleton_append, string?, if_neg hquote, if_neg hback, if_neg h]

/-- A string is read up to its closing quote. -/
theorem string?_unquoted {fuel : Nat} (done cs rest : List Char) (h : cs.length < fuel) :
    string? fuel done (cs.flatMap escaped ++ '"' :: rest) = some (String.ofList (done.reverse ++ cs), rest) := by
  induction cs generalizing fuel done with
  | nil =>
    obtain ⟨fuel, rfl⟩ : ∃ n, fuel = n + 1 := ⟨fuel - 1, by simp at h; omega⟩
    simp [string?]
  | cons c cs ih =>
    obtain ⟨fuel, rfl⟩ : ∃ n, fuel = n + 1 := ⟨fuel - 1, by simp at h; omega⟩
    rw [List.flatMap_cons, List.append_assoc, string?_escaped, ih (c :: done) (by simpa using h)]
    simp

theorem length_le_length_flatMap_escaped (cs : List Char) : cs.length ≤ (cs.flatMap escaped).length := by
  have hone : ∀ c, 1 ≤ (escaped c).length := by
    intro c
    unfold escaped
    grind
  induction cs with
  | nil => exact Nat.le_refl 0
  | cons c cs ih =>
    have hc := hone c
    simp only [List.flatMap_cons, List.length_append, List.length_cons]
    omega

/-- The rest of a string is long enough for it to be read. -/
theorem string?_unquoted_length (s : String) (rest : List Char) :
    string? ((unquoted s ++ rest).length + 1) [] (unquoted s ++ rest) = some (s, rest) := by
  have hlength : s.toList.length < (unquoted s ++ rest).length + 1 := by
    have hle := length_le_length_flatMap_escaped s.toList
    simp only [unquoted, List.length_append]
    omega
  have hstring := string?_unquoted [] s.toList rest hlength
  simpa [unquoted] using hstring

/-! ### Numbers -/

/-- What may follow a number: nothing that could be more of it. -/
def EndsNumber (rest : List Char) : Prop :=
  ∀ c ∈ rest.head?, Digits.isDigit c = false ∧ c ≠ '.' ∧ c ≠ 'e' ∧ c ≠ 'E'

theorem isWhole_ofNat (n : Nat) : isWhole (Digits.ofNat n) = true := by
  rcases Nat.eq_zero_or_pos n with rfl | hpos
  · decide
  · obtain ⟨c, cs, hc, hne⟩ := Digits.exists_ofNat_eq_cons hpos
    rw [hc, isWhole]
    · simpa using hne
    · rintro rfl
      exact absurd rfl hne

/-- The digits of a number are read up to what follows it. -/
theorem magnitude?_ofNat {n : Nat} {rest : List Char} (negative : Bool) (hr : EndsNumber rest) :
    magnitude? negative (Digits.ofNat n ++ rest) =
      some (if negative ∧ (n : Int) = 0 then .decimal 0 0 else .ofInt (if negative then -n else n), rest) := by
  have hdigits : ∀ c ∈ Digits.ofNat n, Digits.isDigit c = true := fun c hc => Digits.isDigit_of_mem_ofNat hc
  have hrun : (Digits.ofNat n ++ rest).takeWhile Digits.isDigit = Digits.ofNat n := by
    rw [List.takeWhile_append_of_pos hdigits]
    cases rest with
    | nil => simp
    | cons c cs => simp [(hr c rfl).1]
  have hrest : (Digits.ofNat n ++ rest).dropWhile Digits.isDigit = rest := by
    rw [List.dropWhile_append_of_pos hdigits]
    cases rest with
    | nil => simp
    | cons c cs => simp [(hr c rfl).1]
  have hfraction : fraction? rest = some ([], rest) := by
    unfold fraction?
    split
    · exact absurd rfl (hr '.' rfl).2.1
    · rfl
  have hexponent : exponent? rest = some (none, rest) := by
    cases rest with
    | nil => rfl
    | cons c cs =>
      obtain ⟨-, -, he, hE⟩ := hr c rfl
      unfold exponent?
      exact if_neg (by simp [he, hE])
  simp [magnitude?, hrun, hrest, hfraction, hexponent, isWhole_ofNat, Digits.value_ofNat]

/-- An integer of a 64-bit range is read up to what follows it. -/
theorem number?_int {i : Int} (h : Int64.minValue.toInt ≤ i ∧ i < UInt64.size) {rest : List Char} (hr : EndsNumber rest) :
    number? ((Number.int i).text.toList ++ rest) = some (.int i, rest) := by
  have hfits : Number.ofInt i = .int i := if_pos h
  cases i with
  | ofNat n =>
    obtain ⟨c, cs, hc, hdigit⟩ := Digits.exists_isDigit_ofNat n
    have htext : (Number.int (Int.ofNat n)).text.toList = c :: cs := hc
    have hmagnitude := magnitude?_ofNat (n := n) false hr
    simp only [Bool.false_eq_true, false_and, if_false, hc] at hmagnitude
    rw [htext, List.cons_append, number?]
    · exact hfits ▸ hmagnitude
    · intro rest' he
      cases he
      cases hdigit
  | negSucc n =>
    have htext : (Number.int (Int.negSucc n)).text.toList = '-' :: Digits.ofNat (n + 1) := by
      simp [Number.text, Digits.ofNat, Int.repr]
    have hmagnitude := magnitude?_ofNat (n := n + 1) true hr
    have hne : ¬ ((n + 1 : Nat) : Int) = 0 := by omega
    simp only [true_and, if_neg hne, if_true] at hmagnitude
    have hvalue : -((n + 1 : Nat) : Int) = Int.negSucc n := rfl
    rw [hvalue, hfits] at hmagnitude
    rw [htext, List.cons_append, number?, hmagnitude]

/-! ### Values -/

/-- A character that is no blank. -/
abbrev Solid (c : Char) : Prop := c ≠ ' ' ∧ c ≠ '\t' ∧ c ≠ '\n' ∧ c ≠ '\r'

/-- Nothing is skipped before a character that is no blank. -/
theorem skipBlanks_cons (c : Char) (cs : List Char) (h : Solid c) : skipBlanks (c :: cs) = c :: cs := by
  obtain ⟨h1, h2, h3, h4⟩ := h
  simp [skipBlanks, h1, h2, h3, h4]

/-- The text of an integer begins with a digit or a sign. -/
theorem exists_text_int_eq_cons (i : Int) :
    ∃ c cs, (Number.int i).text.toList = c :: cs ∧ (Digits.isDigit c = true ∨ c = '-') := by
  cases i with
  | ofNat n =>
    obtain ⟨c, cs, hc, hdigit⟩ := Digits.exists_isDigit_ofNat n
    exact ⟨c, cs, hc, .inl hdigit⟩
  | negSucc n => exact ⟨'-', Digits.ofNat (n + 1), by simp [Number.text, Digits.ofNat, Int.repr], .inr rfl⟩

theorem solid_of_isDigit {c : Char} (h : Digits.isDigit c = true ∨ c = '-') : Solid c ∧ c ≠ ']' := by
  refine ⟨⟨?_, ?_, ?_, ?_⟩, ?_⟩ <;> · rintro rfl; exact absurd h (by decide)

/-- What begins with a digit or a sign is read as a number. -/
theorem value?_number {c : Char} (fuel : Nat) (cs : List Char) (h : Digits.isDigit c = true ∨ c = '-') :
    value? (fuel + 1) (c :: cs) = (number? (c :: cs)).map fun (n, rest) => (.num n, rest) := by
  rw [value?, skipBlanks_cons c cs (solid_of_isDigit h).1]
  dsimp only
  split
  all_goals first | rfl | exact absurd h (by decide)

variable {N : List String → Prop}

/-- A value begins with a character that is neither a blank nor the end of an array. -/
theorem exists_chars_eq_cons {j : Json} (h : j.Regular N) : ∃ c cs, chars j = c :: cs ∧ Solid c ∧ c ≠ ']' := by
  cases h with
  | null => exact ⟨_, _, rfl, by decide⟩
  | bool b => cases b <;> exact ⟨_, _, rfl, by decide⟩
  | int h =>
    obtain ⟨c, cs, hc, hdigit⟩ := exists_text_int_eq_cons _
    exact ⟨c, cs, by rw [chars, hc], solid_of_isDigit hdigit⟩
  | str s => exact ⟨_, _, by rw [chars], by decide⟩
  | @arr items h => cases items <;> exact ⟨_, _, by rw [chars], by decide⟩
  | @obj members hn h => cases members <;> exact ⟨_, _, by rw [chars], by decide⟩

/-- Whether a value is read from its text, up to what follows it, wherever the fuel is more than the text is long. -/
def ReadsBack (j : Json) : Prop :=
  ∀ fuel rest, (chars j).length ≤ fuel → EndsNumber rest → value? (fuel + 1) (chars j ++ rest) = some (j, rest)

theorem endsNumber_itemChars (js : List Json) (rest : List Char) : EndsNumber (itemChars js ++ rest) := by
  intro c hc
  cases js <;> · rw [itemChars] at hc; cases hc; decide

theorem endsNumber_memberChars (ms : Members) (rest : List Char) : EndsNumber (memberChars ms ++ rest) := by
  intro c hc
  cases ms <;> · rw [memberChars] at hc; cases hc; decide

/-- The items of an array are read one after the other. -/
theorem items?_chars (fuel : Nat) {j : Json} {js : List Json} (rest : List Char) (h : ∀ x ∈ j :: js, ReadsBack x)
    (hfuel : (chars j ++ itemChars js).length ≤ fuel) :
    items? (fuel + 1) (chars j ++ (itemChars js ++ rest)) = some (j :: js, rest) := by
  have hitem := h j List.mem_cons_self
  have hends := endsNumber_itemChars js rest
  induction js generalizing fuel j with
  | nil =>
    obtain ⟨fuel, rfl⟩ : ∃ n, fuel = n + 1 := Nat.exists_eq_add_one.2 (by simp [itemChars] at hfuel; omega)
    rw [items?, hitem fuel _ (by simpa [itemChars] using hfuel) hends]
    simp [itemChars, skipBlanks_cons ']' rest (by decide)]
  | cons j' js ih =>
    simp only [List.length_append, itemChars, List.length_cons] at hfuel
    obtain ⟨fuel, rfl⟩ : ∃ n, fuel = n + 1 := Nat.exists_eq_add_one.2 (by omega)
    have hrest := ih fuel (fun x hx => h x (List.mem_cons_of_mem j hx)) (by simp only [List.length_append]; omega)
      (h j' (List.mem_cons_of_mem j List.mem_cons_self)) (endsNumber_itemChars js rest)
    rw [items?, hitem fuel _ (by omega) hends]
    simp [itemChars, skipBlanks_cons ',' _ (by decide), hrest]

/-- A name is read up to the value after it. -/
theorem name?_unquoted (name : String) (rest : List Char) :
    name? ('"' :: (unquoted name ++ ':' :: rest)) = some (name, rest) := by
  rw [name?, skipBlanks_cons '"' _ (by decide)]
  simp only [string?_unquoted_length, Option.bind_eq_bind, Option.bind_some, skipBlanks_cons ':' rest (by decide),
    Option.pure_def]

/-- The members of an object are read one after the other. -/
theorem members?_chars (fuel : Nat) {name : String} {j : Json} {ms : Members} (rest : List Char)
    (h : ∀ m ∈ (name, j) :: ms, ReadsBack m.2) (hfuel : (chars j ++ memberChars ms).length ≤ fuel) :
    members? (fuel + 1) ('"' :: (unquoted name ++ ':' :: (chars j ++ (memberChars ms ++ rest)))) =
      some ((name, j) :: ms, rest) := by
  have hvalue : ReadsBack j := h (name, j) List.mem_cons_self
  have hends := endsNumber_memberChars ms rest
  induction ms generalizing fuel name j with
  | nil =>
    obtain ⟨fuel, rfl⟩ : ∃ n, fuel = n + 1 := Nat.exists_eq_add_one.2 (by simp [memberChars] at hfuel; omega)
    rw [members?, name?_unquoted]
    simp only [Option.bind_eq_bind, Option.bind_some, hvalue fuel _ (by simpa [memberChars] using hfuel) hends]
    simp [memberChars, skipBlanks_cons '\x7d' rest (by decide)]
  | cons m ms ih =>
    obtain ⟨name', j'⟩ := m
    simp only [List.length_append, memberChars, List.length_cons] at hfuel
    obtain ⟨fuel, rfl⟩ : ∃ n, fuel = n + 1 := Nat.exists_eq_add_one.2 (by omega)
    have hrest := ih fuel (fun x hx => h x (List.mem_cons_of_mem _ hx)) (by simp only [List.length_append]; omega)
      (h (name', j') (List.mem_cons_of_mem _ List.mem_cons_self)) (endsNumber_memberChars ms rest)
    rw [members?, name?_unquoted]
    simp only [Option.bind_eq_bind, Option.bind_some, hvalue fuel _ (by omega) hends]
    simp [memberChars, skipBlanks_cons ',' _ (by decide), hrest]

/-- A regular value is read from its text. -/
theorem readsBack {j : Json} (h : j.Regular N) : ReadsBack j := by
  induction h with
  | null =>
    intro fuel rest _ _
    simp [chars, value?, skipBlanks_cons 'n' _ (by decide), after?]
  | bool b =>
    intro fuel rest _ _
    cases b with
    | true => simp [chars, value?, skipBlanks_cons 't' _ (by decide), after?]
    | false => simp [chars, value?, skipBlanks_cons 'f' _ (by decide), after?]
  | @int i hi =>
    intro fuel rest _ hr
    obtain ⟨c, cs, hc, hdigit⟩ := exists_text_int_eq_cons i
    have hnumber := number?_int hi hr
    rw [hc] at hnumber
    rw [chars, hc, List.cons_append, value?_number fuel _ hdigit, ← List.cons_append, hnumber]
    rfl
  | str s =>
    intro fuel rest _ _
    rw [chars, List.cons_append, value?, skipBlanks_cons '"' _ (by decide)]
    simp only [string?_unquoted_length, Option.map_some]
  | @arr items h ih =>
    intro fuel rest hfuel _
    cases items with
    | nil => simp [chars, value?, skipBlanks_cons '[' _ (by decide), skipBlanks_cons ']' _ (by decide)]
    | cons j js =>
      simp only [chars, List.length_cons] at hfuel
      obtain ⟨fuel, rfl⟩ : ∃ n, fuel = n + 1 := Nat.exists_eq_add_one.2 (by omega)
      have hitems := items?_chars fuel rest ih (by omega)
      obtain ⟨c, cs, hc, hsolid, hne⟩ := exists_chars_eq_cons (h j List.mem_cons_self)
      rw [hc, List.cons_append] at hitems
      rw [chars, List.cons_append, value?, skipBlanks_cons '[' _ (by decide), List.append_assoc, hc, List.cons_append]
      simp only [skipBlanks_cons c _ hsolid]
      split
      · next he => exact absurd (List.cons.inj he).1 hne
      · rw [hitems]
        rfl
  | @obj members _ h ih =>
    intro fuel rest hfuel _
    cases members with
    | nil => simp [chars, value?, skipBlanks_cons '\x7b' _ (by decide), skipBlanks_cons '\x7d' _ (by decide)]
    | cons m ms =>
      obtain ⟨name, j⟩ := m
      simp only [chars, List.length_cons, List.length_append] at hfuel
      obtain ⟨fuel, rfl⟩ : ∃ n, fuel = n + 1 := Nat.exists_eq_add_one.2 (by omega)
      have hmembers := members?_chars fuel rest ih (by simp only [List.length_append]; omega)
      rw [chars, List.cons_append, value?, skipBlanks_cons '\x7b' _ (by decide)]
      simp only [List.cons_append, List.append_assoc, skipBlanks_cons '"' _ (by decide)]
      exact congrArg (Option.map fun p => (obj p.1, p.2)) hmembers

end Reader

/-! ### Texts -/

/-- A regular value is read from its text with the members as written. -/
theorem asWritten?_text {N : List String → Prop} {j : Json} (h : j.Regular N) : asWritten? j.text.toList = some j := by
  have hvalue := Reader.readsBack h (2 * (Printer.chars j).length + 1) [] (by omega) (by simp [Reader.EndsNumber])
  rw [List.append_nil] at hvalue
  rw [asWritten?, toList_text, hvalue]
  rfl

/-! ### Ordering -/

theorem orderedItems_eq_map (js : List Json) : orderedItems js = js.map ordered := by
  induction js with
  | nil => rfl
  | cons j js ih => rw [orderedItems, ih, List.map_cons]

theorem orderedMembers_eq_map (ms : Members) : orderedMembers ms = ms.map fun m => (m.1, m.2.ordered) := by
  induction ms with
  | nil => rfl
  | cons m ms ih => rw [orderedMembers, ih, List.map_cons]

/-- The members of an object are a map of its members. -/
theorem object_eq_ofList (ms : Members) : object ms = .obj (SortedMap.ofList ms).toList := by
  have hfold : ms.foldl (fun ms m => Entries.insert m.1 m.2 ms) (∅ : Dict Json).toList = (SortedMap.ofList ms).toList :=
    List.foldl_hom SortedMap.toList fun _ _ => rfl
  rw [object, ← hfold]
  rfl

/-- Nothing is moved where the members of every object stand in key order. -/
theorem Regular.ordered_eq {j : Json} (h : j.Regular InOrder) : j.ordered = j := by
  induction h with
  | @arr items _ ih =>
    have hitems : items.map ordered = items := (List.map_congr_left ih).trans (List.map_id items)
    rw [ordered, orderedItems_eq_map, hitems]
  | @obj members hn _ ih =>
    have hmember : ∀ m ∈ members, (m.1, m.2.ordered) = id m := fun m hm => Prod.ext rfl (ih m hm)
    have hmembers := (List.map_congr_left hmember).trans (List.map_id members)
    have hsorted : Entries.Sorted members := List.pairwise_map.1 hn
    have hmap := congrArg SortedMap.toList (SortedMap.ofList_toList ⟨members, hsorted⟩)
    rw [ordered, orderedMembers_eq_map, hmembers, object_eq_ofList, hmap]
  | _ => rfl

/-- A text of a value is read as that value, with the members of its objects in whatever order. -/
theorem read?_of_prints {text : String} {value : Json} (h : Prints text value) : read? text = some value := by
  obtain ⟨j, hj, rfl, rfl⟩ := h
  rw [read?, asWritten?_text hj, Option.map_some]

/-- A value whose objects list their members in key order has its own text for a text. -/
theorem Regular.prints {j : Json} (h : j.Regular InOrder) : Prints j.text j :=
  ⟨j, h.mono fun _ => InOrder.nodup, h.ordered_eq, rfl⟩

end Json

end IngressOperator
