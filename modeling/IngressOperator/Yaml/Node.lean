import IngressOperator.Yaml.Token

/-!
# YAML documents

The one document of a text as a tree of nodes. A node that is named by an anchor may stand again wherever its alias does, even
within itself; aliases are therefore kept in the tree, and `Document.resolve` follows one.
-/

namespace IngressOperator.Yaml

/-- A node of a document. -/
inductive Node where
  | scalar (text : String) (plain : Bool)
  | sequence (items : List Node)
  | mapping (entries : List (Node × Node))
  | reference (number : Nat)
deriving Inhabited

namespace Node

/-- The node that stands where nothing is written. -/
def empty : Node := scalar "" true

/-- What is known while a document is read. -/
structure Reading where
  /-- The tokens that follow. -/
  tokens : List Token
  /-- The tag handles that are declared. -/
  handles : List (List Char) := [['!'], ['!', '!']]
  /-- The names of anchors, each with the number of its latest node. -/
  names : List (List Char × Nat) := []
  /-- How many anchors were met. -/
  anchors : Nat := 0
  /-- The nodes with anchors: number, order of appearance, and the node. -/
  named : List (Nat × Nat × Node) := []

/-- Without the next token. -/
def Reading.skip (r : Reading) : Reading := { r with tokens := r.tokens.tail }

/-- The next token. -/
def Reading.next (r : Reading) : Option Token := r.tokens.head?

/-- Whether one of the given tokens comes next. -/
def Reading.sees (r : Reading) (ts : List Token) : Bool := r.next.any ts.contains

/-- Gives a name to the next node: its number counts the names before it. -/
def Reading.name (r : Reading) (name : List Char) : Nat × Nat × Reading :=
  let number := r.names.length
  (number, r.anchors, { r with names := (name, number) :: r.names.filter (·.1 != name), anchors := r.anchors + 1 })

/-- Anchor and tag before a node, in either order. -/
def properties? (r : Reading) : Option (Option (List Char) × Bool × Reading) :=
  let declared (t : Tag) : Bool := t.handle.isEmpty || r.handles.contains t.handle
  match r.tokens with
  | .anchor a :: .tag t :: rest => if declared t then some (some a, true, { r with tokens := rest }) else none
  | .tag t :: .anchor a :: rest => if declared t then some (some a, true, { r with tokens := rest }) else none
  | .anchor a :: rest => some (some a, true, { r with tokens := rest })
  | .tag t :: rest => if declared t then some (none, true, { r with tokens := rest }) else none
  | _ => some (none, false, r)

mutual

/-- A node. Blocks may begin where `block` says so, and a sequence without indentation where `indentless` does. -/
def node? : Nat → Bool → Bool → Reading → Option (Node × Reading)
  | 0, _, _, _ => none
  | fuel + 1, block, indentless, r =>
    match r.next with
    | some (.reference name) => (r.names.find? (·.1 == name)).map fun n => (reference n.2, r.skip)
    | _ => do
      let (anchor, marked, r) ← properties? r
      match anchor with
      | none => content? fuel block indentless marked r
      | some name =>
        let (number, order, r) := r.name name
        let (n, r) ← content? fuel block indentless marked r
        pure (n, { r with named := (number, order, n) :: r.named })

/-- A node after its anchor and tag; with one of them it may be empty. -/
def content? : Nat → Bool → Bool → Bool → Reading → Option (Node × Reading)
  | 0, _, _, _, _ => none
  | fuel + 1, block, indentless, marked, r =>
    match r.next with
    | some .entry =>
      if indentless then (indentless? fuel r).map fun (ns, r) => (sequence ns, r)
      else if marked then some (empty, r) else none
    | some (.scalar text plain) => some (scalar (String.ofList text) plain, r.skip)
    | some .bracketOpen => (bracketItems? fuel true r.skip).map fun (ns, r) => (sequence ns, r)
    | some .braceOpen => (braceEntries? fuel true r.skip).map fun (es, r) => (mapping es, r)
    | some .sequenceStart =>
      if block then (items? fuel r.skip).map fun (ns, r) => (sequence ns, r)
      else if marked then some (empty, r) else none
    | some .mappingStart =>
      if block then (entries? fuel r.skip).map fun (es, r) => (mapping es, r)
      else if marked then some (empty, r) else none
    | _ => if marked then some (empty, r) else none

/-- A node, or the empty one where one of the given tokens follows. -/
def nodeUnless? : Nat → Bool → Bool → List Token → Reading → Option (Node × Reading)
  | 0, _, _, _, _ => none
  | fuel + 1, block, indentless, ends, r => if r.sees ends then some (empty, r) else node? fuel block indentless r

/-- The items of a block sequence up to its end. -/
def items? : Nat → Reading → Option (List Node × Reading)
  | 0, _ => none
  | fuel + 1, r =>
    match r.next with
    | some .entry => do
      let (n, r) ← nodeUnless? fuel true false [.entry, .blockEnd] r.skip
      let (ns, r) ← items? fuel r
      pure (n :: ns, r)
    | some .blockEnd => some ([], r.skip)
    | _ => none

/-- The items of a sequence without indentation. -/
def indentless? : Nat → Reading → Option (List Node × Reading)
  | 0, _ => none
  | fuel + 1, r =>
    match r.next with
    | some .entry => do
      let (n, r) ← nodeUnless? fuel true false [.entry, .key, .value, .blockEnd] r.skip
      let (ns, r) ← indentless? fuel r
      pure (n :: ns, r)
    | _ => some ([], r)

/-- The entries of a block mapping up to its end. -/
def entries? : Nat → Reading → Option (List (Node × Node) × Reading)
  | 0, _ => none
  | fuel + 1, r =>
    match r.next with
    | some .key => do
      let (k, r) ← nodeUnless? fuel true true [.key, .value, .blockEnd] r.skip
      let (v, r) ←
        if r.sees [.value] then nodeUnless? fuel true true [.key, .value, .blockEnd] r.skip else some (empty, r)
      let (es, r) ← entries? fuel r
      pure ((k, v) :: es, r)
    | some .blockEnd => some ([], r.skip)
    | _ => none

/-- The items between brackets; an item with a colon is a mapping of one entry. -/
def bracketItems? : Nat → Bool → Reading → Option (List Node × Reading)
  | 0, _, _ => none
  | fuel + 1, first, r =>
    if r.sees [.bracketClose] then some ([], r.skip)
    else do
      let r ← if first then some r else if r.sees [.comma] then some r.skip else none
      match r.next with
      | some .bracketClose => pure ([], r.skip)
      | some .key =>
        let r := r.skip
        let (k, r) ← if r.sees [.value, .comma, .bracketClose] then some (empty, r.skip) else node? fuel false false r
        let (v, r) ←
          if r.sees [.value] then nodeUnless? fuel false false [.comma, .bracketClose] r.skip else some (empty, r)
        let (ns, r) ← bracketItems? fuel false r
        pure (mapping [(k, v)] :: ns, r)
      | _ =>
        let (n, r) ← node? fuel false false r
        let (ns, r) ← bracketItems? fuel false r
        pure (n :: ns, r)

/-- The entries between braces. -/
def braceEntries? : Nat → Bool → Reading → Option (List (Node × Node) × Reading)
  | 0, _, _ => none
  | fuel + 1, first, r =>
    if r.sees [.braceClose] then some ([], r.skip)
    else do
      let r ← if first then some r else if r.sees [.comma] then some r.skip else none
      match r.next with
      | some .braceClose => pure ([], r.skip)
      | some .key =>
        let (k, r) ← nodeUnless? fuel false false [.value, .comma, .braceClose] r.skip
        let (v, r) ←
          if r.sees [.value] then nodeUnless? fuel false false [.comma, .braceClose] r.skip else some (empty, r)
        let (es, r) ← braceEntries? fuel false r
        pure ((k, v) :: es, r)
      | _ =>
        let (k, r) ← node? fuel false false r
        let (es, r) ← braceEntries? fuel false r
        pure ((k, empty) :: es, r)

end

end Node

/-- A document: its node, if it has one, and the nodes that aliases stand for. -/
structure Document where
  root : Option Node
  named : List (Nat × Nat × Node) := []

namespace Document

open Node (Reading)

/-- The directives before a document: at most one version, which must be known, and no handle twice. -/
def directives? : List Token → Bool → List (List Char) → Option (List (List Char) × List Token)
  | .version major minor :: ts, seen, handles =>
    if seen ∨ major ≠ 1 ∨ (minor ≠ 1 ∧ minor ≠ 2) then none else directives? ts true handles
  | .tagHandle h :: ts, seen, handles => if handles.contains h then none else directives? ts seen (h :: handles)
  | ts, _, handles => some (handles, ts)

/-- The content of a document that begins with a mark: nothing if the document ends at once. -/
def marked? (r : Reading) : Option (Node × Reading) :=
  match r.tokens with
  | [] | .version _ _ :: _ | .tagHandle _ :: _ | .documentStart :: _ | .documentEnd :: _ => some (Node.empty, r)
  | ts => Node.node? (8 * ts.length + 8) true false r

/-- The content of a document; without a mark it has no directives. -/
def content? (r : Reading) (directives : Bool) : Option (Node × Reading) :=
  match r.tokens with
  | .documentStart :: ts => marked? { r with tokens := ts }
  | ts => if directives then none else Node.node? (8 * ts.length + 8) true false r

/-- The document of a list of tokens, where no second one may follow. -/
def ofTokens? (tokens : List Token) : Option Document :=
  if tokens.isEmpty then some ⟨none, []⟩
  else do
    let (handles, ts) ← directives? tokens false []
    let (n, r) ← content? { tokens := ts, handles := handles ++ [['!'], ['!', '!']] } (ts.length != tokens.length)
    if r.tokens.all (· == .documentEnd) then pure ⟨some n, r.named⟩ else none

/-- The node that an alias stands for: of the nodes of its number the one that was met last. -/
def resolve (d : Document) (n : Node) : Node :=
  match n with
  | .reference number =>
    let candidates := d.named.filter fun e => e.1 == number
    (candidates.foldl (fun best e => if best.all fun b => b.2.1 ≤ e.2.1 then some e else best) none).elim n (·.2.2)
  | n => n

/-- The one document of a text. -/
def read? (text : String) : Option Document := Token.scan? text.toList >>= ofTokens?

end Document

end IngressOperator.Yaml
