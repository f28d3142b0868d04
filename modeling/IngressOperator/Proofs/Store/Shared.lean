import IngressOperator.Proofs.Cluster.Documents

/-!
# Stores that are shared

Other clients write to the store of a program between any two of its requests. Every write gives a document a version that was not
given under its key before, and an update is accepted from none but a client that has the version that is stored. A program that
updates nothing but what it has just read therefore replaces what it read, or nothing.

## Main statements

* `Reaches.holding`: what a careful program has in hand is still there, or what is there is of another version.
* `Held.serves_update`: an update of what is in hand replaces the document that was read, or it is rejected.
-/

namespace IngressOperator

open Cluster

/-- A store to which several clients write. -/
structure SharedStore where
  /-- The document that is kept under a key. -/
  stored : ObjectKey → Option Json
  /-- The versions that were given under a key. -/
  given : ObjectKey → List String

namespace SharedStore

/-! ### What is written -/

/-- The store with a document of a version under a key. -/
def put (w : SharedStore) (key : ObjectKey) (version : String) (j : Json) : SharedStore where
  stored key' := if key' = key then some j else w.stored key'
  given key' := if key' = key then version :: w.given key' else w.given key'

/-- The store without a document under a key; the versions that were given there stay so. -/
def erase (w : SharedStore) (key : ObjectKey) : SharedStore :=
  { w with stored := fun key' => if key' = key then none else w.stored key' }

/-- Whether a document may be put under a key: it belongs there, and is of a version that was not given there before. -/
structure Fresh (w : SharedStore) (key : ObjectKey) (version : String) (j : Json) : Prop where
  filed : Filed key j
  ofVersion : versionOf j = some (.str version)
  unused : version ∉ w.given key

/-- Whether every document belongs under its key and is of a version that was given there. -/
def Sound (w : SharedStore) : Prop :=
  ∀ key j, w.stored key = some j → Filed key j ∧ ∃ version ∈ w.given key, versionOf j = some (.str version)

variable {w : SharedStore} {key key' : ObjectKey} {version : String} {j : Json}

theorem stored_put_self (w : SharedStore) (key : ObjectKey) (version : String) (j : Json) :
    (w.put key version j).stored key = some j := if_pos rfl

theorem stored_put_of_ne (version : String) (j : Json) (hne : key' ≠ key) :
    (w.put key version j).stored key' = w.stored key' := if_neg hne

/-- The versions that were given are not forgotten. -/
theorem mem_given_put {v : String} (hv : v ∈ w.given key') : v ∈ (w.put key version j).given key' := by
  unfold put
  dsimp only
  split
  · exact List.mem_cons_of_mem _ hv
  · exact hv

/-- A write gives its own version and no other. -/
theorem eq_or_mem_of_mem_given_put {v : String} (hv : v ∈ (w.put key version j).given key') :
    v = version ∨ v ∈ w.given key' := by
  unfold put at hv
  dsimp only at hv
  split at hv
  · exact List.mem_cons.1 hv
  · exact .inr hv

/-- A document that is fresh leaves a store sound. -/
theorem Sound.put (hw : w.Sound) (hf : w.Fresh key version j) : (w.put key version j).Sound := by
  intro key' j' hj'
  by_cases hk : key' = key
  · subst hk
    rw [stored_put_self] at hj'
    cases hj'
    refine ⟨hf.filed, version, ?_, hf.ofVersion⟩
    unfold SharedStore.put
    dsimp only
    rw [if_pos rfl]
    exact List.mem_cons_self
  · rw [stored_put_of_ne _ _ hk] at hj'
    obtain ⟨hfiled, v, hv, hversion⟩ := hw key' j' hj'
    exact ⟨hfiled, v, mem_given_put hv, hversion⟩

theorem Sound.erase (hw : w.Sound) (key : ObjectKey) : (w.erase key).Sound := by
  intro key' j hj
  unfold SharedStore.erase at hj
  dsimp only at hj
  split at hj
  · cases hj
  · exact hw key' j hj

/-! ### What happens to a store -/

/-- What another client does to the document of a key: it creates it or replaces it, or deletes it. -/
inductive Interferes (w : SharedStore) : ObjectKey → SharedStore → Prop where
  | put {key : ObjectKey} {version : String} {j : Json} (fresh : w.Fresh key version j) :
    Interferes w key (w.put key version j)
  | erase (key : ObjectKey) : Interferes w key (w.erase key)

/-- Whether an exchange is none of the successful calls of a store. Such a one changes nothing. -/
def Unmoved : Exchange → Prop
  | ⟨.get _ _ _, .ok _⟩ | ⟨.create _ _, .ok _⟩ | ⟨.update _ _, .ok _⟩ | ⟨.delete _ _ _, .ok _⟩ | ⟨.updateStatus _ _, .ok _⟩ => False
  | _ => True

/-- What a request comes to. Every call may fail, and then changes nothing; nothing is said of lists, the cluster and the clock. -/
inductive Serves (w : SharedStore) : (r : Request) → r.Answer → SharedStore → Prop where
  | found {k : Kind} {ns name : String} {j : Json} {x : k.Object} (hj : w.stored (k.keyAt ns name) = some j)
    (hx : k.decode? j = some x) : Serves w (.get k ns name) (.ok (some x)) w
  | absent {k : Kind} {ns name : String} (hn : w.stored (k.keyAt ns name) = none) : Serves w (.get k ns name) (.ok none) w
  | created {k : Kind} {x y : k.Object} {key : ObjectKey} {version : String} (hk : k.objectKey? x = some key)
    (hn : w.stored key = none) (hy : k.Completes x y) (fresh : w.Fresh key version (k.encode y)) :
    Serves w (.create k x) (.ok .new) (w.put key version (k.encode y))
  | exists {k : Kind} {x : k.Object} {key : ObjectKey} {j : Json} (hk : k.objectKey? x = some key) (hj : w.stored key = some j) :
    Serves w (.create k x) (.ok .alreadyExists) w
  | updated {k : Kind} {x z : k.Object} {key : ObjectKey} {j : Json} {version : String} (hk : k.objectKey? x = some key)
    (hj : w.stored key = some j) (hv : versionOf j = (k.version x).map .str)
    (fresh : w.Fresh key version (k.encode (k.withVersion x version))) :
    Serves w (.update k x) (.ok z) (w.put key version (k.encode (k.withVersion x version)))
  | deleted {k : Kind} {ns name : String} : Serves w (.delete k ns name) (.ok ()) (w.erase (k.keyAt ns name))
  | reported {ingress : ManagementIngress} {status : IngressStatus} {key : ObjectKey} {version : String} {j : Json}
    (hk : Kind.objectKey? .managementIngress ingress = some key) (fresh : w.Fresh key version j) :
    Serves w (.updateStatus ingress status) (.ok ()) (w.put key version j)
  | unmoved {r : Request} {answer : r.Answer} (hu : Unmoved ⟨r, answer⟩) : Serves w r answer w

/-- Other clients leave a store sound. -/
theorem Sound.interferes {w' : SharedStore} (hw : w.Sound) (hi : w.Interferes key w') : w'.Sound := by
  cases hi with
  | put fresh => exact hw.put fresh
  | erase => exact hw.erase key

/-- A request leaves a store sound. -/
theorem Sound.serves {w' : SharedStore} {r : Request} {answer : r.Answer} (hw : w.Sound) (hs : w.Serves r answer w') :
    w'.Sound := by
  cases hs with
  | found => exact hw
  | absent => exact hw
  | created _ _ _ fresh => exact hw.put fresh
  | «exists» => exact hw
  | updated _ _ _ fresh => exact hw.put fresh
  | deleted => exact hw.erase _
  | reported _ fresh => exact hw.put fresh
  | unmoved => exact hw

end SharedStore

/-! ### Programs on a shared store -/

/-- What happens: another client writes under a key, or the program makes a request. -/
inductive Turn where
  | foreign (key : ObjectKey)
  | own (exchange : Exchange)

/-- Whether nothing is asked for in a turn but the time. -/
def Turn.Idle : Turn → Prop
  | foreign _ | own ⟨.now, _⟩ => True
  | own _ => False

/-- Whether a program may come so far, after turns of which the latest comes first, that this is left of it, with the store as it
is then. -/
inductive Reaches {α : Type} (p : Proc α) (w : SharedStore) : List Turn → Proc α → SharedStore → Prop where
  | start : Reaches p w [] p w
  | foreign {t : List Turn} {q : Proc α} {w' w'' : SharedStore} {key : ObjectKey} :
    Reaches p w t q w' → w'.Interferes key w'' → Reaches p w (.foreign key :: t) q w''
  | own {t : List Turn} {r : Request} {next : r.Answer → Proc α} {answer : r.Answer} {w' w'' : SharedStore} :
    Reaches p w t (.ask r next) w' → w'.Serves r answer w'' → Reaches p w (.own ⟨r, answer⟩ :: t) (next answer) w''

/-! ### What is in hand -/

/-- An object that was read under a name. -/
structure Lookup where
  kind : Kind
  ns : String
  name : String
  object : kind.Object

namespace Lookup

/-- The key under which an object was read. -/
def key (lookup : Lookup) : ObjectKey := lookup.kind.keyAt lookup.ns lookup.name

/-- The turn in which an object was read. -/
def turn (lookup : Lookup) : Turn := .own ⟨.get lookup.kind lookup.ns lookup.name, .ok (some lookup.object)⟩

/-- What a program has in hand after an exchange: what it has just read, or what it had if it asked for the time. -/
def after (hand : Option Lookup) : Exchange → Option Lookup
  | ⟨.get k ns name, .ok (some x)⟩ => some ⟨k, ns, name, x⟩
  | ⟨.now, _⟩ => hand
  | _ => none

end Lookup

/-- Whether a request is an update. -/
def Request.Updates : Request → Prop
  | .update _ _ => True
  | _ => False

/-- Whether a program updates nothing but what it has in hand, and that only as `R` allows. -/
def Proc.Careful {α : Type} (R : Lookup → Request → Prop) : Proc α → Option Lookup → Prop
  | done _, _ => True
  | ask r next, hand =>
    (r.Updates → ∃ lookup, hand = some lookup ∧ R lookup r) ∧
      ∀ answer, (next answer).Careful R (Lookup.after hand ⟨r, answer⟩)

/-- A careful program may go on with programs that are careful, whatever they find in hand. -/
theorem Proc.Careful.bind {α β : Type} {R : Lookup → Request → Prop} {p : Proc α} {f : α → Proc β} {hand : Option Lookup}
    (hp : p.Careful R hand) (hf : ∀ a hand, (f a).Careful R hand) : (p >>= f).Careful R hand := by
  induction p generalizing hand with
  | done a => exact hf a hand
  | ask r next ih => exact ⟨hp.1, fun answer => ih answer (hp.2 answer)⟩

/-- What is so of an object that was read, in turns since then: nothing but the time was asked for, and the document that was
read is still there unless another client wrote under its key; what is there then, if anything is, is of another version. -/
structure Held (lookup : Lookup) (since : List Turn) (j : Json) (version : String) (w : SharedStore) : Prop where
  idle : ∀ turn ∈ since, turn.Idle
  filed : Filed lookup.key j
  object : lookup.kind.decode? j = some lookup.object
  ofVersion : versionOf j = some (.str version)
  given : version ∈ w.given lookup.key
  current : Turn.foreign lookup.key ∉ since ∧ w.stored lookup.key = some j ∨
    ∀ j', w.stored lookup.key = some j' → versionOf j' ≠ some (.str version)

section

variable {lookup : Lookup} {since : List Turn} {j : Json} {version : String} {w w' : SharedStore}

/-- What was just read is held. -/
theorem Held.read {k : Kind} {ns name : String} {x : k.Object} (hw : w.Sound) (hj : w.stored (k.keyAt ns name) = some j)
    (hx : k.decode? j = some x) : ∃ version, Held ⟨k, ns, name, x⟩ [] j version w := by
  obtain ⟨hf, version, hgiven, hv⟩ := hw _ j hj
  exact ⟨version, fun _ hm => absurd hm List.not_mem_nil, hf, hx, hv, hgiven, .inl ⟨List.not_mem_nil, hj⟩⟩

/-- Time passes over what is held. -/
theorem Held.now (hh : Held lookup since j version w) (now : Instant) :
    Held lookup (.own ⟨.now, now⟩ :: since) j version w where
  idle turn hm := by
    rcases List.mem_cons.1 hm with rfl | hm
    · trivial
    · exact hh.idle turn hm
  filed := hh.filed
  object := hh.object
  ofVersion := hh.ofVersion
  given := hh.given
  current := by
    rcases hh.current with ⟨hforeign, hj⟩ | hother
    · refine .inl ⟨fun hm => ?_, hj⟩
      rcases List.mem_cons.1 hm with he | hm
      · cases he
      · exact hforeign hm
    · exact .inr hother

/-- What is held stays so whatever other clients do: what they write is of another version. -/
theorem Held.interferes {key : ObjectKey} (hh : Held lookup since j version w) (hi : w.Interferes key w') :
    Held lookup (.foreign key :: since) j version w' where
  idle turn hm := by
    rcases List.mem_cons.1 hm with rfl | hm
    · trivial
    · exact hh.idle turn hm
  filed := hh.filed
  object := hh.object
  ofVersion := hh.ofVersion
  given := by
    cases hi with
    | put fresh => exact SharedStore.mem_given_put hh.given
    | erase => exact hh.given
  current := by
    by_cases hk : lookup.key = key
    · right
      intro j' hj' hv
      cases hi with
      | put fresh =>
        rw [hk, SharedStore.stored_put_self] at hj'
        cases hj'
        rw [fresh.ofVersion] at hv
        cases hv
        exact fresh.unused (hk ▸ hh.given)
      | erase =>
        rw [hk, SharedStore.erase] at hj'
        dsimp only at hj'
        rw [if_pos rfl] at hj'
        cases hj'
    · have hsame : w'.stored lookup.key = w.stored lookup.key := by
        cases hi with
        | put fresh => exact SharedStore.stored_put_of_ne _ _ hk
        | erase => exact if_neg hk
      rcases hh.current with ⟨hforeign, hj⟩ | hother
      · refine .inl ⟨fun hm => ?_, hsame.trans hj⟩
        rcases List.mem_cons.1 hm with he | hm
        · cases he
          exact hk rfl
        · exact hforeign hm
      · right
        rw [hsame]
        exact hother

/-- An update of what is in hand, as the version that was read, replaces the document that was read, or it is rejected and changes
nothing. -/
theorem Held.serves_update (hh : Held lookup since j version w) {x : lookup.kind.Object}
    (hns : (lookup.kind.metadata x).ns = (lookup.kind.metadata lookup.object).ns)
    (hname : (lookup.kind.metadata x).name = (lookup.kind.metadata lookup.object).name)
    (hx : lookup.kind.version x = lookup.kind.version lookup.object) {answer : Except Failure lookup.kind.Object}
    (hs : w.Serves (.update lookup.kind x) answer w') :
    (∃ z v, answer = .ok z ∧ Turn.foreign lookup.key ∉ since ∧ w.stored lookup.key = some j ∧
      w.Fresh lookup.key v (lookup.kind.encode (lookup.kind.withVersion x v)) ∧
        w' = w.put lookup.key v (lookup.kind.encode (lookup.kind.withVersion x v))) ∨
      ∃ e, answer = .error e ∧ w' = w := by
  obtain ⟨hns', hname', version', hv, hj⟩ := hh.filed.of_decode? hh.object
  have hkey : lookup.kind.objectKey? x = some lookup.key := Kind.objectKey?_eq.2 ⟨hns.trans hns', hname.trans hname'⟩
  cases hs with
  | @updated _ _ z key jx v hkx hjx hvx fresh =>
    rw [hkey] at hkx
    cases hkx
    rcases hh.current with ⟨hforeign, hstored⟩ | hother
    · exact .inl ⟨z, v, rfl, hforeign, hstored, fresh, rfl⟩
    · rw [hx, hv] at hvx
      rw [hh.ofVersion] at hj
      cases hj
      exact absurd hvx (hother jx hjx)
  | unmoved hu =>
    cases answer with
    | ok z => exact absurd hu id
    | error e => exact .inr ⟨e, rfl, rfl⟩

/-- What a careful program has in hand is still there, or what is there is of another version. -/
theorem Reaches.holding {α : Type} {R : Lookup → Request → Prop} {p q : Proc α} {t : List Turn} (hr : Reaches p w t q w')
    (hw : w.Sound) (hp : p.Careful R none) :
    w'.Sound ∧ ∃ hand, q.Careful R hand ∧
      ∀ lookup, hand = some lookup → ∃ since before j version, t = since ++ lookup.turn :: before ∧
        Held lookup since j version w' := by
  induction hr with
  | start => exact ⟨hw, none, hp, fun lookup hlookup => absurd hlookup (by simp)⟩
  | foreign hr hi ih =>
    obtain ⟨hw', hand, hq, hheld⟩ := ih
    refine ⟨hw'.interferes hi, hand, hq, fun lookup hlookup => ?_⟩
    obtain ⟨since, before, j, version, rfl, hh⟩ := hheld lookup hlookup
    exact ⟨_ :: since, before, j, version, rfl, hh.interferes hi⟩
  | own hr hs ih =>
    rename_i t r next answer w₁ w₂
    obtain ⟨hw', hand, hq, hheld⟩ := ih
    refine ⟨hw'.serves hs, Lookup.after hand ⟨r, answer⟩, hq.2 answer, fun lookup hlookup => ?_⟩
    unfold Lookup.after at hlookup
    split at hlookup
    · next k ns name x heq =>
      -- what was read is the document that is there
      cases heq
      cases hlookup
      cases hs with
      | found hj hx =>
        obtain ⟨version, hh⟩ := Held.read hw' hj hx
        exact ⟨[], t, _, version, rfl, hh⟩
      | unmoved hu => exact absurd hu id
    · next now heq =>
      cases heq
      cases hs with
      | unmoved hu =>
        obtain ⟨since, before, j, version, rfl, hh⟩ := hheld lookup hlookup
        exact ⟨_ :: since, before, j, version, rfl, hh.now now⟩
    · cases hlookup

end

end IngressOperator
