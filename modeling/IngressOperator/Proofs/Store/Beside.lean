import Mathlib.Data.List.Forall2
import IngressOperator.Proofs.Ensure.Blur
import IngressOperator.Proofs.Program.Abreast
import IngressOperator.Proofs.Steps.Pieces

/-!
# Stores side by side

Two runs on stores are compared as a `View` says: what is passed over in the objects that they write, when their surroundings count
as the same, and what is said of the requests that they make. The stores are side by side while the objects that a pass may write
are the same but for what is passed over, and nothing else has changed.

The `View` also says what becomes of the custom resource: only a report changes that, and no object that a step keeps.

## Main statements

* `ObjectStore.tandem_keeping`: keeping an object keeps stores side by side.
-/

namespace IngressOperator

/-! ### Documents and requests -/

/-- Whether two documents are the same, or what two objects were written as that are but for what is passed over; if that is the
private key of a route, it is enough that such objects are read from them. -/
inductive Blur.Matches (b : Blur) (k : Kind) : Option Json → Option Json → Prop where
  | same (o : Option Json) : Matches b k o o
  | written {x y : k.Object} (hs : b.Same k x y) : Matches b k (some (k.encode x)) (some (k.encode y))
  | read {j j' : Json} {x y : k.Object} (hb : b.key = true) (hx : k.decode? j = some x) (hy : k.decode? j' = some y)
    (hs : b.Same k x y) : Matches b k (some j) (some j')

/-- Whether two requests are the same but for what is passed over in an object that they put. -/
inductive Request.Alike (blur : ObjectKey → Blur) : Request → Request → Prop where
  | same (r : Request) : Alike blur r r
  | create {k : Kind} {x y : k.Object} {key : ObjectKey} (hx : k.objectKey? x = some key) (hs : (blur key).Same k x y) :
    Alike blur (.create k x) (.create k y)
  | update {k : Kind} {x y : k.Object} {key : ObjectKey} (hx : k.objectKey? x = some key) (hs : (blur key).Same k x y) :
    Alike blur (.update k x) (.update k y)

/-- Of documents that match either none is there, or both are; then they are the same or objects are read from them that are but
for what is passed over. -/
theorem Blur.Matches.cases {b : Blur} {k : Kind} (hk : k ≠ .managementIngress) {o o' : Option Json} (hm : b.Matches k o o') :
    (o = none ∧ o' = none) ∨ ∃ j j', o = some j ∧ o' = some j' ∧
      ((j = j' ∧ k.decode? j = none) ∨ ∃ x y, k.decode? j = some x ∧ k.decode? j' = some y ∧ b.Same k x y) := by
  cases hm with
  | same =>
    cases o with
    | none => exact .inl ⟨rfl, rfl⟩
    | some j =>
      refine .inr ⟨j, j, rfl, rfl, ?_⟩
      cases hx : k.decode? j with
      | none => exact .inl ⟨rfl, rfl⟩
      | some x => exact .inr ⟨x, x, rfl, rfl, .refl x⟩
  | written hs => exact .inr ⟨_, _, rfl, rfl, .inr ⟨_, _, Kind.decode?_encode hk _, Kind.decode?_encode hk _, hs⟩⟩
  | read _ hx hy hs => exact .inr ⟨_, _, rfl, rfl, .inr ⟨_, _, hx, hy, hs⟩⟩

/-- Requests that are alike may change the same object. -/
theorem Request.Alike.target? {blur : ObjectKey → Blur} {r r' : Request} (ha : Request.Alike blur r r') :
    r.target? = r'.target? := by
  cases ha with
  | same => rfl
  | create hx hs => exact hs.objectKey?
  | update hx hs => exact hs.objectKey?

/-- Two runs at the same pace: what is asked for in the one is asked for in the other, but for what is passed over. -/
def Pace.step (blur : ObjectKey → Blur) : Pace where
  Grants _ := True
  Follows := List.Forall₂ fun e e' => Request.Alike blur e.request e'.request
  nil := .nil
  append ht hu := List.rel_append ht hu

/-! ### Views -/

/-- How two runs are compared. -/
structure View (σ : Type) extends Pace where
  /-- What is passed over in the object of a key. -/
  blur : ObjectKey → Blur
  /-- Whether the surroundings are the same: the clock, and what the cluster is like. -/
  Around : σ → σ → Prop
  /-- Whether two times that the clocks tell count as the same. -/
  Clock : Instant → Instant → Prop
  /-- Whether two documents of the custom resource count as the same. -/
  Custom : Option Json → Option Json → Prop

variable {σ : Type} {h : Proc.Handler σ} (S : ObjectStore h) (V : View σ)

/-- Whether objects that are the same but for what is passed over are completed alike when they are created. -/
def ObjectStore.CompletesAlike (blur : ObjectKey → Blur) (Around : σ → σ → Prop) : Prop :=
  ∀ {k : Kind} {x y x' y' : k.Object} {key s t}, k ≠ .managementIngress → S.Holds s → S.Holds t → Around s t →
    k.objectKey? x = some key → (blur key).Same k x y → S.stored s key = none → S.stored t key = none →
      S.stored (h (.create k x) s).2 key = some (k.encode x') → S.stored (h (.create k y) t).2 key = some (k.encode y') →
        k.Completes x x' → k.Completes y y' → (blur key).Same k x' y'

/-- Whether a store treats alike what a view does not tell apart. -/
structure ObjectStore.Fair : Prop where
  around : ∀ {r r' s t}, Request.Alike V.blur r r' → S.Holds s → S.Holds t → V.Around s t → V.Around (h r s).2 (h r' t).2
  follows : ∀ {r r'}, Request.Alike V.blur r r' → ∀ a a', V.Follows [⟨r, a⟩] [⟨r', a'⟩]
  created : S.CompletesAlike V.blur V.Around
  /-- An update in which all is passed over may be left out. -/
  skips : ∀ {k : Kind} {x : k.Object} {key s t}, S.Holds s → S.Holds t → k.objectKey? x = some key → (V.blur key).key = true →
    V.Around s t → V.Around (h (.update k x) s).2 t ∧ V.Around s (h (.update k x) t).2
  skipped : ∀ {k : Kind} {x : k.Object} {key}, k.objectKey? x = some key → (V.blur key).key = true →
    ∀ a, V.Follows [⟨.update k x, a⟩] [] ∧ V.Follows [] [⟨.update k x, a⟩]
  discovers : ∀ {r : Request} {s t}, S.Holds s → S.Holds t → r.Discovers → V.Around s t → (h r s).1 = (h r t).1
  now : ∀ {s t}, S.Holds s → S.Holds t → V.Around s t → V.Grants ⟨.now, (h .now s).1⟩ → V.Grants ⟨.now, (h .now t).1⟩ →
    V.Clock (h .now s).1 (h .now t).1
  /-- Where clocks may tell different times, the times noted on deployments are passed over. -/
  noted : ∀ key, (V.blur key).note = true ∨ ∀ now now', V.Clock now now' → now = now'

/-- Whether a list of objects depends on those of its namespace alone. -/
def ObjectStore.Confined : Prop :=
  ∀ {s t k ns labels}, S.Holds s → S.Holds t →
    (∀ key, key.kind = Kind.name k → key.ns = ns → S.stored s key = S.stored t key) →
      (h (.list k ns labels) s).1 = (h (.list k ns labels) t).1

/-! ### States side by side -/

variable (ingress : ManagementIngress) (keys : List ObjectKey) (before before' : ObjectKey → Option Json)

/-- Two states side by side: the objects of the given keys match, the custom resource counts as the same, and under all other keys
the documents are those that were there before. -/
structure ObjectStore.Beside (s t : σ) : Prop where
  holds : S.Holds s
  holds' : S.Holds t
  around : V.Around s t
  owned : ∀ {k : Kind} {ns name : String}, k.keyAt ns name ∈ keys →
    (V.blur (k.keyAt ns name)).Matches k (S.stored s (k.keyAt ns name)) (S.stored t (k.keyAt ns name))
  custom : ∀ {key}, Kind.objectKey? .managementIngress ingress = some key → V.Custom (S.stored s key) (S.stored t key)
  rest : ∀ {key}, key ∉ keys → Kind.objectKey? .managementIngress ingress ≠ some key →
    S.stored s key = before key ∧ S.stored t key = before' key

variable {S V ingress keys before before'}

/-- Whether the custom resource is none of the given objects. -/
def ManagementIngress.Apart (ingress : ManagementIngress) (keys : List ObjectKey) : Prop :=
  ∀ {key}, Kind.objectKey? .managementIngress ingress = some key → key ∉ keys

namespace ObjectStore.Beside

variable {s t s' t' : σ} {k : Kind} {ns name : String}

/-- States in which nothing is another one are side by side. -/
theorem still (hi : S.Beside V ingress keys before before' s t) (hs : S.Holds s') (ht : S.Holds t') (ha : V.Around s' t')
    (hstored : ∀ key, S.stored s' key = S.stored s key) (hstored' : ∀ key, S.stored t' key = S.stored t key) :
    S.Beside V ingress keys before before' s' t' where
  holds := hs
  holds' := ht
  around := ha
  owned hm := by
    rw [hstored, hstored']
    exact hi.owned hm
  custom hkey := by
    rw [hstored, hstored']
    exact hi.custom hkey
  rest hkey hcustom := by
    rw [hstored, hstored']
    exact hi.rest hkey hcustom

/-- States in which only one of the given objects is another one, and matches, are side by side. -/
theorem write (hi : S.Beside V ingress keys before before' s t) (hapart : ingress.Apart keys) (hs : S.Holds s') (ht : S.Holds t')
    (ha : V.Around s' t') (hm : k.keyAt ns name ∈ keys) (hframe : ∀ other ≠ k.keyAt ns name, S.stored s' other = S.stored s other)
    (hframe' : ∀ other ≠ k.keyAt ns name, S.stored t' other = S.stored t other)
    (hdoc : (V.blur (k.keyAt ns name)).Matches k (S.stored s' (k.keyAt ns name)) (S.stored t' (k.keyAt ns name))) :
    S.Beside V ingress keys before before' s' t' where
  holds := hs
  holds' := ht
  around := ha
  owned {k' ns' name'} hm' := by
    by_cases hk : k'.keyAt ns' name' = k.keyAt ns name
    · obtain ⟨rfl, rfl, rfl⟩ := Kind.keyAt_inj.1 hk
      exact hdoc
    · rw [hframe _ hk, hframe' _ hk]
      exact hi.owned hm'
  custom {key} hkey := by
    have hne : key ≠ k.keyAt ns name := fun he => hapart hkey (he ▸ hm)
    rw [hframe _ hne, hframe' _ hne]
    exact hi.custom hkey
  rest {key} hkey hcustom := by
    have hne : key ≠ k.keyAt ns name := fun he => hkey (he ▸ hm)
    rw [hframe _ hne, hframe' _ hne]
    exact hi.rest hkey hcustom

/-- States in which only the custom resource is another one, and counts as the same then, are side by side. -/
theorem report {V' : View σ} (hi : S.Beside V ingress keys before before' s t) (hapart : ingress.Apart keys) (hs : S.Holds s')
    (ht : S.Holds t') (hblur : V'.blur = V.blur) (ha : V'.Around s' t')
    (hframe : ∀ key, Kind.objectKey? .managementIngress ingress ≠ some key → S.stored s' key = S.stored s key)
    (hframe' : ∀ key, Kind.objectKey? .managementIngress ingress ≠ some key → S.stored t' key = S.stored t key)
    (hcustom : ∀ key, Kind.objectKey? .managementIngress ingress = some key → V'.Custom (S.stored s' key) (S.stored t' key)) :
    S.Beside V' ingress keys before before' s' t' where
  holds := hs
  holds' := ht
  around := ha
  owned {k ns name} hm := by
    have hne : Kind.objectKey? .managementIngress ingress ≠ some (k.keyAt ns name) := fun he => hapart he hm
    rw [hblur, hframe _ hne, hframe' _ hne]
    exact hi.owned hm
  custom hkey := hcustom _ hkey
  rest hkey hne := by
    rw [hframe _ hne, hframe' _ hne]
    exact hi.rest hkey hne

/-- A request that may change no object leaves states side by side. -/
theorem look (hF : S.Fair V) (hi : S.Beside V ingress keys before before' s t) {r : Request} (hr : r.target? = none) :
    S.Beside V ingress keys before before' (h r s).2 (h r t).2 ∧ V.Follows [⟨r, (h r s).1⟩] [⟨r, (h r t).1⟩] := by
  refine ⟨?_, hF.follows (.same r) _ _⟩
  exact hi.still (S.holds r s hi.holds) (S.holds r t hi.holds') (hF.around (.same r) hi.holds hi.holds' hi.around)
    (S.stored_of_untargeted hi.holds hr) (S.stored_of_untargeted hi.holds' hr)

/-- Requests that are alike leave states side by side if the object that they may change matches then. -/
theorem put (hF : S.Fair V) (hi : S.Beside V ingress keys before before' s t) (hapart : ingress.Apart keys) {r r' : Request}
    (hr : Request.Alike V.blur r r') (ht : r.target? = some (k.keyAt ns name)) (hm : k.keyAt ns name ∈ keys)
    (hdoc : (V.blur (k.keyAt ns name)).Matches k (S.stored (h r s).2 (k.keyAt ns name)) (S.stored (h r' t).2 (k.keyAt ns name))) :
    S.Beside V ingress keys before before' (h r s).2 (h r' t).2 ∧ V.Follows [⟨r, (h r s).1⟩] [⟨r', (h r' t).1⟩] := by
  have hframe (other : ObjectKey) (hne : other ≠ k.keyAt ns name) : S.stored (h r s).2 other = S.stored s other :=
    S.frame r s other hi.holds fun he => hne (Option.some.inj (he.symm.trans ht))
  have hframe' (other : ObjectKey) (hne : other ≠ k.keyAt ns name) : S.stored (h r' t).2 other = S.stored t other :=
    S.frame r' t other hi.holds' fun he => hne (Option.some.inj (he.symm.trans (hr.target?.symm.trans ht)))
  have haround := hF.around hr hi.holds hi.holds' hi.around
  exact ⟨hi.write hapart (S.holds r s hi.holds) (S.holds r' t hi.holds') haround hm hframe hframe' hdoc, hF.follows hr _ _⟩

end ObjectStore.Beside

/-! ### Keeping objects -/

/-- Whether the same was done to an object, or it was updated on one side only, for what is passed over. -/
def Synced.Alike (b : Blur) (k : Kind) (name : String) (x y : Synced) : Prop :=
  x = y ∨ b.key = true ∧
    ((x = ⟨k, name, .updated⟩ ∧ y = ⟨k, name, .unchanged⟩) ∨ (x = ⟨k, name, .unchanged⟩ ∧ y = ⟨k, name, .updated⟩))

/-- Where no private key is passed over, the same was done. -/
theorem Synced.Alike.eq {b : Blur} {k : Kind} {name : String} {x y : Synced} (hxy : Synced.Alike b k name x y)
    (hb : b.key = false) : x = y := by
  rcases hxy with rfl | ⟨hkey, -⟩
  · rfl
  · exact absurd (hb.symm.trans hkey) nofun

/-- The object that is read from the document under a key. -/
def ObjectStore.Shows (S : ObjectStore h) (k : Kind) (key : ObjectKey) (x : k.Object) (s : σ) : Prop :=
  ∃ j, S.stored s key = some j ∧ k.decode? j = some x

/-- A request that may change no object leaves what is read. -/
theorem ObjectStore.Shows.untargeted {k : Kind} {key : ObjectKey} {x : k.Object} {s : σ} (hx : S.Shows k key x s) (hs : S.Holds s)
    {r : Request} (hr : r.target? = none) : S.Shows k key x (h r s).2 := by
  obtain ⟨j, hj, hdecode⟩ := hx
  exact ⟨j, (S.stored_of_untargeted hs hr key).trans hj, hdecode⟩

/-- What replaces an object that was read: it is kept under the same key, and is of the same version. -/
structure Kind.Replaces (k : Kind) (x y : k.Object) : Prop where
  ns : (k.metadata x).ns = (k.metadata y).ns
  name : (k.metadata x).name = (k.metadata y).name
  version : k.version x = k.version y

/-- What a revision asks for replaces the object that it was made of. -/
theorem Settles.replaces {k : Kind} {desired live x : k.Object} {revise : k.Object → Option k.Object}
    (hr : Settles k desired revise) (hx : revise live = some x) : k.Replaces x live :=
  ⟨hr.ns hx, hr.name hx, hr.version hx⟩

/-- An object that was read is replaced, and nothing else. -/
theorem ObjectStore.Shows.replaced {k : Kind} (hm : k ≠ .managementIngress) {ns name : String} {x live : k.Object} {s : σ}
    (hlive : S.Shows k (k.keyAt ns name) live s) (hs : S.Holds s) (hx : k.Replaces x live) :
    k.objectKey? x = some (k.keyAt ns name) ∧ (∃ z, (h (.update k x) s).1 = .ok z) ∧
      (∃ v, S.stored (h (.update k x) s).2 (k.keyAt ns name) = some (k.encode (k.withVersion x v))) ∧
        ∀ other ≠ k.keyAt ns name, S.stored (h (.update k x) s).2 other = S.stored s other := by
  obtain ⟨j, hj, hdecode⟩ := hlive
  obtain ⟨hns, hname⟩ := S.placed s k ns name j live hs hj hdecode
  have hkey : k.objectKey? x = some (k.keyAt ns name) := Kind.objectKey?_eq.2 ⟨hx.ns.trans hns, hx.name.trans hname⟩
  obtain ⟨hz, hdoc⟩ := S.update s k x _ j live hs hm hkey hj hdecode hx.version.symm
  refine ⟨hkey, hz, hdoc, fun other hne => ?_⟩
  exact S.frame _ s other hs fun he => hne (Option.some.inj (he.symm.trans hkey))

/-- What is found on both sides: none is there, none can be read for the same reason, or they are the same but for what is passed
over. -/
inductive ObjectStore.Found (S : ObjectStore h) (b : Blur) (k : Kind) (key : ObjectKey) (s t : σ) :
    Except Failure (Option k.Object) → Except Failure (Option k.Object) → Prop where
  | none : Found S b k key s t (.ok none) (.ok none)
  | refused (e : Failure) : Found S b k key s t (.error e) (.error e)
  | some {x y : k.Object} (hs : b.Same k x y) (hx : S.Shows k key x s) (hy : S.Shows k key y t) :
    Found S b k key s t (.ok (some x)) (.ok (some y))

section

variable (hF : S.Fair V) {k : Kind} (hm : k ≠ .managementIngress) {ns name : String} (hkey : k.keyAt ns name ∈ keys)

include hF hm hkey

/-- Objects that are the same but for what is passed over are created on both sides, or there are others on both sides. -/
theorem tandem_create (hapart : ingress.Apart keys) {x y : k.Object} (hx : k.objectKey? x = some (k.keyAt ns name))
    (hs : (V.blur (k.keyAt ns name)).Same k x y) :
    Proc.Tandem h V.toPace (S.Beside V ingress keys before before') (fun a b => ∃ c, a = .ok c ∧ b = .ok c)
      (Proc.request (.create k x)) (Proc.request (.create k y)) := by
  have hy : k.objectKey? y = some (k.keyAt ns name) := hs.objectKey?.symm.trans hx
  have halike : Request.Alike V.blur (.create k x) (.create k y) := .create hx hs
  refine Proc.Abreast.request fun s t hi _ _ => ?_
  obtain ⟨hnone, hnone'⟩ | ⟨j, j', hj, hj', -⟩ := (hi.owned hkey).cases hm
  · obtain ⟨ha, x', hcx, hdoc⟩ := S.create_absent s k x _ hi.holds hx hnone
    obtain ⟨ha', y', hcy, hdoc'⟩ := S.create_absent t k y _ hi.holds' hy hnone'
    have hput := hi.put hF hapart halike hx hkey (by
      rw [hdoc, hdoc']
      exact .written (hF.created hm hi.holds hi.holds' hi.around hx hs hnone hnone' hdoc hdoc' hcx hcy))
    exact ⟨⟨⟨.new, ha, ha'⟩, hput.1⟩, hput.2⟩
  · obtain ⟨ha, hdoc⟩ := S.create_present s k x _ j hi.holds hx hj
    obtain ⟨ha', hdoc'⟩ := S.create_present t k y _ j' hi.holds' hy hj'
    have hput := hi.put hF hapart halike hx hkey (by
      rw [hdoc, hdoc', ← hj, ← hj']
      exact hi.owned hkey)
    exact ⟨⟨⟨.alreadyExists, ha, ha'⟩, hput.1⟩, hput.2⟩

/-- The same but for what is passed over is found on both sides. -/
theorem abreast_get :
    Proc.Abreast h V.toPace (S.Beside V ingress keys before before') (Proc.request (.get k ns name))
      (Proc.request (.get k ns name)) fun a b s t =>
        S.Found (V.blur (k.keyAt ns name)) k (k.keyAt ns name) s t a b ∧ S.Beside V ingress keys before before' s t := by
  refine Proc.Abreast.request fun s t hi _ _ => ?_
  have hlook := hi.look hF (r := .get k ns name) rfl
  refine ⟨⟨?_, hlook.1⟩, hlook.2⟩
  rw [S.get s k ns name hi.holds, S.get t k ns name hi.holds']
  obtain ⟨hnone, hnone'⟩ | ⟨j, j', hj, hj', ⟨rfl, hx⟩ | ⟨x, y, hx, hy, hs⟩⟩ := (hi.owned hkey).cases hm
  · rw [hnone, hnone']
    exact .none
  · rw [hj, hj']
    simp only [Kind.reading, hx]
    exact .refused _
  · rw [hj, hj']
    simp only [Kind.reading, hx, hy]
    exact .some hs (.untargeted ⟨j, hj, hx⟩ hi.holds rfl) (.untargeted ⟨j', hj', hy⟩ hi.holds' rfl)

variable (hapart : ingress.Apart keys)

include hapart

/-- Objects that were read are replaced by others that are the same but for what is passed over. -/
theorem abreast_update {x y x' y' : k.Object} (hs : (V.blur (k.keyAt ns name)).Same k x' y') (hx : k.Replaces x' x)
    (hy : k.Replaces y' y) :
    Proc.Abreast h V.toPace
      (fun s t => S.Shows k (k.keyAt ns name) x s ∧ S.Shows k (k.keyAt ns name) y t ∧
        S.Beside V ingress keys before before' s t)
      (Proc.request (.update k x')) (Proc.request (.update k y')) fun a b s t =>
        (∃ z z', a = .ok z ∧ b = .ok z') ∧ S.Beside V ingress keys before before' s t := by
  refine Proc.Abreast.request ?_
  rintro s t ⟨hshow, hshow', hi⟩ _ _
  obtain ⟨hxk, ⟨z, hz⟩, ⟨v, hdoc⟩, -⟩ := hshow.replaced hm hi.holds hx
  obtain ⟨-, ⟨z', hz'⟩, ⟨v', hdoc'⟩, -⟩ := hshow'.replaced hm hi.holds' hy
  have hput := hi.put hF hapart (.update hxk hs) hxk hkey (by
    rw [hdoc, hdoc']
    exact .written (hs.withVersion v v'))
  exact ⟨⟨⟨z, z', hz, hz'⟩, hput.1⟩, hput.2⟩

/-- How revisions of what was read on both sides are written: on both sides, on none, or on one for what is passed over. -/
theorem abreast_writing {x y : k.Object} {revise revise' : k.Object → Option k.Object} {desired desired' : k.Object}
    (hr : Settles k desired revise) (hr' : Settles k desired' revise') {idle : Outcome}
    (hidle : (V.blur (k.keyAt ns name)).key = true → idle = .unchanged)
    (hrev : (V.blur (k.keyAt ns name)).Revised k x y (revise x) (revise' y)) :
    Proc.Abreast h V.toPace
      (fun s t => S.Shows k (k.keyAt ns name) x s ∧ S.Shows k (k.keyAt ns name) y t ∧
        S.Beside V ingress keys before before' s t)
      (writing k name idle (revise x)).run (writing k name idle (revise' y)).run
      fun a b s t => Echoes (Synced.Alike (V.blur (k.keyAt ns name)) k name) a b ∧ S.Beside V ingress keys before before' s t := by
  generalize hx : revise x = w at hrev
  generalize hy : revise' y = w' at hrev
  cases hrev with
  | idle => exact Proc.Abreast.done fun s t hi => ⟨.ok (.inl rfl), hi.2.2⟩
  | both hs =>
    rw [run_writing_some, run_writing_some]
    refine Proc.Abreast.ask (abreast_update hF hm hkey hapart hs (hr.replaces hx) (hr'.replaces hy)) ?_
    rintro a b s t ⟨⟨z, z', rfl, rfl⟩, hi⟩
    exact Proc.Abreast.done (fun _ _ hi => ⟨.ok (.inl rfl), hi⟩) s t hi
  | @left x' hb hs =>
    rw [run_writing_some]
    refine Proc.Abreast.askLeft (Q := fun a s t => (∃ z, a = .ok z) ∧ S.Beside V ingress keys before before' s t) ?_ ?_
    · rintro s t ⟨hshow, ⟨j', hj', hdecode⟩, hi⟩
      obtain ⟨hxk, hz, ⟨v, hdoc⟩, hframe⟩ := hshow.replaced hm hi.holds (hr.replaces hx)
      have haround := (hF.skips hi.holds hi.holds' hxk hb hi.around).1
      refine ⟨⟨hz, hi.write hapart (S.holds _ s hi.holds) hi.holds' haround hkey hframe (fun _ _ => rfl) ?_⟩,
        (hF.skipped hxk hb _).1⟩
      rw [hdoc, hj']
      exact .read hb (Kind.decode?_encode hm _) hdecode ((Blur.same_withVersion x' v).trans hs)
    · rintro a s t ⟨⟨z, rfl⟩, hi⟩
      exact Proc.Abreast.done (fun _ _ hi => ⟨.ok (.inr ⟨hb, .inl ⟨rfl, by rw [hidle hb]⟩⟩), hi⟩) s t hi
  | @right y' hb hs =>
    rw [run_writing_some]
    refine Proc.Abreast.askRight (Q := fun b s t => (∃ z, b = .ok z) ∧ S.Beside V ingress keys before before' s t) ?_ ?_
    · rintro s t ⟨⟨j, hj, hdecode⟩, hshow', hi⟩
      obtain ⟨hyk, hz, ⟨v, hdoc⟩, hframe⟩ := hshow'.replaced hm hi.holds' (hr'.replaces hy)
      have haround := (hF.skips hi.holds hi.holds' hyk hb hi.around).2
      refine ⟨⟨hz, hi.write hapart hi.holds (S.holds _ t hi.holds') haround hkey (fun _ _ => rfl) hframe ?_⟩,
        (hF.skipped hyk hb _).2⟩
      rw [hdoc, hj]
      exact .read hb hdecode (Kind.decode?_encode hm _) (hs.trans (Blur.same_withVersion y' v).symm)
    · rintro b s t ⟨⟨z, rfl⟩, hi⟩
      exact Proc.Abreast.done (fun _ _ hi => ⟨.ok (.inr ⟨hb, .inr ⟨by rw [hidle hb], rfl⟩⟩), hi⟩) s t hi

/-- Keeping an object keeps states side by side. -/
theorem tandem_keeping {desired desired' : k.Object} {revise revise' : k.Object → Option k.Object} {idle : Outcome}
    (hk : k.key desired = .ok (ns, name)) (hd : (V.blur (k.keyAt ns name)).Same k desired desired')
    (hr : Settles k desired revise) (hr' : Settles k desired' revise')
    (hidle : (V.blur (k.keyAt ns name)).key = true → idle = .unchanged)
    (hrev : ∀ x y, (V.blur (k.keyAt ns name)).Same k x y → (V.blur (k.keyAt ns name)).Revised k x y (revise x) (revise' y)) :
    Proc.Tandem h V.toPace (S.Beside V ingress keys before before') (Echoes (Synced.Alike (V.blur (k.keyAt ns name)) k name))
      (keeping k desired revise idle).run (keeping k desired' revise' idle).run := by
  have hobject : k.objectKey? desired = some (k.keyAt ns name) := Kind.objectKey?_eq.2 (Kind.key_eq_ok.1 hk)
  have hk' : k.key desired' = .ok (ns, name) :=
    Kind.key_eq_ok.2 (Kind.objectKey?_eq.1 (hd.objectKey?.symm.trans hobject))
  rw [run_keeping hk, run_keeping hk']
  refine Proc.Abreast.ask (tandem_create hF hm hkey hapart hobject hd) ?_
  rintro a b s t ⟨⟨c, rfl, rfl⟩, hi⟩
  cases c with
  | new => exact Proc.Abreast.done (fun _ _ hi => ⟨.ok (.inl rfl), hi⟩) s t hi
  | alreadyExists =>
    refine Proc.Abreast.ask (abreast_get hF hm hkey) ?_ s t hi
    rintro a b s t ⟨hfound, hi⟩
    cases hfound with
    | none => exact Proc.Abreast.done (fun _ _ hi => ⟨.error _, hi⟩) s t hi
    | refused e => exact Proc.Abreast.done (fun _ _ hi => ⟨.error e, hi⟩) s t hi
    | some hs hx hy => exact abreast_writing hF hm hkey hapart hr hr' hidle (hrev _ _ hs) s t ⟨hx, hy, hi⟩

end

end IngressOperator
