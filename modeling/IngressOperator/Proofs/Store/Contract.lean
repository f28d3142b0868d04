import IngressOperator.Proofs.Program.Trace
import IngressOperator.Ensure

/-!
# Stores that keep their contract

What a pass relies on: objects are kept as documents under their keys, an object that is not there is created, one that is there
is read as it was last written, and it is replaced if it is still the version that was read. A contract says this of the states
in which the store can be used; it says nothing of what is asked of the cluster itself, nor of the clock.

## Main statements

* `ObjectStore.stored_of_quiet`: a run that writes nothing leaves every document as it is.
* `ObjectStore.stored_of_writesOnly`: a run leaves the documents that the program may not write.
-/

namespace IngressOperator

/-! ### What the server gives -/

/-- Metadata without what only the server gives. -/
def Meta.unassigned (m : Meta) : Meta :=
  { m with creationTimestamp := none, generation := none, resourceVersion := none, selfLink := none, uid := none }

/-- A service without its metadata's and its address's part that only the server gives. -/
def Service.unassigned (x : Service) : Service :=
  { x with
    metadata := x.metadata.unassigned
    spec := some { x.spec.getD {} with clusterIP := none, clusterIPs := none } }

namespace Kind

/-- An object without what only the server gives. -/
def unassigned (k : Kind) (x : k.Object) : k.Object :=
  match k, x with
  | .service, x => Service.unassigned x
  | k, x => k.withMetadata x (k.metadata x).unassigned

/-- Whether the server may keep `y` when `x` is created: they differ in what the server gives and in nothing else. -/
def Completes (k : Kind) (x y : k.Object) : Prop := k.unassigned y = k.unassigned x

/-- The object as another version. -/
def withVersion (k : Kind) (x : k.Object) (version : String) : k.Object :=
  k.withMetadata x { k.metadata x with resourceVersion := some version }

/-- The version of an object. -/
def version (k : Kind) (x : k.Object) : Option String := (k.metadata x).resourceVersion

/-- What is read from a document, if there is one; `refusal` is how it is told that it is no object of the kind. -/
def reading (refusal : Kind → Json → Failure) (k : Kind) : Option Json → Except Failure (Option k.Object)
  | none => .ok none
  | some j =>
    match k.decode? j with
    | some x => .ok (some x)
    | none => .error (refusal k j)

end Kind

/-! ### The contract -/

/-- The contract of a store that answers the requests of programs. -/
structure ObjectStore {σ : Type} (h : Proc.Handler σ) where
  /-- The states in which the contract holds. -/
  Holds : σ → Prop
  /-- The document that is kept under a key. -/
  stored : σ → ObjectKey → Option Json
  /-- How it is told that a document is no object of a kind. -/
  refusal : Kind → Json → Failure
  holds : ∀ r s, Holds s → Holds (h r s).2
  /-- A request changes no other document than that of the object that it names. -/
  frame : ∀ r s key, Holds s → r.target? ≠ some key → stored (h r s).2 key = stored s key
  /-- An object is kept under its own namespace and name. -/
  placed : ∀ s k ns name j x, Holds s → stored s (Kind.keyAt k ns name) = some j → k.decode? j = some x →
    (k.metadata x).ns = some ns ∧ (k.metadata x).name = some name
  get : ∀ s k ns name, Holds s → (h (.get k ns name) s).1 = k.reading refusal (stored s (Kind.keyAt k ns name))
  /-- A list depends on the objects of its kind alone. -/
  list : ∀ s t k ns labels, Holds s → Holds t → (∀ key, key.kind = Kind.name k → stored s key = stored t key) →
    (h (.list k ns labels) s).1 = (h (.list k ns labels) t).1
  create_absent : ∀ s k x key, Holds s → Kind.objectKey? k x = some key → stored s key = none →
    (h (.create k x) s).1 = .ok .new ∧
      ∃ y, k.Completes x y ∧ stored (h (.create k x) s).2 key = some (k.encode y)
  create_present : ∀ s k x key j, Holds s → Kind.objectKey? k x = some key → stored s key = some j →
    (h (.create k x) s).1 = .ok .alreadyExists ∧ stored (h (.create k x) s).2 key = some j
  /-- Of a management ingress nothing but the status is replaced. -/
  update : ∀ s k x key j live, Holds s → k ≠ .managementIngress → Kind.objectKey? k x = some key → stored s key = some j →
    k.decode? j = some live → k.version live = k.version x →
      (∃ y, (h (.update k x) s).1 = .ok y) ∧ ∃ v, stored (h (.update k x) s).2 key = some (k.encode (k.withVersion x v))
  delete : ∀ s k ns name, Holds s →
    (h (.delete k ns name) s).1 = .ok () ∧ stored (h (.delete k ns name) s).2 (Kind.keyAt k ns name) = none
  updateStatus : ∀ s ingress status key j live, Holds s → Kind.objectKey? .managementIngress ingress = some key →
    stored s key = some j → Kind.decode? .managementIngress j = some live →
    Wire.decode? (Wire.encode status) = some status →
      (h (.updateStatus ingress status) s).1 = .ok () ∧
        ∃ j' v, stored (h (.updateStatus ingress status) s).2 key = some j' ∧
          Kind.decode? .managementIngress j' =
            some { Kind.withVersion .managementIngress live v with status := some status }

namespace ObjectStore

variable {σ α : Type} {h : Proc.Handler σ} (S : ObjectStore h)

/-- The contract holds as long as a program runs. -/
theorem holds_run (p : Proc α) {s : σ} (hs : S.Holds s) : S.Holds (p.run h s).2 := by
  induction p generalizing s with
  | done a => exact hs
  | ask r next ih => exact ih _ (S.holds r s hs)

theorem holds_goes {p : Proc α} {a : α} {t : List Exchange} {s s' : σ} (hs : S.Holds s) (hg : p.Goes h s a t s') :
    S.Holds s' := by
  have hp := S.holds_run p hs
  rw [hg.1] at hp
  exact hp

/-- What is asked of the cluster itself is answered the same at all times, be it by a value or by a failure. -/
structure Steady : Prop where
  baseDomain : ∀ {s t}, S.Holds s → S.Holds t → (h .baseDomain s).1 = (h .baseDomain t).1
  clusterDomain : ∀ {s t}, S.Holds s → S.Holds t → (h .clusterDomain s).1 = (h .clusterDomain t).1
  apiServer : ∀ {s t}, S.Holds s → S.Holds t → (h .apiServer s).1 = (h .apiServer t).1

/-! ### Documents that stay -/

/-- A request that names no object to be changed leaves every document as it is. -/
theorem stored_of_untargeted {s : σ} (hs : S.Holds s) {r : Request} (hr : r.target? = none) (key : ObjectKey) :
    S.stored (h r s).2 key = S.stored s key :=
  S.frame r s key hs fun ht => Option.some_ne_none key (ht.symm.trans hr)

/-- A create that is not answered by a new object leaves every document as it is. -/
theorem stored_of_create {s : σ} (hs : S.Holds s) {k : Kind} {x : k.Object} (hn : (h (.create k x) s).1 ≠ .ok .new)
    (key : ObjectKey) : S.stored (h (.create k x) s).2 key = S.stored s key := by
  by_cases ht : Request.target? (.create k x) = some key
  · cases hj : S.stored s key with
    | none => exact absurd (S.create_absent s k x key hs ht hj).1 hn
    | some j => exact (S.create_present s k x key j hs ht hj).2
  · exact S.frame _ s key hs ht

/-- A request that writes nothing leaves every document as it is. -/
theorem stored_of_not_writes {s : σ} (hs : S.Holds s) {r : Request} (hw : ¬ (⟨r, (h r s).1⟩ : Exchange).Writes)
    (key : ObjectKey) : S.stored (h r s).2 key = S.stored s key := by
  cases r with
  | create k x => exact S.stored_of_create hs hw key
  | update _ _ => exact absurd trivial hw
  | delete _ _ _ => exact absurd trivial hw
  | updateStatus _ _ => exact absurd trivial hw
  | _ => exact S.stored_of_untargeted hs rfl key

/-- A run that writes nothing leaves every document as it is. -/
theorem stored_of_quiet {p : Proc α} {s : σ} (hs : S.Holds s) (hq : p.Quiet h s) : S.stored (p.run h s).2 = S.stored s := by
  induction p generalizing s with
  | done a => rfl
  | ask r next ih =>
    have hr : S.stored (h r s).2 = S.stored s := funext (S.stored_of_not_writes hs (hq _ List.mem_cons_self))
    rw [← hr]
    exact ih _ (S.holds r s hs) fun x hx => hq x (List.mem_cons_of_mem _ hx)

/-- A run in which nothing is written leaves every document as it is. -/
theorem stored_of_silent {p : Proc α} {a : α} {t : List Exchange} {s s' : σ} (hs : S.Holds s) (hg : p.Goes h s a t s')
    (ht : Silent t) : S.Holds s' ∧ S.stored s' = S.stored s := by
  have hq := S.stored_of_quiet hs (hg.quiet ht)
  rw [hg.1] at hq
  exact ⟨S.holds_goes hs hg, hq⟩

/-! ### Sensible answers -/

/-- The answers of a store that keeps its contract: an object that is read has the namespace and the name that were asked for. -/
def Sensible : (r : Request) → r.Answer → Prop
  | .get k ns name, .ok (some x) => (k.metadata x).ns = some ns ∧ (k.metadata x).name = some name
  | _, _ => True

/-- A store that keeps its contract answers sensibly. -/
theorem sensible {s : σ} (hs : S.Holds s) (r : Request) : Sensible r (h r s).1 := by
  cases r with
  | get k ns name =>
    rw [S.get s k ns name hs]
    cases hj : S.stored s (k.keyAt ns name) with
    | none => trivial
    | some j =>
      cases hx : k.decode? j with
      | none => simp only [Kind.reading, hx]; trivial
      | some x =>
        simp only [Kind.reading, hx]
        exact S.placed s k ns name j x hs hj hx
  | _ => trivial

end ObjectStore

/-! ### Programs that write certain objects -/

/-- A program that writes no other objects than those of the given keys. -/
def Proc.WritesOnly {α : Type} (keys : List ObjectKey) (p : Proc α) : Prop :=
  p.Asks ObjectStore.Sensible fun r => ∀ key, r.target? = some key → key ∈ keys

theorem Proc.WritesOnly.mono {α : Type} {keys keys' : List ObjectKey} {p : Proc α} (hp : p.WritesOnly keys)
    (hk : keys ⊆ keys') : p.WritesOnly keys' :=
  Asks.mono hp fun _ hr key ht => hk (hr key ht)

/-- A run leaves the documents that the program may not write. -/
theorem ObjectStore.stored_of_writesOnly {σ α : Type} {h : Proc.Handler σ} (S : ObjectStore h) {p : Proc α}
    {keys : List ObjectKey} (hp : p.WritesOnly keys) {key : ObjectKey} (hk : key ∉ keys) {s : σ} (hs : S.Holds s) :
    S.stored (p.run h s).2 key = S.stored s key := by
  have hrun := Proc.Asks.run (I := fun s' => S.Holds s' ∧ S.stored s' key = S.stored s key) hp
    (fun r s' hr hi => by
      have hf := S.frame r s' key hi.1 fun ht => hk (hr key ht)
      exact ⟨S.sensible hi.1 r, S.holds r s' hi.1, hf.trans hi.2⟩) ⟨hs, rfl⟩
  exact hrun.2

theorem ObjectStore.stored_of_goes {σ α : Type} {h : Proc.Handler σ} (S : ObjectStore h) {p : Proc α} {keys : List ObjectKey}
    (hp : p.WritesOnly keys) {key : ObjectKey} (hk : key ∉ keys) {a : α} {t : List Exchange} {s s' : σ} (hs : S.Holds s)
    (hg : p.Goes h s a t s') : S.stored s' key = S.stored s key := by
  have hrun := S.stored_of_writesOnly hp hk hs
  rw [hg.1] at hrun
  exact hrun

end IngressOperator
