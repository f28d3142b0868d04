import IngressOperator.Proofs.Control.Frame
import IngressOperator.Proofs.Store.Custody

/-!
# What is told of an object that was kept

Keeping an object tells the truth, whatever calls fail and whatever other clients do meanwhile: it asks for the object to be created
first and once, it writes at most once, and its answer says what it wrote. Owners that an object has are never replaced.

## Main statements

* `KeepingCourse.truthful`: what keeping an object tells, and what it wrote.
* `ensures_honest`: keeping an object tells the truth among other clients, and leaves owners as they are.
* `owners_drop_members`: a route that only gets owners does lose what the operator does not know of.
-/

namespace IngressOperator

/-! ### Telling the truth -/

/-- Whether an answer tells what was written in some exchanges: a creation of the desired object is asked for first and not again,
at most one write succeeds, and the answer says which. What is written over an object is what was read of it, changed as `P` allows;
an object that is there and then is not is said not to be found, and a call that fails is told with its own failure. -/
structure Truthful (k : Kind) (desired : k.Object) (ns name : String) (idle : Outcome) (P : k.Object → k.Object → Prop)
    (answer : Except Failure Synced) (t : List Exchange) : Prop where
  first : ∃ made rest, t = ⟨.create k desired, made⟩ :: rest ∧ ∀ x ∈ rest, ∀ k' y, x.request ≠ .create k' y
  once : (t.filter Exchange.lands).length ≤ 1
  told : (∃ e, answer = .error e) ∨ ∃ outcome ∈ [Outcome.created, .updated, idle], answer = .ok ⟨k, name, outcome⟩
  created : answer = .ok ⟨k, name, .created⟩ ↔ t.filter Exchange.lands = [⟨.create k desired, .ok .new⟩]
  updated : answer = .ok ⟨k, name, .updated⟩ ↔ ∃ x z, t.filter Exchange.lands = [⟨.update k x, .ok z⟩]
  nothing : (answer = .ok ⟨k, name, idle⟩ ∨ ∃ e, answer = .error e) ↔ t.filter Exchange.lands = []
  gone : ∀ rest, t = ⟨.create k desired, .ok .alreadyExists⟩ :: ⟨.get k ns name, .ok none⟩ :: rest →
    answer = .error (.notFound k.name name)
  failed : ∀ e, ⟨.create k desired, .error e⟩ ∈ t ∨ ⟨.get k ns name, .error e⟩ ∈ t ∨ (∃ x, ⟨.update k x, .error e⟩ ∈ t) →
    answer = .error e
  revised : ∀ x z, ⟨.update k x, z⟩ ∈ t → ∃ live, ⟨.get k ns name, .ok (some live)⟩ ∈ t ∧ P live x

variable {k : Kind} {desired : k.Object} {ns name : String} {revise : k.Object → Option k.Object} {idle : Outcome}
  {σ : Type} {R : Serving σ} {s s' : σ} {answer : Except Failure Synced} {t : List Exchange}

/-- The answer says which write succeeded. -/
theorem KeepingCourse.tells (hidle : idle.mutated = false) (h : KeepingCourse R k desired ns name revise idle s answer t s') :
    (answer = .ok ⟨k, name, .created⟩ ↔ t.filter Exchange.lands = [⟨.create k desired, .ok .new⟩]) ∧
      (answer = .ok ⟨k, name, .updated⟩ ↔ ∃ x z, t.filter Exchange.lands = [⟨.update k x, .ok z⟩]) ∧
      ((answer = .ok ⟨k, name, idle⟩ ∨ ∃ e, answer = .error e) ↔ t.filter Exchange.lands = []) := by
  have hcreated : idle ≠ .created := fun he => by simp [he, Outcome.mutated] at hidle
  have hupdated : idle ≠ .updated := fun he => by simp [he, Outcome.mutated] at hidle
  rcases h.landed with ⟨rfl, hl⟩ | ⟨rfl, x, z, hl⟩ | ⟨hquiet, hl⟩
  · simp [hl, hcreated.symm]
  · simp [hl, hupdated.symm]
  · rcases hquiet with rfl | ⟨e, rfl⟩
    · simp [hl, hcreated, hupdated]
    · simp [hl]

/-- Each course tells the truth. -/
theorem KeepingCourse.truthful {P : k.Object → k.Object → Prop} (hidle : idle.mutated = false)
    (hP : ∀ {live x}, revise live = some x → P live x) (h : KeepingCourse R k desired ns name revise idle s answer t s') :
    Truthful k desired ns name idle P answer t where
  first := by cases h <;> exact ⟨_, _, rfl, by simp⟩
  once := by
    rcases h.landed with ⟨-, hl⟩ | ⟨-, x, z, hl⟩ | ⟨-, hl⟩ <;> simp [hl]
  told := by cases h <;> simp
  created := (h.tells hidle).1
  updated := (h.tells hidle).2.1
  nothing := (h.tells hidle).2.2
  gone rest ht := by
    cases h with
    | gone => rfl
    | _ => simp at ht
  failed e hfailed := by
    cases h <;> simp_all
  revised x z hx := by
    cases h with
    | @rejected live x' e _ _ _ _ _ hr =>
      obtain ⟨rfl, -⟩ : x = x' ∧ z = .error e := by simpa using hx
      exact ⟨live, by simp, hP hr⟩
    | @updated live x' z' _ _ _ _ _ hr =>
      obtain ⟨rfl, -⟩ : x = x' ∧ z = .ok z' := by simpa using hx
      exact ⟨live, by simp, hP hr⟩
    | _ => simp at hx

/-! ### Among other clients -/

/-- As far as a program has come among other clients, it goes on to yield what it yields from the start, whatever its requests are
answered. -/
theorem Reaches.yields_anyhow {α : Type} {p q : Proc α} {w w' : SharedStore} {turns : List Turn} (hr : Reaches p w turns q w')
    {a : α} {t : List Exchange} (hy : q.Yields (fun (_ : Unit) _ _ _ => True) () a t ()) :
    p.Yields (fun (_ : Unit) _ _ _ => True) () a (exchanges turns ++ t) () := by
  induction hr generalizing t with
  | start => exact hy
  | foreign _ _ ih =>
    rw [exchanges_foreign]
    exact ih hy
  | own _ _ ih =>
    rw [exchanges_own, List.append_assoc]
    exact ih (.ask trivial hy)

/-- Keeping an object takes one of the courses among other clients, whatever is in the store. -/
theorem KeepingCourse.of_reaches {w w' : SharedStore} {turns : List Turn} {answer : Except Failure Synced}
    (hk : k.key desired = .ok (ns, name)) (hr : Reaches (keeping k desired revise idle).run w turns (.done answer) w') :
    KeepingCourse (fun _ _ _ _ => True) k desired ns name revise idle () answer (exchanges turns) () := by
  have hy := hr.yields_anyhow (.done answer ())
  rw [List.append_nil] at hy
  exact .of_yields hk hy

/-- What a program may ask for, it may ask for however far it has come among other clients. -/
theorem Reaches.asks {α : Type} {p q : Proc α} {w w' : SharedStore} {turns : List Turn} {P : Request → Prop}
    (hr : Reaches p w turns q w') (hp : p.Asks (fun _ _ => True) P) : q.Asks (fun _ _ => True) P := by
  induction hr with
  | start => exact hp
  | foreign _ _ ih => exact ih
  | own _ _ ih => exact ih.2 _ trivial

/-- Whether every document stays, except that the one of a name may give way to one that was written over what was read from it, as
`P` allows. -/
def Replaces (k : Kind) (ns name : String) (P : k.Object → k.Object → Prop) (w w' : SharedStore) : Prop :=
  ∀ key j, w.stored key = some j → w'.stored key = some j ∨
    key = k.keyAt ns name ∧ ∃ live x version, k.decode? j = some live ∧ P live x ∧
      w'.stored key = some (k.encode (k.withVersion x version))

theorem Replaces.mono {P Q : k.Object → k.Object → Prop} {w w' : SharedStore} (h : Replaces k ns name P w w')
    (hPQ : ∀ {live x}, P live x → Q live x) : Replaces k ns name Q w w' := by
  intro key j hj
  rcases h key j hj with hsame | ⟨hkey, live, x, version, hx, hp, hnew⟩
  · exact .inl hsame
  · exact .inr ⟨hkey, live, x, version, hx, hPQ hp, hnew⟩

section

variable {w w₁ w₂ : SharedStore} {turns : List Turn}

/-- A request of keeping an object leaves every document, or puts a revision in the place of the one that was read. -/
theorem replaces_keeping (hw : w.Sound) (hk : k.key desired = .ok (ns, name)) (hadopting : Adopting k revise) {r : Request}
    {next : r.Answer → Proc (Except Failure Synced)} (hr : Reaches (keeping k desired revise idle).run w turns (.ask r next) w₁)
    {answer : r.Answer} (hs : w₁.Serves r answer w₂) :
    Replaces k ns name (fun live x => revise live = some x) w₁ w₂ := by
  let R : Lookup → Request → Prop := fun lookup r =>
    ∃ live x, lookup = ⟨k, ns, name, live⟩ ∧ r = .update k x ∧ revise live = some x
  have hcareful : (keeping k desired revise idle).run.Careful R none :=
    careful_revising hk fun {live x} hx => ⟨live, x, rfl, rfl, hx⟩
  have hasks : (keeping k desired revise idle).run.Asks (fun _ _ => True) fun r => r.Looks ∨ r.Puts :=
    asks_keeping hk (.inr trivial) (.inl trivial) fun _ _ => .inr trivial
  obtain ⟨-, hand, hq, hheld⟩ := hr.holding hw hcareful
  have hput := (hr.asks hasks).1
  intro key j hj
  cases hs with
  | found => exact .inl hj
  | absent => exact .inl hj
  | @created k' x y key' version hk' hn hy fresh =>
    -- what is created takes no document's place
    have hne : key ≠ key' := fun he => by
      rw [he, hn] at hj
      cases hj
    exact .inl ((SharedStore.stored_put_of_ne version _ hne).trans hj)
  | «exists» => exact .inl hj
  | @updated _ _ z _ _ _ hkx hjx hv fresh =>
    -- what is replaced is what was read
    have hserved := SharedStore.Serves.updated (z := z) hkx hjx hv fresh
    obtain ⟨lookup, hlookup, live, x, rfl, heq, hx⟩ := hq.1 trivial
    cases heq
    obtain ⟨since, before, j₀, version₀, -, hh⟩ := hheld _ hlookup
    obtain ⟨refs, hmeta, -⟩ := hadopting hx
    have hversion : k.version x = k.version live := by rw [Kind.version, hmeta, Kind.version]
    rcases hh.serves_update (by rw [hmeta]) (by rw [hmeta]) hversion hserved with ⟨-, v, -, -, hstored, -, hput'⟩ | ⟨e, he, -⟩
    · rw [hput']
      by_cases hkey : key = k.keyAt ns name
      · subst hkey
        have hread : j = j₀ := Option.some.inj (hj.symm.trans hstored)
        exact .inr ⟨rfl, live, x, v, hread ▸ hh.object, hx, SharedStore.stored_put_self _ _ _ _⟩
      · exact .inl ((SharedStore.stored_put_of_ne v _ hkey).trans hj)
    · cases he
  | deleted => rcases hput with h | h <;> exact absurd h id
  | reported => rcases hput with h | h <;> exact absurd h id
  | unmoved => exact .inl hj

/-- An object that another client deletes after it could not be created is not found. -/
theorem reaches_vanished (hk : k.key desired = .ok (ns, name)) (revise : k.Object → Option k.Object) (idle : Outcome) {j : Json}
    (hj : w.stored (k.keyAt ns name) = some j) :
    Reaches (keeping k desired revise idle).run w
      [.own ⟨.get k ns name, .ok none⟩, .foreign (k.keyAt ns name), .own ⟨.create k desired, .ok .alreadyExists⟩]
      (.done (.error (.notFound k.name name))) (w.erase (k.keyAt ns name)) := by
  have hkey : k.objectKey? desired = some (k.keyAt ns name) := Kind.objectKey?_eq.2 (Kind.key_eq_ok.1 hk)
  have herased : (w.erase (k.keyAt ns name)).stored (k.keyAt ns name) = none := by simp [SharedStore.erase]
  obtain ⟨next, hrun, next', hget, hgone⟩ : ∃ next, (keeping k desired revise idle).run = .ask (.create k desired) next ∧
      ∃ next', next (.ok .alreadyExists) = .ask (.get k ns name) next' ∧
        next' (.ok none) = .done (.error (.notFound k.name name)) := ⟨_, run_keeping hk _ _, _, rfl, rfl⟩
  have hcreated := (Reaches.start (p := .ask (.create k desired) next) (w := w)).own (.exists hkey hj)
  rw [hget] at hcreated
  have hread := (hcreated.foreign (.erase (k.keyAt ns name))).own (.absent herased)
  rw [hgone] at hread
  rw [hrun]
  exact hread

end

/-- Whether a program keeps an object and tells the truth of it on a store to which other clients write between its requests: what it
ends with tells what was written, nothing changes by a request that writes nothing, and none takes a document away, except that the
object may be written over as `P` allows. -/
structure Honest (p : Proc (Except Failure Synced)) (k : Kind) (desired : k.Object) (ns name : String) (idle : Outcome)
    (P : k.Object → k.Object → Prop) (w : SharedStore) : Prop where
  truthful : ∀ {turns answer w'}, Reaches p w turns (.done answer) w' →
    Truthful k desired ns name idle P answer (exchanges turns)
  unwritten : ∀ {turns r next w₁ answer w₂}, Reaches p w turns (.ask r next) w₁ → w₁.Serves r answer w₂ →
    Exchange.lands ⟨r, answer⟩ = false → w₂ = w₁
  replaces : w.Sound → ∀ {turns r next w₁ answer w₂}, Reaches p w turns (.ask r next) w₁ → w₁.Serves r answer w₂ →
    Replaces k ns name P w₁ w₂

/-- Keeping an object by a revision that leaves owners is honest. -/
theorem honest_keeping {P : k.Object → k.Object → Prop} (w : SharedStore) (hk : k.key desired = .ok (ns, name))
    (hidle : idle.mutated = false) (hadopting : Adopting k revise) (hP : ∀ {live x}, revise live = some x → P live x) :
    Honest (keeping k desired revise idle).run k desired ns name idle P w where
  truthful hr := (KeepingCourse.of_reaches hk hr).truthful hidle hP
  unwritten _ hs hl := hs.eq_of_not_lands hl
  replaces hw _ _ _ _ _ _ hr hs := (replaces_keeping hw hk hadopting hr hs).mono hP

/-- Whether what is written over an object has the same owners, if the object has any. -/
def Kind.LeavesOwners (k : Kind) (live x : k.Object) : Prop :=
  k.owners live ≠ [] → (k.metadata x).ownerReferences = (k.metadata live).ownerReferences

/-- Whether what is written over an object is that object with owners, of which it has none. -/
def Kind.OnlyOwns (k : Kind) (refs : List OwnerReference) (live x : k.Object) : Prop :=
  k.owners live = [] ∧ x = k.withOwners live refs

/-- Keeping an object tells the truth, whatever calls fail and whatever other clients do between them, deleting the object included.
Neither way of keeping one replaces owners that are stored; an object that is only to exist is written over by itself, with owners,
if it has none. -/
theorem ensures_honest (w : SharedStore) (owner : ManagementIngress) :
    (∀ (k : OwnedKind) (desired : k.kind.Object) (ns name : String), k.kind.key desired = .ok (ns, name) →
      Honest (ensure owner k desired).run k.kind (owned owner k.kind desired) ns name .unchanged k.kind.LeavesOwners w) ∧
    ∀ (k : Kind) (desired : k.Object) (ns name : String), k.key desired = .ok (ns, name) →
      Honest (ensureCreated owner k desired).run k (owned owner k desired) ns name .existing
        (k.OnlyOwns (k.owners (owned owner k desired))) w := by
  constructor
  · intro k desired ns name hk
    rw [ensure_eq]
    refine honest_keeping w (key_owned owner hk) rfl (adopting_revision k _) fun {live x} hx howned => ?_
    obtain ⟨refs, hmeta, hrefs⟩ := adopting_revision k _ hx
    rw [hmeta]
    exact hrefs howned
  · intro k desired ns name hk
    rw [ensureCreated_eq]
    exact honest_keeping w (key_owned owner hk) rfl (adopting_adoption k _) adoption_eq_some

open Cluster

/-- A route that another client deletes after it could not be created is said not to be found. -/
theorem vanished_route_honest :
    ∃ (w w' : SharedStore) (turns : List Turn), w.Sound ∧ Turn.foreign (Kind.route.keyAt "ns" Names.consoleRoute) ∈ turns ∧
      Reaches (ensureCreated Small.ingress .route Rerouted.route).run w turns
        (.done (.error (.notFound Kind.route.name Names.consoleRoute))) w' ∧
      Truthful .route (owned Small.ingress .route Rerouted.route) "ns" Names.consoleRoute .existing
        (Kind.route.OnlyOwns (Kind.route.owners (owned Small.ingress .route Rerouted.route)))
        (.error (.notFound Kind.route.name Names.consoleRoute)) (exchanges turns) := by
  let w := Pass.smallStore.put (Kind.route.keyAt "ns" Names.consoleRoute) "3" (Kind.encode .route Rerouted.route)
  have hw : w.Sound := Pass.sound_smallStore.put Pass.fresh_rerouted
  have hk : Kind.route.key Rerouted.route = .ok ("ns", Names.consoleRoute) := rfl
  have hstored : w.stored (Kind.route.keyAt "ns" Names.consoleRoute) = some _ := SharedStore.stored_put_self _ _ _ _
  have hreach := reaches_vanished (key_owned Small.ingress hk) (adoption .route (owned Small.ingress .route Rerouted.route))
    .existing hstored
  rw [← ensureCreated_eq] at hreach
  have hhonest := (ensures_honest w Small.ingress).2 .route Rerouted.route "ns" Names.consoleRoute hk
  exact ⟨w, _, _, hw, .tail _ (.head _), hreach, hhonest.truthful hreach⟩

/-- A route that gets owners is not only changed in its metadata. -/
theorem owners_drop_members :
    ¬ ∀ (owner : ManagementIngress) (k : Kind) (desired : k.Object) (facts : ClusterFacts) (c : Cluster) (ns name : String)
        (j j' : Json), c.Calm facts → k.key desired = .ok (ns, name) → c.objects.get? (k.keyAt ns name) = some j →
        ((ensureCreated owner k desired).run.run Direct.handler c).2.objects.get? (k.keyAt ns name) = some j' →
          ∀ member, member ≠ "metadata" → j'.get? member = j.get? member := by
  intro hclaim
  have hafter : (((ensureCreated Small.ingress .route Control.Unnoticed.route).run.run Direct.handler
      Control.Unnoticed.cluster).2.objects.get? (Kind.route.keyAt "ns" Names.proxyRoute)).map
        (fun j => j.path? ["spec", "tls", "externalCertificate"]) = some none := by
    decide +kernel
  obtain ⟨j', hj', hlost⟩ := Option.map_eq_some_iff.1 hafter
  have hkept := hclaim Small.ingress .route Control.Unnoticed.route Rerouted.facts Control.Unnoticed.cluster "ns" Names.proxyRoute
    Control.Unnoticed.document j' Control.Unnoticed.calm rfl rfl hj' "spec" (by decide)
  have hspec : (j'.get? "spec").bind (Json.path? ["tls", "externalCertificate"]) = none := hlost
  rw [hkept] at hspec
  cases hspec

end IngressOperator
