import IngressOperator.Proofs.Cluster.Shared
import IngressOperator.Proofs.Ensure.Course
import IngressOperator.Proofs.Steps.Parts

/-!
# Passes among other clients

A pass updates nothing but an object that it has just read, and what it writes preserves that object. On a store that is shared
with other clients, whatever they do between any two of its requests, it therefore never writes over what it has not read.

## Main statements

* `Pass.careful_run`: a pass updates nothing but what it has just read.
* `Pass.updates_faithful`: where every update of a pass leaves the store.
-/

namespace IngressOperator

/-! ### What is written over what was read -/

/-- Whether a request writes an object over the one that was read, as its version, with what a pass does not track preserved. -/
inductive Overwrites (owner : ManagementIngress) : Lookup → Request → Prop where
  | mk {k : OwnedKind} {ns name : String} {live x : k.kind.Object} (preserves : Preserves owner.owning k live x)
    (version : k.kind.version x = k.kind.version live) (ns_eq : (k.kind.metadata x).ns = (k.kind.metadata live).ns)
    (name_eq : (k.kind.metadata x).name = (k.kind.metadata live).name) :
    Overwrites owner ⟨k.kind, ns, name, live⟩ (.update k.kind x)

/-- A revision that settles and preserves is one that may be written over what was read. -/
theorem Settles.overwrites {owner : ManagementIngress} {k : OwnedKind} {desired live x : k.kind.Object}
    {revise : k.kind.Object → Option k.kind.Object} (hr : Settles k.kind desired revise) (hx : revise live = some x)
    (hp : Preserves owner.owning k live x) (ns name : String) :
    Overwrites owner ⟨k.kind, ns, name, live⟩ (.update k.kind x) :=
  .mk hp (hr.version hx) (hr.ns hx) (hr.name hx)

section

variable {owner : ManagementIngress} {hand : Option Lookup}

/-- A request that is no update may be made with anything in hand. -/
theorem careful_request {R : Lookup → Request → Prop} {r : Request} (hr : ¬ r.Updates) :
    (Proc.request r).Careful R hand :=
  ⟨fun h => absurd h hr, fun _ => trivial⟩

/-- An object is kept by writing over what was just read. -/
theorem careful_keeping {k : OwnedKind} {desired : k.kind.Object} {revise : k.kind.Object → Option k.kind.Object} {idle : Outcome}
    {ns name : String} (hk : k.kind.key desired = .ok (ns, name)) (hr : Settles k.kind desired revise)
    (hp : ∀ {live x}, revise live = some x → Preserves owner.owning k live x) :
    (keeping k.kind desired revise idle).run.Careful (Overwrites owner) hand :=
  careful_revising hk fun hx => hr.overwrites hx (hp hx) ns name

/-- The pods of the operand are replaced by writing over the deployment that was just read. -/
theorem careful_restart (ns : String) : (Steps.restart ns).run.Careful (Overwrites owner) hand := by
  rw [Steps.run_restart]
  refine ⟨nofun, fun found => ?_⟩
  rcases found with e | (_ | d)
  · trivial
  · trivial
  · refine ⟨nofun, fun now => ⟨fun _ => ⟨_, rfl, ?_⟩, fun answer => ?_⟩⟩
    · exact .mk (k := .deployment) (preserves_stamped _ d now) rfl rfl rfl
    · cases answer with
      | error e => trivial
      | ok z => trivial

end

namespace Pass

variable {ingress : ManagementIngress}

/-- The parts of a pass update nothing but what they have just read. -/
theorem careful_parts (ingress : ManagementIngress) (ns : String) :
    Whole ingress ns fun p => ∀ hand, p.Careful (Overwrites ingress) hand where
  done _ _ := trivial
  bind hp hf hand := (hp hand).bind hf
  look r hr hand := by
    refine careful_request fun hu => ?_
    cases r with
    | update _ _ => exact hr
    | _ => exact hu
  ensure k desired hd hf hand := by
    obtain ⟨name, hk⟩ := hd.key
    rw [ensure_eq]
    refine careful_keeping (key_owned ingress hk) (settles_revision k (changed_owned ingress hd.same)) fun hx => ?_
    rw [← OwnedKind.owners_owned ingress hd.unowned]
    exact preserves_revision (OwnedKind.fits_owned ingress hf) hx
  ensureCreated k desired hd hand := by
    obtain ⟨name, hk⟩ := hd.key
    rw [ensureCreated_eq]
    refine careful_keeping (key_owned ingress hk) (settles_adoption k.kind _) fun hx => ?_
    rw [← OwnedKind.owners_owned ingress hd.unowned]
    exact preserves_adoption hx
  restart _ := careful_restart ns
  remove _ := careful_request id
  report _ _ := careful_request id

/-- A pass updates nothing but what it has just read. -/
theorem careful_run (setup : Setup) (ingress : ManagementIngress) :
    (run setup ingress).Careful (Overwrites ingress) none := by
  cases hns : ingress.metadata.ns with
  | none =>
    unfold run
    simp only [hns]
    trivial
  | some ns => exact (careful_parts ingress ns).run setup hns none

/-! ### Interleavings -/

/-- How an update of a pass ends, after turns of which the latest comes first. If it is accepted, then it replaces the very document
that the pass read last, since when no other client wrote under its key, and what is written preserves the object that was read;
else it changes nothing. -/
inductive Faithful (owner : ManagementIngress) (t : List Turn) (w : SharedStore) : (r : Request) → r.Answer → SharedStore → Prop where
  | replaced {k : OwnedKind} {ns name : String} {live x z : k.kind.Object} {since before : List Turn} {j : Json} {version : String}
    (turns : t = since ++ .own ⟨.get k.kind ns name, .ok (some live)⟩ :: before) (idle : ∀ turn ∈ since, turn.Idle)
    (untouched : .foreign (k.kind.keyAt ns name) ∉ since) (stored : w.stored (k.kind.keyAt ns name) = some j)
    (read : k.kind.decode? j = some live) (preserves : Preserves owner.owning k live x)
    (fresh : w.Fresh (k.kind.keyAt ns name) version (k.kind.encode (k.kind.withVersion x version))) :
    Faithful owner t w (.update k.kind x) (.ok z)
      (w.put (k.kind.keyAt ns name) version (k.kind.encode (k.kind.withVersion x version)))
  | rejected {k : OwnedKind} {x : k.kind.Object} (e : Failure) : Faithful owner t w (.update k.kind x) (.error e) w

/-- Whatever other clients do between the requests of a pass, each of its updates replaces the very document that it read last, or
it is rejected and changes nothing. -/
theorem updates_faithful (setup : Setup) (ingress : ManagementIngress) {w₀ w w' : SharedStore} (hw : w₀.Sound) {t : List Turn}
    {r : Request} {next : r.Answer → Proc (Except PassFailure PassOutcome)}
    (hr : Reaches (run setup ingress) w₀ t (.ask r next) w) (hu : r.Updates) {answer : r.Answer} (hs : w.Serves r answer w') :
    Faithful ingress t w r answer w' := by
  obtain ⟨-, hand, hcareful, hheld⟩ := hr.holding hw (careful_run setup ingress)
  obtain ⟨lookup, hlookup, hover⟩ := hcareful.1 hu
  obtain ⟨since, before, j, version, rfl, hh⟩ := hheld lookup hlookup
  cases hover with
  | mk hpreserves hversion hns hname =>
    rcases hh.serves_update hns hname hversion hs with ⟨z, v, rfl, huntouched, hstored, hfresh, rfl⟩ | ⟨e, rfl, rfl⟩
    · exact .replaced rfl hh.idle huntouched hstored hh.object hpreserves hfresh
    · exact .rejected e

/-! ### On a small cluster -/

open Cluster

/-- What is written over what was read is no custom resource. -/
theorem careful_sparing {α : Type} {p : Proc α} {hand : Option Lookup} (hp : p.Careful (Overwrites ingress) hand) :
    p.Asks (fun _ _ => True) Direct.Sparing := by
  induction p generalizing hand with
  | done a => trivial
  | ask r next ih =>
    refine ⟨?_, fun answer _ => ih answer (hp.2 answer)⟩
    cases r with
    | update k x =>
      obtain ⟨lookup, -, hover⟩ := hp.1 trivial
      cases hover with
      | @mk k => cases k <;> exact nofun
    | _ => trivial

/-- The store of the small cluster. -/
def smallStore : SharedStore where
  stored key := Small.cluster.objects.get? key
  given _ := ["1", "2"]

/-- The small cluster's documents are of the versions that were given. -/
theorem sound_smallStore : smallStore.Sound := by
  intro key j hj
  refine ⟨Small.calm.filed key j hj, ?_⟩
  simp only [smallStore, Small.cluster, Objects.get?_put] at hj
  split at hj
  · cases hj
    exact ⟨"2", .tail _ (.head _), versionOf_encode .secret Small.secret⟩
  · split at hj
    · cases hj
      exact ⟨"1", .head _, versionOf_encode .managementIngress Small.ingress⟩
    · cases hj

/-- The store keeps what the small cluster does, and no version was given that the cluster is still to give. -/
theorem mirrors_small : Mirrors {} Small.cluster smallStore where
  calm := Small.calm
  stored _ := rfl
  given key version hm := by
    rcases List.mem_cons.1 hm with rfl | hm
    · exact ⟨1, by decide, rfl⟩
    · exact ⟨2, by decide, List.mem_singleton.1 hm⟩

/-- Another client may put a route into the small cluster that leads elsewhere. -/
theorem fresh_rerouted : smallStore.Fresh (Kind.route.keyAt "ns" Names.consoleRoute) "3" (Kind.encode .route Rerouted.route) :=
  ⟨filed_encode rfl rfl rfl, versionOf_encode .route Rerouted.route, by decide⟩

theorem mirrors_rerouted : Mirrors Rerouted.facts Rerouted.cluster
    (smallStore.put (Kind.route.keyAt "ns" Names.consoleRoute) "3" (Kind.encode .route Rerouted.route)) where
  calm := Rerouted.calm
  stored key := Objects.get?_put.symm
  given key version hm := by
    have hmem : version ∈ ["3", "1", "2"] := by
      unfold SharedStore.put at hm
      dsimp only at hm
      split at hm
      · exact hm
      · exact List.mem_cons_of_mem _ hm
    rcases List.mem_cons.1 hmem with rfl | hmem
    · exact ⟨3, by decide, rfl⟩
    · rcases List.mem_cons.1 hmem with rfl | hmem
      · exact ⟨1, by decide, rfl⟩
      · exact ⟨2, by decide, List.mem_singleton.1 hmem⟩

/-- Whether a program asks next for a route to be replaced. -/
def replacesRoute {α : Type} : Proc α → Bool
  | .ask (.update .route _) _ => true
  | _ => false

/-- A pass that finds a route which another client put into the small cluster replaces it as it was read. -/
theorem rerouted_update_faithful :
    ∃ (t : List Turn) (r : Request) (next : r.Answer → Proc (Except PassFailure PassOutcome)) (answer : r.Answer)
      (w w' : SharedStore), Turn.foreign (Kind.route.keyAt "ns" Names.consoleRoute) ∈ t ∧
        Reaches (run { certificatesServed := false } Small.ingress) smallStore t (.ask r next) w ∧ r.Updates ∧
          w.Serves r answer w' ∧ Faithful Small.ingress t w r answer w' := by
  have hput := Reaches.foreign (.start (p := run { certificatesServed := false } Small.ingress)) (.put fresh_rerouted)
  obtain ⟨u, w, hr, hm⟩ := Direct.reaches_advance hput mirrors_rerouted (careful_sparing (careful_run _ _)) 16
  have hcheck : replacesRoute ((run { certificatesServed := false } Small.ingress).advance Direct.handler 16 Rerouted.cluster).1 =
      true := by decide +kernel
  unfold replacesRoute at hcheck
  split at hcheck
  · next x next heq =>
    rw [heq] at hr
    obtain ⟨w', hs, -⟩ := Direct.serves hm (.update .route x) (show Kind.route ≠ .managementIngress by decide)
    refine ⟨_, _, next, _, w, w', ?_, hr, trivial, hs, updates_faithful _ _ sound_smallStore hr trivial hs⟩
    exact List.mem_append_right _ List.mem_cons_self
  · cases hcheck

end Pass

end IngressOperator
