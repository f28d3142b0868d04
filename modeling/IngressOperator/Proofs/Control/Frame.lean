import IngressOperator.Proofs.Control.Events
import IngressOperator.Proofs.Pass.Owned
import IngressOperator.Proofs.Status.Restated

/-!
# What calls of the controller leave alone

However often the controller is called for a custom resource, and whatever calls of the store fail, nothing is touched but the
objects of the operand in the namespace of the resource, and the status of the resource itself.

## Main statements

* `Control.calls_spare`: what calls of the controller leave of a store, and what they ask for.
* `Control.adoption_drops_members`: a route that gets owners does lose what the operator does not know of.
-/

namespace IngressOperator

open SharedStore

variable {setup : Setup} {ingress : ManagementIngress} {ns name : String} {w w₁ w' : SharedStore}

/-! ### One request -/

/-- Whether a store is left as it was but for the objects of the operand in a namespace, and for the status of the custom resource
of a name there. -/
structure Spares (ns name : String) (w w' : SharedStore) : Prop where
  frame : ∀ key, key ∉ ownedKeys ns → key ≠ Kind.managementIngress.keyAt ns name → w'.stored key = w.stored key
  resource : Restates (w.stored (Kind.managementIngress.keyAt ns name)) (w'.stored (Kind.managementIngress.keyAt ns name))

theorem Spares.refl (ns name : String) (w : SharedStore) : Spares ns name w w := ⟨fun _ _ _ => rfl, .refl _⟩

theorem Spares.trans (h : Spares ns name w w₁) (h' : Spares ns name w₁ w') : Spares ns name w w' where
  frame key hk hne := (h'.frame key hk hne).trans (h.frame key hk hne)
  resource := h.resource.trans h'.resource

/-- A request that may be made for a custom resource spares the rest of the store. -/
theorem SharedStore.Reporting.spares (hk : Kind.objectKey? .managementIngress ingress = some (Kind.managementIngress.keyAt ns name))
    {r : Request} (hr : r.Within setup ingress ns) {answer : r.Answer} (hs : w.Reporting r answer w') : Spares ns name w w' where
  frame key hkey hne := by
    refine hs.serves.frame ?_
    intro ht
    rcases hr.target? ht with hm | ⟨-, hown⟩
    · exact hkey hm
    · exact hne (Option.some.inj (hown.symm.trans hk))
  resource := by
    by_cases hreports : r.Reports
    · exact hs.restates hreports _
    · have hframe : w'.stored (Kind.managementIngress.keyAt ns name) = w.stored (Kind.managementIngress.keyAt ns name) := by
        refine hs.serves.frame ?_
        intro ht
        rcases hr.target? ht with hm | ⟨hreports', -⟩
        · exact ingress_not_mem_ownedKeys ns ns name hm
        · exact hreports hreports'
      rw [hframe]
      exact .refl _

namespace Control

/-! ### One call -/

/-- A call of the controller asks for nothing that is not its own. -/
theorem asks_reconcile (hns : ingress.metadata.ns = some ns) (state : State) :
    (reconcile setup state ingress).Asks ObjectStore.Sensible (Request.Within setup ingress ns) := by
  have hrun := (Pass.permits_within setup ingress ns).entire.run hns (fun _ hm => hm) id
  exact Proc.Asks.composes.reconcile (Proc.Asks.request trivial) (fun e => Proc.Asks.request rfl) hrun

/-- It leaves a route of the proxy as it is but for its owners, and deletes nothing that may stay. -/
theorem minds_reconcile (hns : ingress.metadata.ns = some ns) (state : State) :
    (reconcile setup state ingress).Leaves Serves (Minds ns) := by
  have hrun : (Pass.run setup ingress).Leaves Serves (Minds ns) :=
    (Pass.minds_entire setup.steps ingress ns).run hns (fun _ hm => hm) fun _ => trivial
  have hnow : (Proc.request .now).Leaves Serves (Minds ns) := minds_of_looks (r := .now) trivial
  have hpublish (e : Event) : (Proc.request (.publish ingress e)).Leaves Serves (Minds ns) :=
    minds_of_looks (r := .publish ingress e) trivial
  intro w a t w' hy
  exact (chains_minds ns).composes.reconcile hnow hpublish hrun hy

/-! ### Calls -/

/-- A call of the controller: for which custom resource, and what was exchanged with the store. -/
structure Call where
  ingress : ManagementIngress
  exchanges : List Exchange

/-- Whether calls of a controller for the custom resource of a name may be made one after the other, and how they leave the store.
The custom resource need not be the same each time, nor what the controller keeps between calls. -/
inductive Calls (setup : Setup) (ns name : String) : SharedStore → List Call → SharedStore → Prop where
  | none (w : SharedStore) : Calls setup ns name w [] w
  | call {state state' : State} {ingress : ManagementIngress} {result : Except PassFailure Next} {t : List Exchange}
    {calls : List Call} {w w₁ w' : SharedStore}
    (hk : Kind.objectKey? .managementIngress ingress = some (Kind.managementIngress.keyAt ns name))
    (hy : (reconcile setup state ingress).Yields Reporting w (state', result) t w₁) (hc : Calls setup ns name w₁ calls w') :
    Calls setup ns name w (⟨ingress, t⟩ :: calls) w'

/-- Whether a call asked for nothing that is not its own, and deleted nothing that may stay. -/
structure Call.Confined (setup : Setup) (ns : String) (call : Call) : Prop where
  within : ∀ x ∈ call.exchanges, x.request.Within setup call.ingress ns
  removes : RemovesLegacy ns call.exchanges

/-- However often the controller is called for a custom resource, whatever calls of the store fail: but for the objects of the
operand, all is left as it was, and of the custom resource all but the status and the version; a route of the proxy that is there
gets owners, if it has none, and stays as it was read. No call asks for anything that is not its own. -/
theorem calls_spare {calls : List Call} (hw : w.Sound) (hc : Calls setup ns name w calls w') :
    Spares ns name w w' ∧ MindsProxy ns w w' ∧ ∀ call ∈ calls, call.Confined setup ns := by
  induction hc with
  | none w => exact ⟨.refl ns name w, .of_eq rfl, fun _ hm => absurd hm List.not_mem_nil⟩
  | @call state state' ingress result t calls w w₁ w' hk hy hc ih =>
    have hns : ingress.metadata.ns = some ns := (Kind.of_objectKey? hk).2.1
    have hserves := hy.mono fun hs => hs.serves
    obtain ⟨hw₁, hproxy, hremoves⟩ := minds_reconcile hns state hserves hw
    have hrun := Proc.Asks.yields (I := fun v => v.Sound ∧ Spares ns name w v) (asks_reconcile hns state)
      (fun hr hi hs => ⟨hs.serves.sensible hi.1, hi.1.serves hs.serves, hi.2.trans (hs.spares hk hr)⟩) ⟨hw, .refl ns name w⟩ hy
    obtain ⟨⟨-, hspares⟩, hwithin⟩ := hrun
    obtain ⟨hspares', hproxy', hconfined⟩ := ih hw₁
    refine ⟨hspares.trans hspares', hproxy.trans hproxy', ?_⟩
    intro call hm
    rcases List.mem_cons.1 hm with rfl | hm
    · exact ⟨hwithin, hremoves⟩
    · exact hconfined call hm

open Cluster

/-- A call for the custom resource of the small cluster, which is the same afterwards as before but for its status. -/
theorem small_calls_spare :
    ∃ t w', Pass.smallStore.Sound ∧ Calls Small.setup "ns" "default" Pass.smallStore [⟨Small.ingress, t⟩] w' ∧
      Spares "ns" "default" Pass.smallStore w' ∧ MindsProxy "ns" Pass.smallStore w' ∧
        ∀ call ∈ ([⟨Small.ingress, t⟩] : List Call), call.Confined Small.setup "ns" := by
  obtain ⟨w', hy, -⟩ := Direct.yields_reporting (reconcile_sparing Small.setup {} Small.ingress) Pass.mirrors_small
  have hc : Calls Small.setup "ns" "default" Pass.smallStore [⟨Small.ingress, _⟩] w' := .call rfl hy (.none w')
  exact ⟨_, w', Pass.sound_smallStore, hc, calls_spare Pass.sound_smallStore hc⟩

namespace Unnoticed

/-- A route of the proxy without owners. -/
def route : Route where
  metadata := { name := some Names.proxyRoute, ns := some "ns", resourceVersion := some "3" }
  spec := { host := "proxy.example.com", target := { kind := "Service", name := Names.proxyService } }

/-- How it ends secured connections, with a certificate that is kept elsewhere, which the operator knows nothing of. -/
def tls : Json :=
  (Wire.encode ({ termination := "edge" } : RouteTls)).set "externalCertificate" (.obj [("name", .str "proxy-cert")])

/-- The document of the route, with that. -/
def document : Json := (Kind.encode .route route).set "spec" ((Wire.encode route.spec).set "tls" tls)

/-- The small cluster with that route. -/
def cluster : Cluster :=
  { Small.cluster with
    objects := Small.cluster.objects.put (Kind.route.keyAt "ns" Names.proxyRoute) document
    version := 3
    facts := Rerouted.facts }

theorem calm : cluster.Calm Rerouted.facts := by
  have hroute : Filed (Kind.route.keyAt "ns" Names.proxyRoute) document := ⟨rfl, rfl, "3", rfl⟩
  exact Small.calm.put hroute 3 Rerouted.facts

end Unnoticed

/-- A route that gets owners is not only changed in its metadata. -/
theorem adoption_drops_members :
    ¬ ∀ (setup : Setup) (state : State) (ingress : ManagementIngress) (facts : ClusterFacts) (c : Cluster) (ns : String)
        (j j' : Json), c.Calm facts → ingress.metadata.ns = some ns →
        c.objects.get? (Kind.route.keyAt ns Names.proxyRoute) = some j →
        ((reconcile setup state ingress).run Direct.handler c).2.objects.get? (Kind.route.keyAt ns Names.proxyRoute) = some j' →
          ∀ name, name ≠ "metadata" → j'.get? name = j.get? name := by
  intro hclaim
  let setup : Setup := { certificatesServed := false }
  have hafter : (((reconcile setup {} Small.ingress).run Direct.handler Unnoticed.cluster).2.objects.get?
      (Kind.route.keyAt "ns" Names.proxyRoute)).map (fun j => j.path? ["spec", "tls", "externalCertificate"]) = some none := by
    decide +kernel
  obtain ⟨j', hj', hlost⟩ := Option.map_eq_some_iff.1 hafter
  have hkept := hclaim setup {} Small.ingress Rerouted.facts Unnoticed.cluster "ns" Unnoticed.document j' Unnoticed.calm rfl rfl hj'
    "spec" (by decide)
  have hspec : (j'.get? "spec").bind (Json.path? ["tls", "externalCertificate"]) = none := hlost
  rw [hkept] at hspec
  cases hspec

end Control

end IngressOperator
