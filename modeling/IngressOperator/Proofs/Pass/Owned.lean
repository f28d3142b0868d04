import IngressOperator.Proofs.Pass.Replay
import IngressOperator.Proofs.Status.Reported
import IngressOperator.Proofs.Steps.Note
import IngressOperator.Proofs.Steps.Permits

/-!
# What belongs to the operand

The objects that passes in a namespace put are those of the operand, ten at most. Of its deployment the pass that deletes it has
just read that it cannot be changed; and a route of the proxy that is there already only ever gets owners, once.

## Main statements

* `Pass.permits_within`: a pass asks for nothing that is not its own.
* `Pass.minds_entire`: a pass leaves a route of the proxy as it is but for its owners, and deletes nothing that may stay.
-/

namespace IngressOperator

open SharedStore

/-! ### Objects -/

/-- The objects of the operand in a namespace. -/
def ownedKeys (ns : String) : List ObjectKey := [
  Kind.certificate.keyAt ns Names.serviceCert, Kind.certificate.keyAt ns Names.routeCert,
  Kind.service.keyAt ns Names.service,
  Kind.configMap.keyAt ns Names.config, Kind.configMap.keyAt ns Names.bindInfo, Kind.configMap.keyAt ns Names.clusterInfo,
  Kind.secret.keyAt ns Names.clusterCa,
  Kind.route.keyAt ns Names.consoleRoute, Kind.route.keyAt ns Names.proxyRoute,
  Kind.deployment.keyAt ns Names.app]

variable {ingress : ManagementIngress} {ns : String}

/-- What belongs to the operand is of an owned kind, and in its namespace. -/
theorem exists_of_mem_ownedKeys {key : ObjectKey} (hm : key ∈ ownedKeys ns) :
    ∃ (k : OwnedKind) (name : String), key = k.kind.keyAt ns name := by
  simp only [ownedKeys, List.mem_cons, List.not_mem_nil, or_false] at hm
  rcases hm with rfl | rfl | rfl | rfl | rfl | rfl | rfl | rfl | rfl | rfl
  · exact ⟨.certificate, _, rfl⟩
  · exact ⟨.certificate, _, rfl⟩
  · exact ⟨.service, _, rfl⟩
  · exact ⟨.configMap, _, rfl⟩
  · exact ⟨.configMap, _, rfl⟩
  · exact ⟨.configMap, _, rfl⟩
  · exact ⟨.secret, _, rfl⟩
  · exact ⟨.route, _, rfl⟩
  · exact ⟨.route, _, rfl⟩
  · exact ⟨.deployment, _, rfl⟩

theorem ns_of_mem_ownedKeys {key : ObjectKey} (hm : key ∈ ownedKeys ns) : key.ns = ns := by
  obtain ⟨k, name, rfl⟩ := exists_of_mem_ownedKeys hm
  rfl

/-- No custom resource belongs to the operand. -/
theorem ingress_not_mem_ownedKeys (ns ns' name : String) : Kind.managementIngress.keyAt ns' name ∉ ownedKeys ns := by
  simp [ownedKeys, Kind.keyAt_inj]

/-- The secrets into which certificates are issued do not belong to it either. -/
theorem tlsSecrets_not_mem_ownedKeys (ns ns' : String) :
    Kind.secret.keyAt ns' Names.serviceSecret ∉ ownedKeys ns ∧ Kind.secret.keyAt ns' Names.routeSecret ∉ ownedKeys ns := by
  simp [ownedKeys, Kind.keyAt_inj, Names.clusterCa, Names.serviceSecret, Names.routeSecret]

/-- What a step may write belongs to the operand. -/
theorem Step.targets_subset (step : Step) : step.targets ns ⊆ ownedKeys ns := by
  cases step <;> simp [targets, ownedKeys]

/-- Routes are written by the step of routes alone. -/
theorem Step.eq_routes {step : Step} {ns' name : String} (hm : Kind.route.keyAt ns' name ∈ step.targets ns) :
    step = .routes := by
  cases step <;> simp [targets, Kind.keyAt_inj] at hm ⊢

/-- Certificates are written by the step of certificates alone. -/
theorem Step.eq_certificates {step : Step} {ns' name : String} (hm : Kind.certificate.keyAt ns' name ∈ step.targets ns) :
    step = .certificates := by
  cases step <;> simp [targets, Kind.keyAt_inj] at hm ⊢

/-- Certificates are kept on a cluster that knows them. -/
theorem Pass.served_of_certificates_mem {setup : Setup} (hm : Step.certificates ∈ setup.steps) :
    setup.certificatesServed = true := by
  have hserved := (List.mem_filter.1 hm).2
  simpa using hserved

/-! ### Requests -/

/-- Whether an object of a kind is one that a pass for a custom resource may put: it belongs to the operand; routes are for clusters
that serve them, and certificates for those that know them; that of the console route must be wanted. -/
structure Setup.Puts (setup : Setup) (ingress : ManagementIngress) (ns : String) (k : Kind) (key : ObjectKey) : Prop where
  owned : key ∈ ownedKeys ns
  route : k = .route → setup.flavor = .standard
  certificate : k = .certificate → setup.certificatesServed = true
  routeCertificate : key = Kind.certificate.keyAt ns Names.routeCert → ingress.spec.ignoreRouteCert = false

/-- Whether a request is one that may be made for a custom resource in a namespace: besides looking, to put what a pass may put, to
delete the deployment of the operand, to report the custom resource, and to publish what happened to it. What the cluster is like
is asked only where it serves routes. -/
def Request.Within (setup : Setup) (ingress : ManagementIngress) (ns : String) : Request → Prop
  | .create k x | .update k x => ∃ key, k.objectKey? x = some key ∧ setup.Puts ingress ns k key
  | .delete k ns' name => k = .deployment ∧ ns' = ns ∧ name = Names.app
  | .updateStatus ingress' _ | .publish ingress' _ => ingress' = ingress
  | .baseDomain | .clusterDomain | .apiServer => setup.flavor = .standard
  | .get _ _ _ | .list _ _ _ | .now | .sleep _ => True

/-- What may be changed then is an object of the operand, or the custom resource. -/
theorem Request.Within.target? {setup : Setup} {r : Request} (hr : r.Within setup ingress ns) {key : ObjectKey}
    (ht : r.target? = some key) : key ∈ ownedKeys ns ∨ r.Reports ∧ Kind.objectKey? .managementIngress ingress = some key := by
  cases r with
  | create k x =>
    obtain ⟨key', hk, hputs⟩ := hr
    cases hk.symm.trans ht
    exact .inl hputs.owned
  | update k x =>
    obtain ⟨key', hk, hputs⟩ := hr
    cases hk.symm.trans ht
    exact .inl hputs.owned
  | delete k ns' name =>
    obtain ⟨rfl, rfl, rfl⟩ := hr
    cases ht
    left
    simp [ownedKeys]
  | updateStatus ingress' status =>
    cases hr
    exact .inr ⟨trivial, ht⟩
  | _ => cases ht

/-- What is an object of a step of the plan may be put. -/
theorem Step.puts {setup : Setup} {step : Step} (hm : step ∈ setup.steps) {k : Kind} {x : k.Object} {key : ObjectKey}
    (hk : key ∈ step.objects ingress ns) (hx : k.objectKey? x = some key) : setup.Puts ingress ns k key := by
  obtain ⟨ht, hwanted⟩ := List.mem_filter.1 hk
  have hkind := Kind.eq_keyAt_of_objectKey? hx
  refine ⟨step.targets_subset ht, ?_, ?_, ?_⟩
  · rintro rfl
    rw [hkind] at ht
    cases Step.eq_routes ht
    exact Pass.standard_of_routes_mem hm
  · rintro rfl
    rw [hkind] at ht
    cases Step.eq_certificates ht
    exact Pass.served_of_certificates_mem hm
  · rintro rfl
    simpa using hwanted

/-- A pass asks for nothing that is not its own. -/
theorem Pass.permits_within (setup : Setup) (ingress : ManagementIngress) (ns : String) :
    Permits setup.steps (setup.flavor = .standard) ingress ns (Request.Within setup ingress ns) where
  observe r hr := by
    cases r with
    | get _ _ _ => trivial
    | list _ _ _ => trivial
    | now => trivial
    | sleep _ => trivial
    | _ => exact absurd hr id
  discover hstandard r hr := by
    cases r with
    | baseDomain => exact hstandard
    | clusterDomain => exact hstandard
    | apiServer => exact hstandard
    | _ => exact absurd hr id
  put hm _ _ _ hk hx := ⟨⟨_, hx, Step.puts hm hk hx⟩, ⟨_, hx, Step.puts hm hk hx⟩⟩
  remove := ⟨rfl, rfl, rfl⟩
  report _ := rfl

/-! ### The route of the proxy -/

/-- Whether a document is another one, of a route without owners, as it was read and with owners. -/
def Adopted (j j' : Json) : Prop :=
  ∃ (live : Route) (refs : List OwnerReference) (version : String), Kind.decode? .route j = some live ∧
    Kind.owners .route live = [] ∧ refs ≠ [] ∧
      j' = Kind.encode .route (Kind.withVersion .route (Kind.withOwners .route live refs) version)

/-- A route that has got owners gets none again. -/
theorem Adopted.not_again {j j' j'' : Json} (h : Adopted j j') : ¬ Adopted j' j'' := by
  intro h'
  obtain ⟨live, refs, version, -, -, hrefs, rfl⟩ := h
  obtain ⟨live', _, _, hlive', hnone, -, -⟩ := h'
  rw [Kind.decode?_encode (k := .route) nofun] at hlive'
  cases hlive'
  exact hrefs hnone

/-- Whether a route of the proxy that is stored is left as it is, but for owners if it has none. -/
def MindsProxy (ns : String) (w w' : SharedStore) : Prop :=
  ∀ j, w.stored (Kind.route.keyAt ns Names.proxyRoute) = some j →
    ∃ j', w'.stored (Kind.route.keyAt ns Names.proxyRoute) = some j' ∧ (j' = j ∨ Adopted j j')

theorem MindsProxy.of_eq {w w' : SharedStore}
    (h : w'.stored (Kind.route.keyAt ns Names.proxyRoute) = w.stored (Kind.route.keyAt ns Names.proxyRoute)) :
    MindsProxy ns w w' :=
  fun j hj => ⟨j, h.trans hj, .inl rfl⟩

theorem MindsProxy.trans {w w₁ w' : SharedStore} (h : MindsProxy ns w w₁) (h' : MindsProxy ns w₁ w') : MindsProxy ns w w' := by
  intro j hj
  obtain ⟨j₁, hj₁, he⟩ := h j hj
  obtain ⟨j', hj', he'⟩ := h' j₁ hj₁
  refine ⟨j', hj', ?_⟩
  rcases he with rfl | hadopted
  · exact he'
  · rcases he' with rfl | hagain
    · exact .inr hadopted
    · exact absurd hagain hadopted.not_again

/-- Keeping the route of the proxy leaves one that is there as it is, but for owners. -/
theorem mindsProxy_ensureCreated {host : String} {answer : Except Failure Synced} {w w' : SharedStore} {t : List Exchange}
    (hw : w.Sound)
    (hy : (ensureCreated ingress .route (Desired.route ns Names.proxyRoute Names.proxyService host none)).run.Yields Serves w answer
      t w') : MindsProxy ns w w' := by
  rw [ensureCreated_eq] at hy
  cases Keeps.of_yields hw (key_owned ingress rfl) (settles_adoption .route _) hy with
  | failed ht => exact .of_eq rfl
  | created hn hc =>
    intro j hj
    rw [hn] at hj
    cases hj
  | left hj hx hrev => exact .of_eq rfl
  | @written j live x z version hj hx hrev =>
    intro j' hj'
    cases hj.symm.trans hj'
    refine ⟨_, stored_put_self _ _ _ _, .inr ?_⟩
    unfold adoption at hrev
    split at hrev
    · next hadopts =>
      cases hrev
      obtain ⟨hnone, hsome⟩ := Bool.and_eq_true_iff.1 hadopts
      rw [adopted, if_pos hadopts]
      exact ⟨live, _, version, hx, List.isEmpty_iff.1 hnone, by simpa using hsome, rfl⟩
    · cases hrev

/-! ### Deletions -/

/-- Whether a request is one for an object to be deleted. -/
def Request.Deletes : Request → Prop
  | .delete _ _ _ => True
  | _ => False

/-- Whether, in some exchanges, an object is to be deleted only right after it was read of the deployment of the operand that it
cannot be changed. -/
def RemovesLegacy (ns : String) (t : List Exchange) : Prop :=
  ∀ before x after, t = before ++ x :: after → x.request.Deletes →
    ∃ before' d, before = before' ++ [⟨.get .deployment ns Names.app, .ok (some d)⟩] ∧ Desired.isLegacy d = true

theorem RemovesLegacy.of_none {t : List Exchange} (ht : ∀ x ∈ t, ¬ x.request.Deletes) : RemovesLegacy ns t := by
  rintro before x after rfl hx
  exact absurd hx (ht x (by simp))

/-- Nothing is deleted by a program that does not ask for it. -/
theorem RemovesLegacy.of_asks {σ α : Type} {R : Serving σ} {p : Proc α} (hp : p.Asks (fun _ _ => True) fun r => ¬ r.Deletes)
    {a : α} {t : List Exchange} {s s' : σ} (hy : p.Yields R s a t s') : RemovesLegacy ns t := by
  exact .of_none (hp.all_yields hy)

theorem RemovesLegacy.append {t t' : List Exchange} (ht : RemovesLegacy ns t) (ht' : RemovesLegacy ns t') :
    RemovesLegacy ns (t ++ t') := by
  intro before x after he hx
  rcases List.append_eq_append_iff.1 he with ⟨u, rfl, hu⟩ | ⟨u, rfl, hu⟩
  · obtain ⟨before', d, rfl, hd⟩ := ht' u x after hu hx
    exact ⟨t ++ before', d, (List.append_assoc ..).symm, hd⟩
  · cases u with
    | nil =>
      obtain ⟨before', d, hnil, -⟩ := ht' [] x after hu.symm hx
      simp at hnil
    | cons y u =>
      cases hu
      exact ht before x u rfl hx

/-- Removing a deployment that has to go writes nothing else. -/
theorem Pass.writesOnly_removeLegacy (ns : String) :
    (removeLegacy ns).run.WritesOnly [Kind.deployment.keyAt ns Names.app] := by
  have hlooks : Proc.Peeks True fun p => p.WritesOnly [Kind.deployment.keyAt ns Names.app] := by
    refine Proc.Asks.peeks ?_ fun _ => ?_
    all_goals
      intro r hr key ht
      rw [hr.looks.target?_eq_none] at ht
      cases ht
  exact hlooks.removeLegacy (Proc.Asks.request fun key ht => List.mem_singleton.2 (Option.some.inj ht).symm)

/-- A deployment that has to go is deleted after it was read. -/
theorem removesLegacy_removeLegacy {R : Serving SharedStore} {answer : Except Failure Bool} {w w' : SharedStore}
    {t : List Exchange} (hy : (Pass.removeLegacy ns).run.Yields R w answer t w') : RemovesLegacy ns t := by
  rw [Pass.run_removeLegacy] at hy
  obtain ⟨found, w₁, t₁, -, hy₁, rfl⟩ := hy.of_ask
  have hdone {a : Except Failure Bool} (hd : (Proc.done a).Yields R w₁ answer t₁ w') :
      RemovesLegacy ns (⟨.get .deployment ns Names.app, found⟩ :: t₁) := by
    obtain ⟨-, rfl, -⟩ := hd.of_done
    refine .of_none ?_
    intro x hx
    cases List.mem_singleton.1 hx
    exact id
  rcases found with e | (_ | d)
  · exact hdone hy₁
  · exact hdone hy₁
  · dsimp only at hy₁
    split at hy₁
    · next hlegacy =>
      obtain ⟨deleted, w₂, t₂, -, hd, rfl⟩ := hy₁.of_ask
      obtain ⟨-, rfl, -⟩ := hd.of_done
      intro before x after he hx
      rcases before with _ | ⟨y, _ | ⟨z, before⟩⟩
      · cases he
        exact absurd hx id
      · cases he
        exact ⟨[], d, rfl, hlegacy⟩
      · simp at he
    · exact hdone hy₁

/-! ### Passes -/

/-- Whether a run on a sound store leaves a route of the proxy as it is, but for owners if it has none, and deletes nothing but a
deployment that has to go. -/
def Minds (ns : String) (w : SharedStore) (t : List Exchange) (w' : SharedStore) : Prop :=
  w.Sound → w'.Sound ∧ MindsProxy ns w w' ∧ RemovesLegacy ns t

/-- What is minded in two runs is minded in the one after the other. -/
theorem chains_minds (ns : String) : Proc.Chains (Minds ns) where
  refl _ := fun hw => ⟨hw, .of_eq rfl, .of_none fun _ hx => absurd hx List.not_mem_nil⟩
  trans h h' := by
    intro hw
    obtain ⟨hw₁, hproxy, hremoves⟩ := h hw
    obtain ⟨hw', hproxy', hremoves'⟩ := h' hw₁
    exact ⟨hw', hproxy.trans hproxy', hremoves.append hremoves'⟩

/-- Whether a request neither changes the route of the proxy nor deletes anything. -/
def Request.Aside (ns : String) (r : Request) : Prop :=
  r.target? ≠ some (Kind.route.keyAt ns Names.proxyRoute) ∧ ¬ r.Deletes

theorem Request.Looks.not_deletes {r : Request} (hr : r.Looks) : ¬ r.Deletes := by
  intro hd
  cases r with
  | delete _ _ _ => exact hr
  | _ => exact hd

/-- A request that asks for nothing to be written is one. -/
theorem Request.Looks.aside {r : Request} (hr : r.Looks) : r.Aside ns :=
  ⟨by simp [hr.target?_eq_none], hr.not_deletes⟩

/-- The parts of steps delete nothing. -/
theorem Pass.deletes_parts (ingress : ManagementIngress) (ns : String) :
    Parts ingress ns fun p => p.Asks (fun _ _ => True) fun r => ¬ r.Deletes :=
  asks_parts ingress ns (fun _ hr => hr.not_deletes) (fun _ _ => id) fun _ _ => id

/-- A program of such requests minds both. -/
theorem minds_of_aside {α : Type} {p : Proc α} (hp : p.Asks ObjectStore.Sensible (Request.Aside ns)) :
    p.Leaves Serves (Minds ns) := by
  intro w a t w' hy hw
  have hrun := Proc.Asks.yields (I := fun w₁ => w₁.Sound ∧ w₁.stored (Kind.route.keyAt ns Names.proxyRoute) =
      w.stored (Kind.route.keyAt ns Names.proxyRoute)) hp
    (fun hr hi hs => ⟨hs.sensible hi.1, hi.1.serves hs, (hs.frame hr.1).trans hi.2⟩) ⟨hw, rfl⟩ hy
  obtain ⟨⟨hw', hproxy⟩, htrace⟩ := hrun
  exact ⟨hw', .of_eq hproxy, .of_none fun x hx => (htrace x hx).2⟩

theorem minds_of_looks {r : Request} (hr : r.Looks) : (Proc.request r).Leaves Serves (Minds ns) :=
  minds_of_aside (Proc.Asks.request hr.aside)

/-- Keeping another object minds both. -/
theorem minds_ensure {k : OwnedKind} {desired : k.kind.Object} {name : String} (hd : Sought ns k desired)
    (hk : k.kind.key desired = .ok (ns, name)) (hne : k.kind.keyAt ns name ≠ Kind.route.keyAt ns Names.proxyRoute) :
    (ensure ingress k desired).run.Leaves Serves (Minds ns) := by
  have hkey := key_owned ingress hk
  have hr := settles_revision k (changed_owned ingress hd.same)
  have hcreate : Request.Aside ns (.create k.kind (owned ingress k.kind desired)) := by
    refine ⟨?_, id⟩
    intro ht
    exact hne (Option.some.inj ((Kind.objectKey?_eq.2 (Kind.key_eq_ok.1 hkey)).symm.trans ht))
  rw [ensure_eq]
  apply minds_of_aside
  refine asks_keeping hkey hcreate ⟨nofun, id⟩ ?_
  intro live x hlive hx
  refine ⟨?_, id⟩
  intro ht
  exact hne (Option.some.inj ((hr.objectKey? hx hlive).symm.trans ht))

/-- What steps bring to a desired form is not the route of the proxy. -/
theorem Tracked.ne_proxy {step : Step} {k : OwnedKind} {desired : k.kind.Object} (hw : Tracked ingress ns step k desired)
    {name : String} (hk : k.kind.key desired = .ok (ns, name)) :
    k.kind.keyAt ns name ≠ Kind.route.keyAt ns Names.proxyRoute := by
  intro he
  obtain ⟨hkind, -, rfl⟩ := Kind.keyAt_inj.1 he
  cases hw with
  | consoleRoute host material =>
    have hname : some Names.consoleRoute = some Names.proxyRoute := (Kind.key_eq_ok.1 hk).2
    exact absurd hname (by decide)
  | _ => cases hkind

/-- A pass leaves a route of the proxy as it is but for its owners, and deletes nothing that may stay. -/
theorem Pass.minds_entire (plan : List Step) (ingress : ManagementIngress) (ns : String) :
    Entire plan True ingress ns fun p => p.Leaves Serves (Minds ns) := by
  have hpeeks : Proc.Peeks True fun p => p.Leaves Serves (Minds ns) :=
    { (chains_minds ns).composes with
      look := fun r hr => minds_of_looks hr.looks
      discover := fun _ r hr => minds_of_looks hr.looks }
  have hne : OwnedKind.configMap.kind.keyAt ns Names.config ≠ Kind.route.keyAt ns Names.proxyRoute := by
    simp [Kind.keyAt_inj, OwnedKind.kind]
  refine { hpeeks with ensure := ?_, configuration := ?_, proxyRoute := ?_, legacy := ?_, report := ?_ }
  · intro step k desired hm hw
    obtain ⟨name, hk⟩ := hw.sought.key
    exact minds_ensure hw.sought hk (hw.ne_proxy hk)
  · intro hm
    refine hpeeks.configMap rfl ?_ fun _ => minds_of_aside ?_
    · exact minds_ensure (sought_configMap rfl rfl) rfl hne
    · refine Steps.asks_restart (Request.Looks.aside trivial) (Request.Looks.aside trivial) ?_
      intro d hd now
      exact ⟨Kind.objectKey?_ne (k := .deployment) (by decide) (Steps.stamped d now) ns Names.proxyRoute, id⟩
  · intro hm host w answer t w' hy hw
    have hasks := (deletes_parts ingress ns).ensureCreated .route (Desired.route ns Names.proxyRoute Names.proxyService host none)
      (sought_route rfl rfl)
    exact ⟨hw.yields hy, mindsProxy_ensureCreated hw hy, .of_asks hasks hy⟩
  · intro w answer t w' hy hw
    obtain ⟨hframe, -⟩ := stored_of_yields (writesOnly_removeLegacy ns) hw hy
    have hproxy := hframe (Kind.route.keyAt ns Names.proxyRoute) (by simp [Kind.keyAt_inj])
    exact ⟨hw.yields hy, .of_eq hproxy, removesLegacy_removeLegacy hy⟩
  · intro status w answer t w' hy
    have haside : Request.Aside ns (.updateStatus ingress status) :=
      ⟨Kind.objectKey?_ne (k := .managementIngress) (by decide) ingress ns Names.proxyRoute, id⟩
    exact minds_of_aside (Proc.Asks.request haside) hy

end IngressOperator
