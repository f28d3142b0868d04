import IngressOperator.Proofs.Pass.Report
import IngressOperator.Proofs.Steps.Obstacles
import IngressOperator.Proofs.Steps.Told

/-!
# What a pass needs

On a store that keeps its contract, whose documents can be read and in which the deployment may stay, a pass completes if and only if
all that its plan needs is there, and else it fails for the first of these that is missing. A cluster that serves routes needs to
tell of its domains and of its API server, the certificates of the service and of the console route, and an image; one that does not
needs one certificate and an image.

## Main statements

* `Pass.run_comes`: a pass comes to what its first obstacle makes of it.
* `Pass.completes_iff_prerequisites`: a pass completes if and only if it misses nothing, and fails for the first that it misses.
-/

namespace IngressOperator.Pass

variable {σ : Type} {h : Proc.Handler σ} (S : ObjectStore h) (setup : Setup) (ingress : ManagementIngress) (ns : String) (z : σ)

/-! ### Obstacles of a pass -/

/-- What the external host is not found for. -/
def hostObstacle (h : Proc.Handler σ) : Option Failure :=
  if ingress.spec.routeHost.isEmpty then
    match setup.flavor with
    | .standard => failure? (h .baseDomain z).1
    | .cncf _ => none
  else none

/-- What a pass fails for: its host or, step by step, what its steps need. -/
def obstacle : Option PassFailure :=
  ((hostObstacle setup ingress z h).map .plain).or
    ((obstacleOf S ns z setup ingress setup.steps).map fun cause => .step cause.1 ingress.metadata.shownName cause.2)

/-- Whether the custom resource or the settings name an image of the operand. -/
def namesImage : Bool :=
  !(Text.trim ingress.spec.image.repository.toList).isEmpty || (setup.settings.image.filter fun image => !image.isEmpty).isSome

/-- No image is found if none is named. -/
theorem failure?_operandImage : failure? (Desired.operandImage ingress.spec setup.settings.image) =
    if namesImage setup ingress then none else some (.invalidArgument .noOperandImage) := by
  unfold Desired.operandImage namesImage
  cases hrepository : (Text.trim ingress.spec.image.repository.toList).isEmpty with
  | false => simp [hrepository, failure?]
  | true =>
    cases hfallback : setup.settings.image.filter fun image => !image.isEmpty with
    | none => simp [hrepository, failure?]
    | some image => simp [hrepository, failure?]

/-- What a pass needs, in the order in which it is asked for: how the pass fails if it is missing, for each thing. -/
def prerequisites : List (Option PassFailure) :=
  let name := ingress.metadata.shownName
  let wait := setup.settings.secretWait
  let image := if namesImage setup ingress then none else some (.step .deployment name (.invalidArgument .noOperandImage))
  match setup.flavor with
  | .standard => [
    (failure? (h .baseDomain z).1).map fun cause => if ingress.spec.routeHost.isEmpty then .plain cause else .step .configMap name cause,
    (failure? (h .apiServer z).1).map (.step .configMap name),
    (Steps.unissued S wait ns Names.serviceSecret z).map (.step .route name),
    if ingress.spec.ignoreRouteCert then none else (Steps.unissued S wait ns Names.routeSecret z).map (.step .route name),
    (failure? (h .clusterDomain z).1).map (.step .deployment name),
    image]
  | .cncf _ => [
    (Steps.unissued S wait ns (if ingress.spec.ignoreRouteCert then Names.serviceSecret else Names.routeSecret) z).map
      (.step .secret name),
    image]

/-- Certificates are not what a pass fails for. -/
theorem obstacleOf_steps : obstacleOf S ns z setup ingress setup.steps = obstacleOf S ns z setup ingress setup.flavor.plan := by
  unfold obstacleOf Setup.steps
  induction setup.flavor.plan with
  | nil => rfl
  | cons step rest ih =>
    rw [List.filter_cons, List.findSome?_cons]
    split
    · rw [List.findSome?_cons, ih]
    · next hout =>
      cases step with
      | certificates => exact ih
      | _ => exact absurd rfl hout

/-- The first thing that a pass misses is its obstacle. -/
theorem findSome?_prerequisites : (prerequisites S setup ingress ns z).findSome? id = obstacle S setup ingress ns z := by
  have hcons {α : Type} (o : Option α) (l : List (Option α)) : (o :: l).findSome? id = o.or (l.findSome? id) := by
    cases o <;> rfl
  have hsteps (step : Step) (rest : List Step) : obstacleOf S ns z setup ingress (step :: rest) =
      ((step.obstacle S ns z setup ingress).map fun cause => (step.kind, cause)).or (obstacleOf S ns z setup ingress rest) := by
    unfold obstacleOf
    rw [List.findSome?_cons]
    cases (step.obstacle S ns z setup ingress).map fun cause => (step.kind, cause) <;> rfl
  have hnil : obstacleOf S ns z setup ingress [] = none := rfl
  have himage : (failure? (Desired.operandImage ingress.spec setup.settings.image)).map
        (PassFailure.step .deployment ingress.metadata.shownName) =
      if namesImage setup ingress then none
      else some (.step .deployment ingress.metadata.shownName (.invalidArgument .noOperandImage)) := by
    rw [failure?_operandImage]
    cases namesImage setup ingress <;> rfl
  unfold prerequisites obstacle hostObstacle
  dsimp only
  rw [obstacleOf_steps, ← himage]
  cases hf : setup.flavor with
  | standard =>
    simp only [Flavor.plan, hsteps, hnil, hcons, Step.obstacle, hf]
    cases failure? (h .baseDomain z).1 with
    | some cause => cases ingress.spec.routeHost.isEmpty <;> rfl
    | none =>
      -- the routes ask for the base domain once more, and are told it
      simp only [List.findSome?_nil, Option.map_or, Option.map_map, Option.map_none, Option.none_or, Option.or_none,
        Option.or_assoc, Function.comp_def, ite_self]
      cases ingress.spec.ignoreRouteCert <;> rfl
  | cncf domain =>
    simp only [Flavor.plan, hsteps, hnil, hcons, Step.obstacle, hf, List.findSome?_nil, Option.map_or, Option.map_map,
      Option.map_none, Option.none_or, Option.or_none, Function.comp_def, ite_self]
    rfl

/-! ### The pass -/

variable {S setup ingress ns z}

/-- Looking for the external host meets what the host is not found for. -/
theorem meets_resolveHost (hS : S.Steady) (hz : S.Holds z) :
    Meets S ns z (hostObstacle setup ingress z h) ((resolveHost setup ingress ns).run none).run fun y => Knows h z y.2 := by
  unfold resolveHost hostObstacle
  cases ingress.spec.routeHost.isEmpty with
  | false => exact .done (knows_none h z)
  | true =>
    cases setup.flavor with
    | standard => exact (meets_baseDomain hS hz (knows_none h z)).action_map fun _ hy => hy
    | cncf domain => exact .done (knows_none h z)

/-- In a run of a program that puts no object none is asked to be put. -/
theorem puts_of_goes {α : Type} {p : Proc α} (hp : p.Putless) {a : α} {t : List Exchange} {s s' : σ}
    (hg : p.Goes h s a t s') : ∀ x ∈ t, ¬ x.request.Puts := by
  obtain ⟨-, rfl⟩ := hg
  exact Proc.Asks.all_trace hp h s

/-- Looking at a deployment that may stay does not end a pass, and changes nothing. -/
theorem ready_of_removeLegacy (hready : Ready S ns z z) (hstay : MayStay (S.stored z (Kind.deployment.keyAt ns Names.app)))
    {answer : Except Failure Bool} {t : List Exchange} {s : σ} (hl : (removeLegacy ns).run.Goes h z answer t s) :
    answer = .ok false ∧ Ready S ns z s := by
  obtain ⟨hverdict, hsilent⟩ := removeLegacy_goes S ns hready.holds hl
  rw [verdict_eq_false.2 hstay] at hverdict
  subst hverdict
  obtain ⟨hs, hst⟩ := S.stored_of_silent hready.holds hl (hsilent nofun)
  exact ⟨rfl, hready.congr hs fun k ns name => by rw [hst]⟩

/-- If the steps are reached, the host was found, and they come to what the first of them meets. -/
theorem comes_runSteps (hS : S.Steady) (hz : S.Holds z) (hwait : setup.settings.secretWait.timeout ≤ WaitPolicy.longest)
    {host : String} {base : Option String} {status written status' : IngressStatus}
    {ended : Except (OwnedKind × Failure) (List Synced)} {t₂ t₃ t₄ : List Exchange} {s₁ s₂ s₃ s₄ : σ} (hs₁ : Ready S ns z s₁)
    (hh : ((resolveHost setup ingress ns).run none).run.Goes h s₁ (.ok (host, base)) t₂ s₂)
    (ha : (announceHost ingress status host).run.Goes h s₂ (.ok written) t₃ s₃)
    (hr : (runSteps setup ingress ns host setup.steps base written).Goes h s₃ (status', ended) t₄ s₄) :
    hostObstacle setup ingress z h = none ∧ Comes (fun _ => True) (obstacleOf S ns z setup ingress setup.steps) ended := by
  obtain ⟨hs₂, hhost⟩ := (meets_resolveHost hS hz).goes hs₁ hh
  have hs₃ : Ready S ns z s₃ := hs₂.congr (S.holds_goes hs₂.holds ha) fun k ns' name =>
    S.stored_of_goes (writesOnly_announceHost ingress _ _) (owned_ne_ingress k ns' name) hs₂.holds ha
  generalize hostObstacle setup ingress z h = obstacle at hhost
  cases hhost with
  | ok hb =>
    have hcomes : Comes (fun _ => True) (obstacleOf S ns z setup ingress setup.steps)
        ((runSteps setup ingress ns host setup.steps base written).run h s₃).1.2 :=
      meets_runSteps hS hz hwait host written hb hs₃
    rw [hr.1] at hcomes
    exact ⟨rfl, hcomes⟩

/-- No object is asked to be put before the host of a pass is found, nor when it is told that it is not found. -/
theorem not_puts_hostless {answer : Except Failure Bool} {found : Except Failure (String × Option String)}
    {written : Except Failure IngressStatus} {before after : IngressStatus} {t₁ t₂ t₃ : List Exchange} {s₁ s₂ s₃ : σ}
    (hl : (removeLegacy ns).run.Goes h z answer t₁ s₁)
    (hh : ((resolveHost setup ingress ns).run none).run.Goes h s₁ found t₂ s₂)
    (hw : (writeStatus ingress before after).run.Goes h s₂ written t₃ s₃) : ∀ x ∈ t₁ ++ (t₂ ++ t₃), ¬ x.request.Puts := by
  have hpeeks : Proc.Peeks True fun p => p.Putless := putless_peeks
  intro x hx
  rcases List.mem_append.1 hx with hx | hx
  · exact puts_of_goes (hpeeks.removeLegacy (Proc.Asks.request id)) hl x hx
  · rcases List.mem_append.1 hx with hx | hx
    · exact puts_of_goes (hpeeks.resolveHost setup (fun _ => trivial) none) hh x hx
    · exact puts_of_goes (hpeeks.writeStatus (fun _ => Proc.Asks.request id) _ _) hw x hx

/-- A pass comes to what its first obstacle makes of it, if the deployment may stay and every new status is accepted; if its host
is not found, then no object is asked to be put. -/
theorem run_comes (hS : S.Steady) (hz : S.Holds z) (hns : ingress.metadata.ns = some ns)
    (hreads : ∀ (k : OwnedKind) (ns name : String), k.Reads (S.stored z (k.kind.keyAt ns name)))
    (hstay : MayStay (S.stored z (Kind.deployment.keyAt ns Names.app)))
    (hwait : setup.settings.secretWait.timeout ≤ WaitPolicy.longest) {result : Except PassFailure PassOutcome}
    {t : List Exchange} {s' : σ} (hg : (run setup ingress).Goes h z result t s') (haccepted : Accepted t) :
    Comes (fun outcome => ∃ synced, outcome = .completed synced) (obstacle S setup ingress ns z) result ∧
      ∀ cause, result = .error (.plain cause) → ∀ x ∈ t, ¬ x.request.Puts := by
  have hready : Ready S ns z z := ⟨hz, hreads, fun _ _ => rfl⟩
  unfold obstacle
  cases Course.of_goes hns hg with
  | blocked hl => cases (ready_of_removeLegacy hready hstay hl).1
  | removed hl => cases (ready_of_removeLegacy hready hstay hl).1
  | hostless hl hh hw =>
    obtain ⟨-, hhost⟩ := (meets_resolveHost hS hz).goes (ready_of_removeLegacy hready hstay hl).2 hh
    refine ⟨?_, fun _ _ => not_puts_hostless hl hh hw⟩
    generalize hostObstacle setup ingress z h = obstacle at hhost
    cases hhost with
    | failed cause => exact .failed _
  | unannounced hl hh ha =>
    obtain ⟨_, he, -⟩ := reported_announceHost ha haccepted.right.right
    cases he
  | failed hl hh ha hr hw =>
    obtain ⟨hhost, hcomes⟩ := comes_runSteps hS hz hwait (ready_of_removeLegacy hready hstay hl).2 hh ha hr
    refine ⟨?_, nofun⟩
    rw [hhost]
    generalize obstacleOf S ns z setup ingress setup.steps = obstacle at hcomes
    cases hcomes with
    | failed cause => exact .failed _
  | unreported hl hh ha hr hf =>
    obtain ⟨he, -⟩ := reported_finish hf haccepted.right.right.right.right
    cases he
  | completed hl hh ha hr hf =>
    obtain ⟨hhost, hcomes⟩ := comes_runSteps hS hz hwait (ready_of_removeLegacy hready hstay hl).2 hh ha hr
    refine ⟨?_, nofun⟩
    rw [hhost]
    generalize obstacleOf S ns z setup ingress setup.steps = obstacle at hcomes
    cases hcomes with
    | ok _ => exact .ok ⟨_, rfl⟩

/-- On a store whose documents of the kinds that are kept can be read, with a deployment that may stay, secrets that nobody else
writes, a wait that a clock can measure and no new status refused, a pass completes if and only if nothing that it needs is missing;
else it fails for the first thing that is; if that is the host, then no object was asked to be put. -/
theorem completes_iff_prerequisites (hS : S.Steady) {s : σ} (hs : S.Holds s) (hns : ingress.metadata.ns = some ns)
    (hreads : ∀ (k : OwnedKind) (ns name : String), k.Reads (S.stored s (k.kind.keyAt ns name)))
    (hstay : MayStay (S.stored s (Kind.deployment.keyAt ns Names.app)))
    (hwait : setup.settings.secretWait.timeout ≤ WaitPolicy.longest)
    (haccepted : Accepted ((run setup ingress).trace h s)) :
    ((∃ synced, ((run setup ingress).run h s).1 = .ok (.completed synced)) ↔
        ∀ missing ∈ prerequisites S setup ingress ns s, missing = none) ∧
      (∀ cause, ((run setup ingress).run h s).1 = .error cause ↔
        (prerequisites S setup ingress ns s).findSome? id = some cause) ∧
      ∀ cause, ((run setup ingress).run h s).1 = .error (.plain cause) →
        ∀ x ∈ (run setup ingress).trace h s, ¬ x.request.Puts := by
  obtain ⟨hcomes, hplain⟩ :=
    run_comes hS hs hns hreads hstay hwait (Proc.Goes.of_run h (run setup ingress) s) haccepted
  refine ⟨?_, ?_, hplain⟩
  · have hnone : (∀ missing ∈ prerequisites S setup ingress ns s, missing = none) ↔ obstacle S setup ingress ns s = none := by
      rw [← findSome?_prerequisites]
      exact List.findSome?_eq_none_iff.symm
    rw [hnone]
    generalize obstacle S setup ingress ns s = first at hcomes
    generalize ((run setup ingress).run h s).1 = result at hcomes
    cases hcomes with
    | ok hdone =>
      obtain ⟨synced, rfl⟩ := hdone
      exact ⟨fun _ => rfl, fun _ => ⟨synced, rfl⟩⟩
    | failed cause => exact ⟨nofun, nofun⟩
  · intro cause
    rw [findSome?_prerequisites]
    generalize obstacle S setup ingress ns s = first at hcomes
    generalize ((run setup ingress).run h s).1 = result at hcomes
    cases hcomes with
    | ok hdone => exact ⟨nofun, nofun⟩
    | failed cause' => exact ⟨fun he => by cases he; rfl, fun he => by cases he; rfl⟩

/-! ### On a small cluster -/

open Cluster

/-- The small cluster has what a pass needs, and the pass completes. -/
theorem small_pass_completes :
    Accepted ((run Small.setup Small.ingress).trace Direct.handler Small.cluster) ∧
      ∃ synced, ((run Small.setup Small.ingress).run Direct.handler Small.cluster).1 = .ok (.completed synced) := by
  have haccepted : Accepted ((run Small.setup Small.ingress).trace Direct.handler Small.cluster) := by
    unfold Accepted
    decide +kernel
  have hneeds : ∀ missing ∈ prerequisites (Direct.store {}) Small.setup Small.ingress "ns" Small.cluster, missing = none := by
    decide +kernel
  have hreads (k : OwnedKind) (ns name : String) :
      k.Reads ((Direct.store {}).stored Small.cluster (k.kind.keyAt ns name)) := by
    intro j hj
    change Small.cluster.objects.get? _ = some j at hj
    simp only [Small.cluster, Objects.get?_put] at hj
    split at hj
    · next hk =>
      cases OwnedKind.kind_injective (k := .secret) (Kind.keyAt_inj.1 hk).1
      cases hj
      exact ⟨_, Kind.decode?_encode (k := .secret) (by decide) _⟩
    · split at hj
      · next hk =>
        have hkind : k.kind = .managementIngress := (Kind.keyAt_inj.1 hk).1
        cases k <;> cases hkind
      · cases hj
  have hstay : MayStay ((Direct.store {}).stored Small.cluster (Kind.deployment.keyAt "ns" Names.app)) := by
    intro j hj
    change Small.cluster.objects.get? _ = some j at hj
    simp only [Small.cluster, Objects.get?_put] at hj
    split at hj
    · next hk => cases (Kind.keyAt_inj.1 hk).1
    · split at hj
      · next hk => cases (Kind.keyAt_inj.1 hk).1
      · cases hj
  exact ⟨haccepted, (completes_iff_prerequisites (Direct.steady_store {}) Small.calm rfl hreads hstay (by decide) haccepted).1.2
    hneeds⟩

end IngressOperator.Pass
