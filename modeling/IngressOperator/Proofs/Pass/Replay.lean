import IngressOperator.Proofs.Pass.Progress
import IngressOperator.Proofs.Status.Stored
import IngressOperator.Proofs.Steps.Lasting
import IngressOperator.Proofs.Steps.Repeat

/-!
# The parts of a pass, once more

Each part of a pass that is run once more, for the custom resource as it is read then, ends as it did. The deployment that had
not to go has not to go, the host is the same, and the steps end like the first time with a status that says so already.

## Main statements

* `Pass.removeLegacy_goes`: whether a deployment has to go depends on its document alone.
* `Pass.Progress.replay`: steps that are run once more leave the status that they left.
-/

namespace IngressOperator.Pass

variable {σ : Type} {h : Proc.Handler σ} (S : ObjectStore h) (setup : Setup) (ingress : ManagementIngress) (ns host : String)

/-! ### The custom resource as it is read then -/

/-- A step does not depend on version and status of the custom resource. -/
theorem runStep_again (version : Option String) (status : Option IngressStatus) (step : Step) :
    runStep setup (ingress.again version status) ns host step = runStep setup ingress ns host step := by
  cases step <;> rfl

theorem runSteps_again (version : Option String) (status : Option IngressStatus) (steps : List Step) (base : Option String)
    (marked : IngressStatus) :
    runSteps setup (ingress.again version status) ns host steps base marked =
      runSteps setup ingress ns host steps base marked := by
  induction steps generalizing base marked with
  | nil => rfl
  | cons step rest ih =>
    unfold runSteps
    rw [runStep_again]
    refine bind_congr fun ended => ?_
    rcases ended with cause | ⟨synced, base'⟩
    · rfl
    · refine bind_congr fun now => ?_
      rw [ih]

/-! ### The deployment that has not to go -/

/-- Whether the deployment in a document may stay, if there is one. -/
def MayStay (doc : Option Json) : Prop :=
  ∀ j, doc = some j → ∃ d, Kind.decode? .deployment j = some d ∧ Desired.isLegacy d = false

/-- How a deployment selects its pods is not tracked. -/
theorem isLegacy_of_preserves {refs : List OwnerReference} {d d' : Deployment} (hp : Preserves refs .deployment d d') :
    Desired.isLegacy d' = Desired.isLegacy d := by
  have hu (x : Deployment) : Desired.isLegacy (OwnedKind.deployment.untracked x) = Desired.isLegacy x := by
    obtain ⟨m, spec, status⟩ := x
    cases spec <;> rfl
  rw [← hu d', hp.untracked, hu d]

/-- A deployment that may stay may stay whatever a pass writes. -/
theorem lasting_mayStay (owner : ManagementIngress) : Lasting owner .deployment MayStay where
  created {x y} _ hf _ hc j hj := by
    cases hj
    refine ⟨y, Kind.decode?_encode (k := .deployment) nofun y, ?_⟩
    have hu : Kind.deployment.unassigned y = Kind.deployment.unassigned x := hc
    have hspec := congrArg Deployment.spec hu
    replace hspec : Deployment.spec y = Deployment.spec x := hspec
    have hlegacy : Desired.isLegacy y = Desired.isLegacy x := by
      unfold Desired.isLegacy
      rw [hspec]
    exact hlegacy.trans hf
  written {j x y} v hi hx hp j' hj' := by
    cases hj'
    obtain ⟨d, hd, hlegacy⟩ := hi j rfl
    have hdx : d = x := Option.some.inj (hd.symm.trans hx)
    subst hdx
    refine ⟨_, Kind.decode?_encode (k := .deployment) nofun _, ?_⟩
    rw [isLegacy_of_preserves (hp.trans (preserves_withVersion _ .deployment y v))]
    exact hlegacy

/-- The program that deletes a deployment that has to go. -/
theorem run_removeLegacy :
    (removeLegacy ns).run =
      Proc.ask (.get .deployment ns Names.app) fun
        | .error e => .done (.error e)
        | .ok none => .done (.ok false)
        | .ok (some d) =>
          if Desired.isLegacy d then
            Proc.ask (.delete .deployment ns Names.app) fun answer => .done (answer.map fun _ => true)
          else .done (.ok false) := by
  refine congrArg (Proc.ask _) (funext fun found => ?_)
  rcases found with e | (_ | d)
  · rfl
  · rfl
  · change (if Desired.isLegacy d = true then _ else _ : Action Bool).run = _
    dsimp only
    split
    · refine congrArg (Proc.ask _) (funext fun answer => ?_)
      cases answer <;> rfl
    · rfl

/-- Whether the deployment in a document has to go, and the failure if that cannot be said. -/
def verdict (refusal : Kind → Json → Failure) : Option Json → Except Failure Bool
  | none => .ok false
  | some j =>
    match Kind.decode? .deployment j with
    | none => .error (refusal .deployment j)
    | some d => .ok (Desired.isLegacy d)

/-- A deployment that has not to go may stay. -/
theorem verdict_eq_false {refusal : Kind → Json → Failure} {doc : Option Json} :
    verdict refusal doc = .ok false ↔ MayStay doc := by
  cases doc with
  | none => exact ⟨fun _ j hj => absurd hj nofun, fun _ => rfl⟩
  | some j =>
    cases hx : Kind.decode? .deployment j with
    | none =>
      refine ⟨fun hv => absurd hv (by simp [verdict, hx]), fun hm => ?_⟩
      obtain ⟨d, hd, -⟩ := hm j rfl
      rw [hx] at hd
      cases hd
    | some d =>
      simp only [verdict, hx, Except.ok.injEq]
      refine ⟨fun hl j' hj => ?_, fun hm => ?_⟩
      · cases hj
        exact ⟨d, hx, hl⟩
      · obtain ⟨d', hd', hl⟩ := hm j rfl
        cases hx.symm.trans hd'
        exact hl

/-- Whether a deployment has to go depends on its document alone, and nothing is written if it has not to. -/
theorem removeLegacy_goes {s s' : σ} {a : Except Failure Bool} {t : List Exchange} (hs : S.Holds s)
    (hg : (removeLegacy ns).run.Goes h s a t s') :
    a = verdict S.refusal (S.stored s (Kind.deployment.keyAt ns Names.app)) ∧ (a ≠ .ok true → Silent t) := by
  obtain ⟨hr, ht⟩ := hg
  have hget := S.get s .deployment ns Names.app hs
  rw [run_removeLegacy, Proc.run_ask, hget] at hr
  rw [run_removeLegacy, Proc.trace_ask, hget] at ht
  have hsilent (answer : Except Failure (Option Deployment)) : Silent [⟨.get .deployment ns Names.app, answer⟩] :=
    .singleton id
  cases hj : S.stored s (Kind.deployment.keyAt ns Names.app) with
  | none =>
    simp only [hj, Kind.reading, Proc.run_done, Proc.trace_done] at hr ht
    cases hr
    exact ⟨rfl, fun _ => ht ▸ hsilent _⟩
  | some j =>
    cases hx : Kind.decode? .deployment j with
    | none =>
      simp only [hj, Kind.reading, hx, Proc.run_done, Proc.trace_done] at hr ht
      cases hr
      exact ⟨by simp [verdict, hx], fun _ => ht ▸ hsilent _⟩
    | some d =>
      simp only [hj, Kind.reading, hx] at hr ht
      by_cases hd : Desired.isLegacy d = true
      · simp only [hd, if_true, Proc.run_ask, Proc.run_done] at hr
        obtain ⟨hdel, -⟩ := S.delete _ .deployment ns Names.app (S.holds _ s hs)
        rw [hdel] at hr
        cases hr
        exact ⟨by simp [verdict, hx, hd, Except.map], fun hne => absurd rfl hne⟩
      · simp only [hd, Bool.false_eq_true, if_false, Proc.run_done, Proc.trace_done] at hr ht
        cases hr
        exact ⟨by simp [verdict, hx, hd], fun _ => ht ▸ hsilent _⟩

/-! ### The host -/

/-- A derived host is not empty. -/
theorem underDomain_ne_empty {label : String} (hl : label ≠ "") (base ns : String) (multiple : Bool) :
    Host.underDomain label base ns multiple ≠ "" := by
  intro he
  unfold Host.underDomain at he
  split at he
  · simp only [String.append_eq_empty_iff] at he
    exact hl he.1.1.1.1
  · simp only [String.append_eq_empty_iff] at he
    exact hl he.1.1

/-- An external host that is found is not empty. -/
theorem host_ne_empty {s s' : σ} {base base' : Option String} {t : List Exchange}
    (hg : ((resolveHost setup ingress ns).run base).run.Goes h s (.ok (host, base')) t s') : host ≠ "" := by
  unfold resolveHost at hg
  split at hg
  · next hne =>
    obtain ⟨hr, -, -⟩ := hg.of_done
    cases hr
    simpa using hne
  · cases hf : setup.flavor with
    | standard =>
      simp only [hf] at hg
      obtain ⟨answer, t₁, s₁, t₂, -, hd, -⟩ := Proc.Goes.of_bind (p := (baseDomain.run base).run) hg
      rcases answer with cause | ⟨domain, base₁⟩
      · obtain ⟨hr, -, -⟩ := hd.of_done
        cases hr
      · obtain ⟨hr, -, -⟩ := hd.of_done
        cases hr
        exact underDomain_ne_empty (by decide) domain ns _
    | cncf domain =>
      simp only [hf] at hg
      obtain ⟨hr, -, -⟩ := hg.of_done
      cases hr
      exact underDomain_ne_empty (show Names.consoleRoute ≠ "" by decide) domain "" false

/-! ### Parts that write nothing -/

section

variable {setup ingress ns}

/-- The deployment that had not to go has not to go while its document says so. -/
theorem replay_removeLegacy (ns : String) {z : σ} (hz : S.Holds z) {a : Except Failure Bool} (ha : a ≠ .ok true)
    (hv : verdict S.refusal (S.stored z (Kind.deployment.keyAt ns Names.app)) = a) :
    ∃ t z', (removeLegacy ns).run.Goes h z a t z' ∧ Silent t ∧ S.Holds z' ∧ S.stored z' = S.stored z := by
  have hg := Proc.Goes.of_run h (removeLegacy ns).run z
  obtain ⟨he, hw⟩ := removeLegacy_goes S ns hz hg
  rw [hv] at he
  rw [he] at hg hw
  obtain ⟨hz', hst⟩ := S.stored_of_silent hz hg (hw ha)
  exact ⟨_, _, hg, hw ha, hz', hst⟩

/-- The host is looked for without writing, and is the same at every pass. -/
theorem replay_resolveHost (hS : S.Steady) {s s' z : σ} (hs : S.Holds s) (hz : S.Holds z)
    {a : Except Failure (String × Option String)} {t : List Exchange}
    (hg : ((resolveHost setup ingress ns).run none).run.Goes h s a t s') :
    ∃ t' z', ((resolveHost setup ingress ns).run none).run.Goes h z a t' z' ∧ Silent t' ∧ S.Holds z' ∧
      S.stored z' = S.stored z := by
  obtain ⟨he, hq⟩ := repeats_resolveHost setup ingress ns hS none s z hs hz fun _ hkey => absurd hkey List.not_mem_nil
  have hg' := Proc.Goes.of_run h ((resolveHost setup ingress ns).run none).run z
  rw [hg.1] at he
  have ha : (((resolveHost setup ingress ns).run none).run.run h z).1 = a := by
    generalize (((resolveHost setup ingress ns).run none).run.run h z).1 = a' at he
    cases he with
    | error e => rfl
    | ok hab => rw [Prod.ext hab.1 hab.2]
  rw [ha] at hg'
  exact ⟨_, _, hg', hq, S.stored_of_silent hz hg' hq⟩

/-- The host is looked for without writing. -/
theorem resolveHost_silent (hS : S.Steady) {s s' : σ} (hs : S.Holds s) {a : Except Failure (String × Option String)}
    {t : List Exchange} (hg : ((resolveHost setup ingress ns).run none).run.Goes h s a t s') :
    S.Holds s' ∧ S.stored s' = S.stored s := by
  obtain ⟨-, hq⟩ := repeats_resolveHost setup ingress ns hS none s s hs hs fun _ hkey => absurd hkey List.not_mem_nil
  exact S.stored_of_silent hs hg (hg.silent hq)

end

/-! ### The steps -/

/-- The steps of a pass are of different kinds. -/
theorem kinds_distinct : setup.steps.Pairwise fun earlier later => earlier.kind.name ≠ later.kind.name := by
  have hplan : setup.flavor.plan.Pairwise fun earlier later => earlier.kind.name ≠ later.kind.name := by
    cases setup.flavor with
    | standard => decide
    | cncf domain =>
      have hcncf : [Step.certificates, .service, .config, .clusterCa, .deployment].Pairwise
          fun earlier later => earlier.kind.name ≠ later.kind.name := by decide
      exact hcncf
  exact hplan.filter _

/-- Steps write nothing but their objects. -/
theorem writesOnly_runSteps (steps : List Step) (base : Option String) (status : IngressStatus) :
    (runSteps setup ingress ns host steps base status).WritesOnly (steps.flatMap fun step => step.targets ns) := by
  induction steps generalizing base status with
  | nil => trivial
  | cons step rest ih =>
    unfold runSteps
    rw [List.flatMap_cons]
    refine Proc.Asks.bind ((writesOnly_runStep setup ingress ns host step base).mono (List.subset_append_left _ _)) fun ended => ?_
    rcases ended with cause | ⟨synced, base'⟩
    · exact Proc.writesOnly_ask rfl fun _ => trivial
    · refine Proc.Asks.bind (Proc.writesOnly_ask rfl fun _ => trivial) fun now => ?_
      exact Proc.Asks.bind ((ih base' _).mono (List.subset_append_right _ _)) fun _ => trivial

/-- How steps end once more, given how they ended: they leave the status, unless one failed; then it tells of that. -/
inductive Replayed (status : IngressStatus) : Except (OwnedKind × Failure) (List Synced) →
    IngressStatus × Except (OwnedKind × Failure) (List Synced) → Prop where
  | ok (xs : List Synced) {ys : List Synced} (hy : Idle ys) : Replayed status (.ok xs) (status, .ok ys)
  | error (kind : OwnedKind) (cause : Failure) :
    Replayed status (.error (kind, cause)) (status.withOperand .failed cause.message, .error (kind, cause))

/-- What is done by a step and by those after it. -/
theorem Replayed.map {status status' : IngressStatus} {result result' : Except (OwnedKind × Failure) (List Synced)}
    (hr : Replayed status result (status', result')) (xs : List Synced) {ys : List Synced} (hy : Idle ys) :
    Replayed status (result.map (xs ++ ·)) (status', result'.map (ys ++ ·)) := by
  cases hr with
  | ok zs hz => exact .ok _ (hy.append hz)
  | error kind cause => exact .error kind cause

variable {setup ingress ns host}

/-- A step that is run once more, from a state that keeps what it goes by, ends as it did. -/
theorem replay_runStep (hS : S.Steady) {step : Step} {base : Option String}
    {a : Except Failure (List Synced × Option String)} {t : List Exchange} {s s' z : σ} (hs : S.Holds s) (hz : S.Holds z)
    (hg : ((runStep setup ingress ns host step).run base).run.Goes h s a t s')
    (hst : ∀ key ∈ step.bases ns, S.stored z key = S.stored s' key) :
    ∃ a' t' z', ((runStep setup ingress ns host step).run base).run.Goes h z a' t' z' ∧ Silent t' ∧
      Echoes (Alike fun _ ys => Idle ys) a a' ∧ S.Holds z' ∧ S.stored z' = S.stored z := by
  obtain ⟨hr, -⟩ := hg
  obtain ⟨he, hq⟩ := repeats_runStep setup ingress ns host hS step base s z hs hz (by rw [hr]; exact hst)
  rw [hr] at he
  exact ⟨_, _, _, .of_run h _ z, hq, he, S.holds_run _ hz, S.stored_of_quiet hz hq⟩

/-- The clock is looked at without changing anything else. -/
theorem stored_of_now {now : Instant} {t : List Exchange} {s s' : σ} (hs : S.Holds s)
    (hg : (Proc.request .now).Goes h s now t s') : S.Holds s' ∧ S.stored s' = S.stored s ∧ Silent t := by
  obtain ⟨hr, rfl⟩ := hg
  cases hr
  refine ⟨S.holds .now s hs, funext (S.stored_of_untargeted hs rfl), ?_⟩
  rw [Proc.trace_request]
  exact .singleton id

/-- The steps that follow on one write nothing that it goes by. -/
theorem Progress.stored_of_later {step : Step} {rest : List Step} {base : Option String} {status : IngressStatus}
    {r : IngressStatus × Except (OwnedKind × Failure) (List Synced)} {t : List Exchange} {s s' : σ}
    (hp : Progress h setup ingress ns host rest base status s r t s') (hs : S.Holds s)
    (hd : ∀ later ∈ rest, ∀ key ∈ step.bases ns, key ∉ later.targets ns) {key : ObjectKey} (hkey : key ∈ step.bases ns) :
    S.stored s' key = S.stored s key := by
  refine S.stored_of_goes (writesOnly_runSteps setup ingress ns host rest base status) ?_ hs hp.goes
  intro hm
  obtain ⟨later, hl, hm⟩ := List.mem_flatMap.1 hm
  exact hd later hl key hkey hm

/-- Nor do they mark its kind, so that a status that says what they said has it ready. -/
theorem Progress.markReady_shown {step : Step} {rest : List Step} {base : Option String} {status : IngressStatus} {now now' : Instant}
    {r : IngressStatus × Except (OwnedKind × Failure) (List Synced)} {t : List Exchange} {s s' : σ}
    (hp : Progress h setup ingress ns host rest base (status.markReady step.kind.name now) s r t s')
    (hk : ∀ later ∈ rest, step.kind.name ≠ later.kind.name) {shown : IngressStatus} (hshown : shown.conditions = r.1.conditions) :
    shown.markReady step.kind.name now' = shown := by
  have hframe : r.1.conditions.get? step.kind.name = (status.markReady step.kind.name now).conditions.get? step.kind.name :=
    hp.get?_conditions fun later hl he => hk later hl he.symm
  have hready : (status.markReady step.kind.name now).ShowsReady step.kind.name := IngressStatus.showsReady_markReady _ _ _
  exact IngressStatus.markReady_eq_self now' (hready.congr ((congrArg (·.get? step.kind.name) hshown).trans hframe))

/-- A status that says how a step failed is left as it is if the step fails so once more. -/
theorem markFailed_shown {kind : OwnedKind} {cause : Failure} {status shown : IngressStatus} {now now' : Instant}
    (hshown : shown.conditions = (status.markFailed kind.name cause.condition cause.message now).conditions) :
    shown.markFailed kind.name cause.condition cause.message now' = shown := by
  have hfailed : (status.markFailed kind.name cause.condition cause.message now).ShowsFailed kind.name cause.condition
      cause.message := IngressStatus.showsFailed_markFailed _ _ _ cause.condition_ne_ready _
  exact IngressStatus.markFailed_eq_self now' (hfailed.congr (congrArg (·.get? kind.name) hshown))

/-- Steps that are run once more, from a state that keeps what they go by and with a status that says what they said, end as
they did and leave that status. -/
theorem Progress.replay (hS : S.Steady) {steps : List Step} {base : Option String} {status : IngressStatus}
    {r : IngressStatus × Except (OwnedKind × Failure) (List Synced)} {t : List Exchange} {s s' : σ}
    (hp : Progress h setup ingress ns host steps base status s r t s') (hs : S.Holds s)
    (hd : steps.Pairwise fun earlier later => ∀ key ∈ earlier.bases ns, key ∉ later.targets ns)
    (hk : steps.Pairwise fun earlier later => earlier.kind.name ≠ later.kind.name)
    {shown : IngressStatus} (hshown : shown.conditions = r.1.conditions) {z : σ} (hz : S.Holds z)
    (hst : ∀ step ∈ steps, ∀ key ∈ step.bases ns, S.stored z key = S.stored s' key) :
    ∃ r' t' z', Progress h setup ingress ns host steps base shown z r' t' z' ∧ Silent t' ∧
      Replayed shown r.2 r' := by
  induction hp generalizing shown z with
  | done => exact ⟨_, _, _, .done, .nil, .ok _ .nil⟩
  | failed hr hn =>
    rename_i step rest base status cause now t t' s s₁ s₂
    obtain ⟨-, hnow, -⟩ := stored_of_now S (S.holds_goes hs hr) hn
    have hbases (key : ObjectKey) (hkey : key ∈ step.bases ns) : S.stored z key = S.stored s₁ key := by
      rw [hst step List.mem_cons_self key hkey, hnow]
    obtain ⟨a, u, z₁, hg, hu, he, hz₁, -⟩ := replay_runStep S hS hs hz hr hbases
    have hn' := Proc.Goes.request h .now z₁
    obtain ⟨-, -, hu'⟩ := stored_of_now S hz₁ hn'
    cases he with
    | error e =>
      have hp' : Progress h setup ingress ns host (step :: rest) base shown z
          ((shown.markFailed step.kind.name cause.condition cause.message (h .now z₁).1).withOperand .failed cause.message,
            .error (step.kind, cause)) _ _ := .failed hg hn'
      rw [markFailed_shown hshown] at hp'
      exact ⟨_, _, _, hp', hu.append hu', .error step.kind cause⟩
  | ran hr hn hp ih =>
    rename_i step rest base base' status status' synced result now t t' t'' s s₁ s₂ s'
    obtain ⟨hs₂, hnow, -⟩ := stored_of_now S (S.holds_goes hs hr) hn
    rw [List.pairwise_cons] at hd hk
    have hbases (key : ObjectKey) (hkey : key ∈ step.bases ns) : S.stored z key = S.stored s₁ key := by
      rw [hst step List.mem_cons_self key hkey, hp.stored_of_later S hs₂ hd.1 hkey, hnow]
    obtain ⟨a, u, z₁, hg, hu, he, hz₁, hsame⟩ := replay_runStep S hS hs hz hr hbases
    have hn' := Proc.Goes.request h .now z₁
    obtain ⟨hz₂, hsame', hu'⟩ := stored_of_now S hz₁ hn'
    have hmark : shown.markReady step.kind.name (h .now z₁).1 = shown := hp.markReady_shown hk.1 hshown
    cases he with
    | ok he =>
      rename_i b
      obtain ⟨ys, base''⟩ := b
      obtain ⟨hidle, rfl⟩ : Idle ys ∧ base' = base'' := he
      obtain ⟨r', u'', z', hp', hu'', hreplayed⟩ := ih hs₂ hd.2 hk.2 hshown hz₂ fun later hl key hkey => by
        rw [hsame', hsame]
        exact hst later (List.mem_cons_of_mem _ hl) key hkey
      obtain ⟨shown', result'⟩ := r'
      have hp'' : Progress h setup ingress ns host (step :: rest) base shown z (shown', result'.map (ys ++ ·)) _ _ :=
        .ran hg hn' (hmark.symm ▸ hp')
      exact ⟨_, _, _, hp'', hu.append (hu'.append hu''), hreplayed.map synced hidle⟩

end IngressOperator.Pass
