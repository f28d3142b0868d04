import IngressOperator.Proofs.Cluster.Direct
import IngressOperator.Proofs.Pass.Course
import IngressOperator.Proofs.Pass.Replay
import IngressOperator.Proofs.Status.Reported

/-!
# The status after a pass

However the requests of a pass are answered, if its new statuses are accepted, then the status that it leaves tells how it ended:
which step failed and why, or that all of them ran, or that the external host was not found.

## Main statements

* `Pass.ends_run`: every way in which a pass ends, with the status that is stored then.
-/

namespace IngressOperator.Pass

variable {σ : Type} {h : Proc.Handler σ} {setup : Setup} {ingress : ManagementIngress} {ns host : String}

/-! ### Steps that ran, and one that failed -/

/-- What is said of the kinds of steps that all ran. -/
theorem Progress.showsReady {steps : List Step} {base : Option String} {status : IngressStatus}
    {r : IngressStatus × Except (OwnedKind × Failure) (List Synced)} {t : List Exchange} {s s' : σ}
    (hp : Progress h setup ingress ns host steps base status s r t s') {synced : List Synced} (hr : r.2 = .ok synced)
    (hd : steps.Pairwise fun earlier later => earlier.kind.name ≠ later.kind.name) :
    ∀ step ∈ steps, r.1.ShowsReady step.kind.name := by
  induction hp generalizing synced with
  | done =>
    intro step hm
    cases hm
  | failed hg hn => cases hr
  | ran hg hn hp ih =>
    rename_i step rest base base' status status' synced' result now t t' t'' s s₁ s₂ s'
    obtain ⟨hfirst, hrest⟩ := List.pairwise_cons.1 hd
    cases result with
    | error e => cases hr
    | ok ys =>
      intro step' hm
      rcases List.mem_cons.1 hm with rfl | hm
      · have hmarked := status.showsReady_markReady step'.kind.name now
        exact hmarked.congr (hp.get?_conditions fun later hlater he => hfirst later hlater he.symm)
      · exact ih rfl hrest step' hm

/-- If a step fails, those before it ran, and nothing is asked for after it but the time. -/
theorem Progress.failed_at {steps : List Step} {base : Option String} {status : IngressStatus}
    {r : IngressStatus × Except (OwnedKind × Failure) (List Synced)} {t : List Exchange} {s s' : σ}
    (hp : Progress h setup ingress ns host steps base status s r t s') {kind : OwnedKind} {cause : Failure}
    (hr : r.2 = .error (kind, cause)) :
    ∃ ran step rest base' status' synced now t₁ t₂ s₁ s₂, steps = ran ++ step :: rest ∧ kind = step.kind ∧
      Progress h setup ingress ns host ran base status s (status', .ok synced) t₁ s₁ ∧
        ((runStep setup ingress ns host step).run base').run.Goes h s₁ (.error cause) t₂ s₂ ∧
          t = t₁ ++ (t₂ ++ [⟨.now, now⟩]) ∧
            r.1 = (status'.markFailed step.kind.name cause.condition cause.message now).withOperand .failed cause.message := by
  induction hp with
  | done => cases hr
  | failed hg hn =>
    rename_i step rest base status cause' now t t' s s₁ s₂
    cases hr
    obtain ⟨hrun, rfl⟩ := hn
    cases hrun
    exact ⟨[], step, rest, base, status, [], _, [], t, s, s₁, rfl, rfl, .done, hg, rfl, rfl⟩
  | ran hg hn hp ih =>
    rename_i step rest base base' status status' synced result now t t' t'' s s₁ s₂ s'
    have hresult : result = .error (kind, cause) := by
      cases result with
      | ok ys => cases hr
      | error e =>
        cases hr
        rfl
    obtain ⟨ran, failing, rest', base'', status'', synced', now', t₁, t₂, s₃, s₄, rfl, hkind, hran, hfails, rfl, hstatus⟩ := ih hresult
    refine ⟨step :: ran, failing, rest', base'', status'', synced ++ synced', now', t ++ (t' ++ t₁), t₂, s₃, s₄, rfl, hkind, ?_,
      hfails, ?_, hstatus⟩
    · exact .ran hg hn hran
    · simp only [List.append_assoc]

/-! ### What a status tells -/

/-- What was said of a kind before, if the report was of the host, and nothing if a new report had to be begun. -/
def carried (prior : IngressStatus) (host kind : String) : Option (List Condition) :=
  if prior.host ≠ "" ∧ prior.host = host then prior.conditions.get? kind else none

/-- Whether a status tells that a step failed after others ran. -/
structure TellsFailure (prior : IngressStatus) (host : String) (ran : List Step) (step : Step) (cause : Failure)
    (status : IngressStatus) : Prop where
  host_eq : status.host = host
  operand : status.operandState = ⟨.failed, cause.message⟩
  failed : status.ShowsFailed step.kind.name cause.condition cause.message
  ready : ∀ earlier ∈ ran, status.ShowsReady earlier.kind.name
  others : ∀ kind, kind ≠ step.kind.name → (∀ earlier ∈ ran, earlier.kind.name ≠ kind) →
    status.conditions.get? kind = carried prior host kind

/-- Whether a status tells that all steps ran. -/
structure TellsSuccess (prior : IngressStatus) (host : String) (ran : List Step) (status : IngressStatus) : Prop where
  host_eq : status.host = host
  operand : status.operandState = ⟨.successful, successMessage⟩
  ready : ∀ step ∈ ran, status.ShowsReady step.kind.name
  others : ∀ kind, (∀ step ∈ ran, step.kind.name ≠ kind) → status.conditions.get? kind = carried prior host kind

/-- What a report starts with: the host, and what is carried over. -/
theorem starts_announced {written status : IngressStatus}
    (hs : ofHost written host ∧ status = written ∨ ¬ ofHost written host ∧ ∃ now, status = begun host now) :
    status.host = host ∧ ∀ kind, status.conditions.get? kind = carried written host kind := by
  have hof : ofHost written host ↔ written.host ≠ "" ∧ written.host = host := by
    unfold ofHost
    simp
  unfold carried
  rcases hs with ⟨ho, rfl⟩ | ⟨ho, now, rfl⟩
  · refine ⟨ho.host, fun kind => ?_⟩
    rw [if_pos (hof.1 ho)]
  · refine ⟨rfl, fun kind => ?_⟩
    rw [if_neg fun hsame => ho (hof.2 hsame)]
    rfl

/-- After steps of which one failed, the status tells so. -/
theorem tellsFailure_of_progress {prior start : IngressStatus} {ran rest : List Step} {step : Step} {base : Option String}
    {status : IngressStatus} {synced : List Synced} {t : List Exchange} {s s' : σ} {cause : Failure} (now : Instant)
    (hstart : start.host = host ∧ ∀ kind, start.conditions.get? kind = carried prior host kind)
    (hd : (ran ++ step :: rest).Pairwise fun earlier later => earlier.kind.name ≠ later.kind.name)
    (hp : Progress h setup ingress ns host ran base start s (status, .ok synced) t s') :
    TellsFailure prior host ran step cause
      ((status.markFailed step.kind.name cause.condition cause.message now).withOperand .failed cause.message) where
  host_eq := hp.host_podState.1.trans hstart.1
  operand := rfl
  failed := status.showsFailed_markFailed step.kind.name now cause.condition_ne_ready cause.message
  ready earlier hm := by
    obtain ⟨hran, -, hcross⟩ := List.pairwise_append.1 hd
    have hready : status.ShowsReady earlier.kind.name := hp.showsReady rfl hran earlier hm
    refine hready.congr ?_
    exact (IngressStatus.get?_markFailed _ _ _ _ _ _).trans (if_neg (hcross earlier hm step List.mem_cons_self))
  others kind hne hran := by
    refine (IngressStatus.get?_markFailed _ _ _ _ _ _).trans ((if_neg hne).trans ?_)
    rw [hp.get?_conditions hran]
    exact hstart.2 kind

/-- After steps that all ran, the status tells so. -/
theorem tellsSuccess_of_progress {prior start : IngressStatus} {steps : List Step} {base : Option String}
    {status : IngressStatus} {synced : List Synced} {t : List Exchange} {s s' : σ} (pods : Except Failure (List Pod))
    (hstart : start.host = host ∧ ∀ kind, start.conditions.get? kind = carried prior host kind)
    (hd : steps.Pairwise fun earlier later => earlier.kind.name ≠ later.kind.name)
    (hp : Progress h setup ingress ns host steps base start s (status, .ok synced) t s') :
    TellsSuccess prior host steps (concluded status pods) where
  host_eq := (host_concluded status pods).trans (hp.host_podState.1.trans hstart.1)
  operand := by cases pods <;> rfl
  ready step hm := by
    have hready : status.ShowsReady step.kind.name := hp.showsReady rfl hd step hm
    refine hready.congr ?_
    rw [conditions_concluded]
  others kind hran := by
    rw [conditions_concluded, hp.get?_conditions hran]
    exact hstart.2 kind

/-! ### How a pass ends -/

/-- How a pass ends: with which result, after which exchanges, with which status stored then, and in which state. -/
inductive Ends (h : Proc.Handler σ) (setup : Setup) (ingress : ManagementIngress) (s : σ) :
    Except PassFailure PassOutcome → List Exchange → IngressStatus → σ → Prop where
  /-- The custom resource has no namespace, and nothing is asked for. -/
  | nameless (hn : ingress.metadata.ns = none) :
    Ends h setup ingress s (.error (.plain (.metadataMissing (.namespaceOf ManagementIngress.kind ingress.metadata.shownName))))
      [] (ingress.status.getD {}) s
  /-- The deployment cannot be looked at or deleted, and nothing is reported. -/
  | blocked {ns : String} {cause : Failure} {t : List Exchange} {s' : σ} (hn : ingress.metadata.ns = some ns)
    (legacy : (removeLegacy ns).run.Goes h s (.error cause) t s') :
    Ends h setup ingress s (.error (.step .deployment ingress.metadata.shownName cause)) t (ingress.status.getD {}) s'
  /-- The deployment was deleted, and nothing is reported. -/
  | removed {ns : String} {t : List Exchange} {s' : σ} (hn : ingress.metadata.ns = some ns)
    (legacy : (removeLegacy ns).run.Goes h s (.ok true) t s') :
    Ends h setup ingress s (.ok (.requeue 5)) t (ingress.status.getD {}) s'
  /-- The external host is not found, and nothing changes in the status but the state of the operand. -/
  | hostless {ns : String} {cause : Failure} {t₁ t₂ t₃ : List Exchange} {s₁ s₂ s' : σ} (hn : ingress.metadata.ns = some ns)
    (legacy : (removeLegacy ns).run.Goes h s (.ok false) t₁ s₁)
    (fails : ((resolveHost setup ingress ns).run none).run.Goes h s₁ (.error cause) t₂ s₂)
    (idle : ∀ x ∈ t₃, x.request.Reports) :
    Ends h setup ingress s (.error (.plain cause)) (t₁ ++ (t₂ ++ t₃))
      ((ingress.status.getD {}).withOperand .failed cause.message) s'
  /-- A step fails, nothing is asked for after that but the time and a new status, and that tells of the failure. -/
  | failed {ns host : String} {base base' : Option String} {ran rest : List Step} {step : Step} {cause : Failure}
    {start before status : IngressStatus} {synced : List Synced} {t₁ t₂ t₃ t₄ t₅ : List Exchange} {s₁ s₂ s₃ s₄ s₅ s' : σ}
    (hn : ingress.metadata.ns = some ns) (legacy : (removeLegacy ns).run.Goes h s (.ok false) t₁ s₁)
    (resolved : ((resolveHost setup ingress ns).run none).run.Goes h s₁ (.ok (host, base)) t₂ s₂)
    (announced : (announceHost ingress (ingress.status.getD {}) host).run.Goes h s₂ (.ok start) t₃ s₃)
    (plan : setup.steps = ran ++ step :: rest)
    (earlier : Progress h setup ingress ns host ran base start s₃ (before, .ok synced) t₄ s₄)
    (fails : ((runStep setup ingress ns host step).run base').run.Goes h s₄ (.error cause) t₅ s₅)
    {t₆ : List Exchange} (idle : ∀ x ∈ t₆, x.request = .now ∨ x.request.Reports)
    (tells : TellsFailure (ingress.status.getD {}) host ran step cause status) :
    Ends h setup ingress s (.error (.step step.kind ingress.metadata.shownName cause))
      (t₁ ++ (t₂ ++ (t₃ ++ (t₄ ++ (t₅ ++ t₆))))) status s'
  /-- Every step ran, and the status tells so. -/
  | completed {ns host : String} {base : Option String} {start before status : IngressStatus} {synced : List Synced}
    {t₁ t₂ t₃ t₄ t₅ : List Exchange} {s₁ s₂ s₃ s₄ s' : σ} (hn : ingress.metadata.ns = some ns)
    (legacy : (removeLegacy ns).run.Goes h s (.ok false) t₁ s₁)
    (resolved : ((resolveHost setup ingress ns).run none).run.Goes h s₁ (.ok (host, base)) t₂ s₂)
    (announced : (announceHost ingress (ingress.status.getD {}) host).run.Goes h s₂ (.ok start) t₃ s₃)
    (ran : Progress h setup ingress ns host setup.steps base start s₃ (before, .ok synced) t₄ s₄)
    (tells : TellsSuccess (ingress.status.getD {}) host setup.steps status) :
    Ends h setup ingress s (.ok (.completed synced)) (t₁ ++ (t₂ ++ (t₃ ++ (t₄ ++ t₅)))) status s'

/-- Writing a status asks for nothing but a new status. -/
theorem reports_of_writeStatus {written status : IngressStatus} {answer : Except Failure IngressStatus} {t : List Exchange}
    {s s' : σ} (hg : (writeStatus ingress written status).run.Goes h s answer t s') : ∀ x ∈ t, x.request.Reports := by
  by_cases hne : written = status
  · rw [hne, writeStatus_self] at hg
    obtain ⟨-, rfl, -⟩ := hg.of_done
    exact fun _ hx => absurd hx List.not_mem_nil
  · rw [run_writeStatus_of_ne hne] at hg
    obtain ⟨-, rfl⟩ := hg
    intro x hx
    rw [Proc.trace_ask] at hx
    rcases List.mem_cons.1 hx with rfl | hx
    · trivial
    · cases hx

/-- Looking whether the deployment has to go asks for no new status. -/
theorem unreporting_removeLegacy (ns : String) : (removeLegacy ns).run.Unreporting :=
  (unreporting_parts {} ns).removeLegacy ⟨id, fun _ _ => trivial⟩

/-- However its requests are answered, a pass whose new statuses are accepted ends in one of these ways, with this status stored
then. -/
theorem ends_run (h : Proc.Handler σ) (setup : Setup) (ingress : ManagementIngress) (s : σ)
    (haccepted : Accepted ((run setup ingress).trace h s)) :
    Ends h setup ingress s ((run setup ingress).run h s).1 ((run setup ingress).trace h s)
      (reported ((run setup ingress).trace h s) (ingress.status.getD {})) ((run setup ingress).run h s).2 := by
  cases hns : ingress.metadata.ns with
  | none =>
    have hrun : run setup ingress =
        .done (.error (.plain (.metadataMissing (.namespaceOf ManagementIngress.kind ingress.metadata.shownName)))) := by
      unfold run
      simp only [hns]
      rfl
    rw [hrun]
    exact .nameless hns
  | some ns =>
    have hg := Proc.Goes.of_run h (run setup ingress) s
    generalize ((run setup ingress).run h s).1 = result at hg ⊢
    generalize (run setup ingress).trace h s = t at haccepted hg ⊢
    generalize ((run setup ingress).run h s).2 = s' at hg ⊢
    have hlegacy {a : Except Failure Bool} {t₁ : List Exchange} {s₁ : σ} (hl : (removeLegacy ns).run.Goes h s a t₁ s₁) :
        reported t₁ (ingress.status.getD {}) = ingress.status.getD {} :=
      (unreporting_removeLegacy ns).reported hl _
    have hresolve {a : Except Failure (String × Option String)} {t₂ : List Exchange} {s₁ s₂ : σ}
        (hh : ((resolveHost setup ingress ns).run none).run.Goes h s₁ a t₂ s₂) (status : IngressStatus) :
        reported t₂ status = status :=
      Proc.Unreporting.reported ((unreporting_parts ingress ns).resolveHost setup none) hh status
    have hsteps {host : String} {base : Option String} {start : IngressStatus}
        {r : IngressStatus × Except (OwnedKind × Failure) (List Synced)} {t₄ : List Exchange} {s₃ s₄ : σ}
        (hr : (runSteps setup ingress ns host setup.steps base start).Goes h s₃ r t₄ s₄) (status : IngressStatus) :
        reported t₄ status = status :=
      Proc.Unreporting.reported ((unreporting_parts ingress ns).runSteps setup host setup.steps base start) hr status
    cases Course.of_goes hns hg with
    | blocked hl =>
      rw [hlegacy hl]
      exact .blocked hns hl
    | removed hl =>
      rw [hlegacy hl]
      exact .removed hns hl
    | hostless hl hh hw =>
      obtain ⟨-, hreported⟩ := reported_writeStatus hw haccepted.right.right
      rw [reported_append, reported_append, hlegacy hl, hresolve hh, hreported]
      exact .hostless hns hl hh (reports_of_writeStatus hw)
    | unannounced hl hh ha =>
      obtain ⟨status, hok, -⟩ := reported_announceHost ha haccepted.right.right
      cases hok
    | failed hl hh ha hr hw =>
      rename_i kind cause host base written status answer t₁ t₂ t₃ t₄ t₅ s₁ s₂ s₃ s₄
      obtain ⟨start, hok, hannounced, hstarts⟩ := reported_announceHost ha haccepted.right.right.left
      cases hok
      obtain ⟨-, hreported⟩ := reported_writeStatus hw haccepted.right.right.right.right
      obtain ⟨ran, step, rest, base', before, synced, now, u₁, u₂, z₁, z₂, hplan, rfl, hran, hfails, rfl, hstatus⟩ :=
        (Progress.of_goes hr).failed_at rfl
      rw [reported_append, reported_append, reported_append, reported_append, hlegacy hl, hresolve hh, hannounced, hsteps hr,
        hreported]
      have htells : TellsFailure (ingress.status.getD {}) host ran step cause status := by
        have hd := kinds_distinct setup
        rw [hplan] at hd
        dsimp only at hstatus
        rw [hstatus]
        exact tellsFailure_of_progress now (starts_announced hstarts) hd hran
      have hidle : ∀ x ∈ [⟨.now, now⟩] ++ t₅, x.request = .now ∨ x.request.Reports := by
        intro x hx
        rcases List.mem_append.1 hx with hx | hx
        · rw [List.mem_singleton.1 hx]
          exact .inl rfl
        · exact .inr (reports_of_writeStatus hw x hx)
      have hend : Ends h setup ingress s (.error (.step step.kind ingress.metadata.shownName cause))
          (t₁ ++ (t₂ ++ (t₃ ++ (u₁ ++ (u₂ ++ ([⟨.now, now⟩] ++ t₅)))))) status s' :=
        .failed hns hl hh ha hplan hran hfails hidle htells
      simpa only [List.append_assoc] using hend
    | unreported hl hh ha hr hf =>
      obtain ⟨hok, -⟩ := reported_finish hf haccepted.right.right.right.right
      cases hok
    | completed hl hh ha hr hf =>
      rename_i host base written status synced t₁ t₂ t₃ t₄ t₅ s₁ s₂ s₃ s₄
      obtain ⟨start, hok, hannounced, hstarts⟩ := reported_announceHost ha haccepted.right.right.left
      cases hok
      obtain ⟨-, pods, hreported⟩ := reported_finish hf haccepted.right.right.right.right
      rw [reported_append, reported_append, reported_append, reported_append, hlegacy hl, hresolve hh, hannounced, hsteps hr,
        hreported]
      have hp := Progress.of_goes hr
      exact .completed hns hl hh ha hp (tellsSuccess_of_progress pods (starts_announced hstarts) (kinds_distinct setup) hp)

/-! ### On a small cluster -/

open Cluster

/-- The small cluster, in which the config map that tells of the cluster cannot be created once. -/
def faultyCluster : Cluster :=
  { Small.cluster with faults := [{ verb := .create, kind := Kind.configMap.name, name := some Names.clusterInfo }] }

/-- A pass over that cluster ends as a pass may whose new statuses are accepted. -/
theorem faulty_pass_ends :
    Accepted ((run Small.setup Small.ingress).trace Direct.handler faultyCluster) ∧
      Ends Direct.handler Small.setup Small.ingress faultyCluster
        ((run Small.setup Small.ingress).run Direct.handler faultyCluster).1
        ((run Small.setup Small.ingress).trace Direct.handler faultyCluster)
        (reported ((run Small.setup Small.ingress).trace Direct.handler faultyCluster) (Small.ingress.status.getD {}))
        ((run Small.setup Small.ingress).run Direct.handler faultyCluster).2 := by
  have haccepted : Accepted ((run Small.setup Small.ingress).trace Direct.handler faultyCluster) := by
    unfold Accepted
    decide +kernel
  exact ⟨haccepted, ends_run Direct.handler Small.setup Small.ingress faultyCluster haccepted⟩

end IngressOperator.Pass
