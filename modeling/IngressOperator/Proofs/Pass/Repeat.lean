import IngressOperator.Proofs.Cluster.Direct
import IngressOperator.Proofs.Pass.Course
import IngressOperator.Proofs.Pass.Replay

/-!
# A pass that is repeated

A pass for the custom resource as it is read after a pass, with nobody else writing in between, changes nothing. It takes the
course of the first one, down to the failure if that failed, and finds every object and the status as they should be.

## Main statements

* `Pass.Course.replay`: every course of a pass but that which deletes a deployment is taken again, quietly.
* `Pass.repeated_pass_quiet`: a pass that is repeated writes nothing and ends as it did.
-/

namespace IngressOperator.Pass

/-- How a pass ends that is repeated: it fails for the same reason, or every object is found to be there as it should be. -/
inductive EndsAlike : Except PassFailure PassOutcome → Except PassFailure PassOutcome → Prop where
  | failed (e : PassFailure) : EndsAlike (.error e) (.error e)
  | completed (xs : List Synced) {ys : List Synced} (hy : ∀ y ∈ ys, y.outcome = .unchanged ∨ y.outcome = .existing) :
    EndsAlike (.ok (.completed xs)) (.ok (.completed ys))

/-- What is not written is unchanged, or only has to exist. -/
theorem Idle.outcome {ys : List Synced} (hy : Idle ys) : ∀ y ∈ ys, y.outcome = .unchanged ∨ y.outcome = .existing := by
  intro y hm
  have hidle := hy y hm
  cases ho : y.outcome with
  | unchanged => exact .inl rfl
  | existing => exact .inr rfl
  | _ =>
    rw [ho] at hidle
    cases hidle

/-- The custom resource is no object that a step writes. -/
theorem ingress_not_target (ns ns' name : String) (steps : List Step) :
    Kind.managementIngress.keyAt ns' name ∉ steps.flatMap fun step => step.targets ns := by
  intro hm
  obtain ⟨step, -, hm⟩ := List.mem_flatMap.1 hm
  cases step <;> simp [Step.targets, Kind.keyAt_inj] at hm

/-- Nor is it one that a step goes by. -/
theorem ne_ingress_of_mem_bases {ns ns' name : String} {step : Step} {key : ObjectKey} (hk : key ∈ step.bases ns) :
    key ≠ Kind.managementIngress.keyAt ns' name := by
  rintro rfl
  cases step <;> simp [Step.bases, Step.targets, Kind.keyAt_inj] at hk

variable {σ : Type} {h : Proc.Handler σ} (S : ObjectStore h) {setup : Setup} {ingress : ManagementIngress} {ns name : String}

/-- The parts of a pass up to the host are taken again. -/
theorem replay_beginning (hS : S.Steady) {s s₁ s₂ z : σ} {host : Except Failure (String × Option String)} {t₁ t₂ : List Exchange}
    (hs : S.Holds s) (hz : S.Holds z) (hl : (removeLegacy ns).run.Goes h s (.ok false) t₁ s₁)
    (hh : ((resolveHost setup ingress ns).run none).run.Goes h s₁ host t₂ s₂)
    (hstay : MayStay (S.stored z (Kind.deployment.keyAt ns Names.app))) :
    ∃ u₁ z₁ u₂ z₂, (removeLegacy ns).run.Goes h z (.ok false) u₁ z₁ ∧
      ((resolveHost setup ingress ns).run none).run.Goes h z₁ host u₂ z₂ ∧ Silent (u₁ ++ u₂) ∧ S.Holds z₂ ∧
        S.stored z₂ = S.stored z := by
  have hs₁ := S.holds_goes hs hl
  obtain ⟨u₁, z₁, hl', hu₁, hz₁, hst₁⟩ := replay_removeLegacy S ns (a := .ok false) hz nofun (verdict_eq_false.2 hstay)
  obtain ⟨u₂, z₂, hh', hu₂, hz₂, hst₂⟩ := replay_resolveHost S hS hs₁ hz₁ hh
  exact ⟨u₁, z₁, u₂, z₂, hl', hh', hu₁.append hu₂, hz₂, hst₂.trans hst₁⟩

/-- Where the parts of a pass up to the host leave the store, and that the deployment may stay. -/
theorem stored_of_beginning (hS : S.Steady) {s s₁ s₂ : σ} {host : Except Failure (String × Option String)}
    {t₁ t₂ : List Exchange} (hs : S.Holds s) (hl : (removeLegacy ns).run.Goes h s (.ok false) t₁ s₁)
    (hh : ((resolveHost setup ingress ns).run none).run.Goes h s₁ host t₂ s₂) :
    S.Holds s₂ ∧ S.stored s₂ = S.stored s ∧ MayStay (S.stored s (Kind.deployment.keyAt ns Names.app)) := by
  obtain ⟨hv, hw⟩ := removeLegacy_goes S ns hs hl
  obtain ⟨hs₁, hst₁⟩ := S.stored_of_silent hs hl (hw nofun)
  obtain ⟨hs₂, hst₂⟩ := resolveHost_silent S hS hs₁ hh
  exact ⟨hs₂, hst₂.trans hst₁, verdict_eq_false.1 hv.symm⟩

/-- What the steps leave: the custom resource, and a deployment that may stay. -/
theorem stored_of_steps (name : String) {host : String} {base : Option String} {written : IngressStatus} {s s' : σ}
    {r : IngressStatus × Except (OwnedKind × Failure) (List Synced)} {t : List Exchange} (hs : S.Holds s)
    (hg : (runSteps setup ingress ns host setup.steps base written).Goes h s r t s')
    (hstay : MayStay (S.stored s (Kind.deployment.keyAt ns Names.app))) :
    S.stored s' (Kind.managementIngress.keyAt ns name) = S.stored s (Kind.managementIngress.keyAt ns name) ∧
      MayStay (S.stored s' (Kind.deployment.keyAt ns Names.app)) := by
  constructor
  · exact S.stored_of_goes (writesOnly_runSteps setup ingress ns host _ base written) (ingress_not_target ns ns name _) hs hg
  · have hlasts : Lasts S (OwnedKind.deployment.kind.keyAt ns Names.app) MayStay
        (runSteps setup ingress ns host setup.steps base written) :=
      (lasts_parts S (lasting_mayStay ingress) ns Names.app ns).runSteps setup host _ _ _
    have hlast := hlasts s hs hstay
    rw [hg.1] at hlast
    exact hlast

/-- The status that a pass leaves is stored, and for the custom resource as it is read then a pass takes the same course,
quietly. -/
def Replays (S : ObjectStore h) (setup : Setup) (ingress : ManagementIngress) (ns name : String)
    (result : Except PassFailure PassOutcome) (s' : σ) : Prop :=
  ∃ shown, S.Reports ingress (Kind.managementIngress.keyAt ns name) shown s' ∧
    ∀ version status z, status.getD {} = shown → S.Holds z → S.stored z = S.stored s' →
      ∃ result' t' z', Course h setup (ingress.again version status) ns z result' t' z' ∧ Silent t' ∧ EndsAlike result result'

section

variable (hS : S.Steady) (hk : Kind.objectKey? .managementIngress ingress = some (Kind.managementIngress.keyAt ns name))

include hS hk

/-- A pass that does not find the host is taken again. -/
theorem replay_hostless {cause : Failure} {answer : Except Failure IngressStatus} {t₁ t₂ t₃ : List Exchange} {s s₁ s₂ s₃ : σ}
    (hs : S.Holds s) (hr : S.Reports ingress (Kind.managementIngress.keyAt ns name) (ingress.status.getD {}) s)
    (hcal : (ingress.status.getD {}).InCalendar) (hl : (removeLegacy ns).run.Goes h s (.ok false) t₁ s₁)
    (hh : ((resolveHost setup ingress ns).run none).run.Goes h s₁ (.error cause) t₂ s₂)
    (hw : (writeStatus ingress (ingress.status.getD {})
      ((ingress.status.getD {}).withOperand .failed cause.message)).run.Goes h s₂ answer t₃ s₃) :
    Replays S setup ingress ns name (.error (.plain cause)) s₃ := by
  obtain ⟨hs₂, hst₂, hstay⟩ := stored_of_beginning S hS hs hl hh
  obtain ⟨-, hrep⟩ := reports_writeStatus S hs₂ hk (hr.congr (congrFun hst₂ _)) (hcal.withOperand .failed cause.message) hw
  refine ⟨_, hrep, fun version status z hshown hz hsz => ?_⟩
  have hst₃ : S.stored s₃ (Kind.deployment.keyAt ns Names.app) = S.stored s (Kind.deployment.keyAt ns Names.app) := by
    rw [S.stored_of_goes (writesOnly_writeStatus ingress _ _) (by simp [hk, Kind.keyAt_inj]) hs₂ hw, hst₂]
  obtain ⟨u₁, z₁, u₂, z₂, hl', hh', hu, -, -⟩ := replay_beginning S hS hs hz hl hh (by rw [hsz, hst₃]; exact hstay)
  have hw' : (writeStatus (ingress.again version status) (status.getD {})
      ((status.getD {}).withOperand .failed cause.message)).run.Goes h z₂ (.ok (status.getD {})) [] z₂ := by
    have hself : (status.getD {}).withOperand .failed cause.message = status.getD {} := by rw [hshown]; rfl
    rw [hself, writeStatus_self]
    exact .done h _ z₂
  refine ⟨_, _, _, .hostless hl' hh' hw', ?_, .failed _⟩
  rw [List.append_nil]
  exact hu

/-- Where the steps of a pass leave the store and the status, before they are reported. -/
theorem stored_before_report {host : String} {base : Option String} {written : IngressStatus}
    {r : IngressStatus × Except (OwnedKind × Failure) (List Synced)} {t₁ t₂ t₃ t₄ : List Exchange} {s s₁ s₂ s₃ s₄ : σ}
    (hs : S.Holds s) (hr : S.Reports ingress (Kind.managementIngress.keyAt ns name) (ingress.status.getD {}) s)
    (hcal : (ingress.status.getD {}).InCalendar) (hnow : ∀ now, (⟨.now, now⟩ : Exchange) ∈ t₄ → now.InCalendar)
    (hl : (removeLegacy ns).run.Goes h s (.ok false) t₁ s₁)
    (hh : ((resolveHost setup ingress ns).run none).run.Goes h s₁ (.ok (host, base)) t₂ s₂)
    (ha : (announceHost ingress (ingress.status.getD {}) host).run.Goes h s₂ (.ok written) t₃ s₃)
    (hg : (runSteps setup ingress ns host setup.steps base written).Goes h s₃ r t₄ s₄) :
    S.Holds s₃ ∧ S.Holds s₄ ∧ r.1.host = host ∧ r.1.InCalendar ∧
      S.Reports ingress (Kind.managementIngress.keyAt ns name) written s₄ ∧
        MayStay (S.stored s₄ (Kind.deployment.keyAt ns Names.app)) := by
  obtain ⟨hs₂, hst₂, hstay⟩ := stored_of_beginning S hS hs hl hh
  obtain ⟨_, hwritten, hhost, hcal', hrep⟩ := reports_announceHost S hs₂ hk (hr.congr (congrFun hst₂ _)) hcal ha
  cases hwritten
  have hs₃ := S.holds_goes hs₂ ha
  have hstay₃ : MayStay (S.stored s₃ (Kind.deployment.keyAt ns Names.app)) := by
    rw [S.stored_of_goes (writesOnly_announceHost ingress _ _) (by simp [hk, Kind.keyAt_inj]) hs₂ ha, hst₂]
    exact hstay
  obtain ⟨hst₄, hstay₄⟩ := stored_of_steps S name hs₃ hg hstay₃
  have hp := Progress.of_goes hg
  exact ⟨hs₃, S.holds_goes hs₃ hg, hp.host_podState.1.trans hhost, hp.inCalendar hcal' hnow, hrep.congr hst₄, hstay₄⟩

/-- The steps of a pass are taken again with a status of the same host that says the same of every kind. -/
theorem replay_steps {host : String} {base : Option String} {written shown : IngressStatus}
    {r : IngressStatus × Except (OwnedKind × Failure) (List Synced)} {t₁ t₂ t₃ t₄ : List Exchange} {s s₁ s₂ s₃ s₄ z : σ}
    (hs : S.Holds s) (hr : S.Reports ingress (Kind.managementIngress.keyAt ns name) (ingress.status.getD {}) s)
    (hcal : (ingress.status.getD {}).InCalendar) (hnow : ∀ now, (⟨.now, now⟩ : Exchange) ∈ t₄ → now.InCalendar)
    (hl : (removeLegacy ns).run.Goes h s (.ok false) t₁ s₁)
    (hh : ((resolveHost setup ingress ns).run none).run.Goes h s₁ (.ok (host, base)) t₂ s₂)
    (ha : (announceHost ingress (ingress.status.getD {}) host).run.Goes h s₂ (.ok written) t₃ s₃)
    (hg : (runSteps setup ingress ns host setup.steps base written).Goes h s₃ r t₄ s₄)
    (hz : S.Holds z) (hst : ∀ key, key ≠ Kind.managementIngress.keyAt ns name → S.stored z key = S.stored s₄ key)
    (hconditions : shown.conditions = r.1.conditions) (hhost : shown.host = host)
    (version : Option String) (status : Option IngressStatus) :
    ∃ r' u₁ u₂ u₄ z₁ z₂ z₄, (removeLegacy ns).run.Goes h z (.ok false) u₁ z₁ ∧
      ((resolveHost setup (ingress.again version status) ns).run none).run.Goes h z₁ (.ok (host, base)) u₂ z₂ ∧
        (announceHost (ingress.again version status) shown host).run.Goes h z₂ (.ok shown) [] z₂ ∧
          (runSteps setup (ingress.again version status) ns host setup.steps base shown).Goes h z₂ r' u₄ z₄ ∧
            Silent (u₁ ++ (u₂ ++ u₄)) ∧ Replayed shown r.2 r' ∧ S.Holds z₄ ∧ S.stored z₄ = S.stored z := by
  obtain ⟨hs₃, -, hhost', -, -, hstay⟩ := stored_before_report S hS hk hs hr hcal hnow hl hh ha hg
  have hdoc := hst (Kind.deployment.keyAt ns Names.app) (by simp [Kind.keyAt_inj])
  obtain ⟨u₁, z₁, u₂, z₂, hl', hh', hu, hz₂, hst₂⟩ := replay_beginning S hS hs hz hl hh (by rw [hdoc]; exact hstay)
  have hof : ofHost shown host := by
    have hne := host_ne_empty setup ingress ns host hh
    rw [← hhost] at hne ⊢
    exact ofHost_self hne
  obtain ⟨r', u₄, z₄, hp, hu₄, hreplayed⟩ := (Progress.of_goes hg).replay S hS hs₃ (targets_disjoint setup ns)
    (kinds_distinct setup) hconditions hz₂ fun step _ key hkey => by
      rw [hst₂]
      exact hst key (ne_ingress_of_mem_bases hkey)
  obtain ⟨hz₄, hst₄⟩ := S.stored_of_silent hz₂ hp.goes hu₄
  refine ⟨r', u₁, u₂, u₄, z₁, z₂, z₄, hl', hh', ?_, ?_, ?_, hreplayed, hz₄, hst₄.trans hst₂⟩
  · rw [announceHost_same _ hof]
    exact .done h _ z₂
  · rw [runSteps_again]
    exact hp.goes
  · rw [← List.append_assoc]
    exact hu.append hu₄

/-- A pass in which a step fails is taken again. -/
theorem replay_failed {kind : OwnedKind} {cause : Failure} {host : String} {base : Option String} {written status : IngressStatus}
    {answer : Except Failure IngressStatus} {t₁ t₂ t₃ t₄ t₅ : List Exchange} {s s₁ s₂ s₃ s₄ s₅ : σ} (hs : S.Holds s)
    (hr : S.Reports ingress (Kind.managementIngress.keyAt ns name) (ingress.status.getD {}) s)
    (hcal : (ingress.status.getD {}).InCalendar) (hnow : ∀ now, (⟨.now, now⟩ : Exchange) ∈ t₄ → now.InCalendar)
    (hl : (removeLegacy ns).run.Goes h s (.ok false) t₁ s₁)
    (hh : ((resolveHost setup ingress ns).run none).run.Goes h s₁ (.ok (host, base)) t₂ s₂)
    (ha : (announceHost ingress (ingress.status.getD {}) host).run.Goes h s₂ (.ok written) t₃ s₃)
    (hg : (runSteps setup ingress ns host setup.steps base written).Goes h s₃ (status, .error (kind, cause)) t₄ s₄)
    (hw : (writeStatus ingress written status).run.Goes h s₄ answer t₅ s₅) :
    Replays S setup ingress ns name (.error (.step kind ingress.metadata.shownName cause)) s₅ := by
  obtain ⟨-, hs₄, hhost, hcal₄, hrep₄, -⟩ := stored_before_report S hS hk hs hr hcal hnow hl hh ha hg
  obtain ⟨-, hrep⟩ := reports_writeStatus S hs₄ hk hrep₄ hcal₄ hw
  refine ⟨_, hrep, fun version shown z hshown hz hsz => ?_⟩
  have hst (key : ObjectKey) (hkey : key ≠ Kind.managementIngress.keyAt ns name) : S.stored z key = S.stored s₄ key := by
    rw [hsz, S.stored_of_goes (writesOnly_writeStatus ingress _ _) (by simp [hk, hkey]) hs₄ hw]
  obtain ⟨r', u₁, u₂, u₄, z₁, z₂, z₄, hl', hh', ha', hg', hu, hreplayed, -, -⟩ :=
    replay_steps S hS hk hs hr hcal hnow hl hh ha hg hz hst (congrArg IngressStatus.conditions hshown)
      ((congrArg IngressStatus.host hshown).trans hhost) version shown
  cases hreplayed with
  | error kind cause =>
    have hself : (shown.getD {}).withOperand .failed cause.message = shown.getD {} := by
      have hop := (Progress.of_goes hg).operandState
      rw [hshown]
      cases status
      cases hop
      rfl
    rw [hself] at hg'
    have hw' : (writeStatus (ingress.again version shown) (shown.getD {}) (shown.getD {})).run.Goes h z₄ (.ok (shown.getD {})) []
        z₄ := by
      rw [writeStatus_self]
      exact .done h _ z₄
    refine ⟨_, _, _, .failed hl' hh' ha' hg' hw', ?_, .failed _⟩
    simpa using hu

/-- A pass whose steps all ran is taken again. -/
theorem replay_completed {answer : Except Failure Unit} {host : String} {base : Option String} {written status : IngressStatus}
    {synced : List Synced} {t₁ t₂ t₃ t₄ t₅ : List Exchange} {s s₁ s₂ s₃ s₄ s₅ : σ} (hs : S.Holds s)
    (hr : S.Reports ingress (Kind.managementIngress.keyAt ns name) (ingress.status.getD {}) s)
    (hcal : (ingress.status.getD {}).InCalendar) (hnow : ∀ now, (⟨.now, now⟩ : Exchange) ∈ t₄ → now.InCalendar)
    (hl : (removeLegacy ns).run.Goes h s (.ok false) t₁ s₁)
    (hh : ((resolveHost setup ingress ns).run none).run.Goes h s₁ (.ok (host, base)) t₂ s₂)
    (ha : (announceHost ingress (ingress.status.getD {}) host).run.Goes h s₂ (.ok written) t₃ s₃)
    (hg : (runSteps setup ingress ns host setup.steps base written).Goes h s₃ (status, .ok synced) t₄ s₄)
    (hf : (finish ingress ns written status).run.Goes h s₄ answer t₅ s₅) :
    answer = .ok () ∧ Replays S setup ingress ns name (.ok (.completed synced)) s₅ := by
  obtain ⟨-, hs₄, hhost, hcal₄, hrep₄, -⟩ := stored_before_report S hS hk hs hr hcal hnow hl hh ha hg
  obtain ⟨pods, hpods, hanswer, hrep⟩ := finish_goes S hs₄ hk hrep₄ hcal₄ hf
  refine ⟨hanswer, _, hrep, fun version shown z hshown hz hsz => ?_⟩
  have hst (key : ObjectKey) (hkey : key ≠ Kind.managementIngress.keyAt ns name) : S.stored z key = S.stored s₄ key := by
    rw [hsz, S.stored_of_goes (writesOnly_finish ingress ns _ _) (by simp [hk, hkey]) hs₄ hf]
  obtain ⟨r', u₁, u₂, u₄, z₁, z₂, z₄, hl', hh', ha', hg', hu, hreplayed, hz₄, hst₄⟩ :=
    replay_steps S hS hk hs hr hcal hnow hl hh ha hg hz hst
      ((congrArg IngressStatus.conditions hshown).trans (conditions_concluded _ _))
      ((congrArg IngressStatus.host hshown).trans ((host_concluded _ _).trans hhost)) version shown
  cases hreplayed with
  | ok _ hy =>
    rename_i ys
    have hpods' : (h (.list .pod ns s!"app={Names.app}") z₄).1 = pods := by
      rw [← hpods]
      refine S.list z₄ s₄ .pod ns _ hz₄ hs₄ fun key hkind => ?_
      rw [hst₄]
      refine hst key ?_
      rintro rfl
      exact absurd hkind (show ManagementIngress.kind ≠ "Pod" by decide)
    have hself : concluded (shown.getD {}) pods = shown.getD {} := by rw [hshown, concluded_concluded]
    have hf' := finish_concluded (ingress.again version shown) hpods' hself
    refine ⟨_, _, _, .completed hl' hh' ha' hg' hf', ?_, .completed synced hy.outcome⟩
    have hlist : Silent [⟨.list .pod ns s!"app={Names.app}", pods⟩] := .singleton id
    simpa using hu.append hlist

end

/-- Every course of a pass but that which deletes a deployment is taken again, quietly. -/
theorem Course.replay (hS : S.Steady) {result : Except PassFailure PassOutcome} {t : List Exchange} {s s' : σ}
    (hc : Course h setup ingress ns s result t s') (hs : S.Holds s)
    (hk : Kind.objectKey? .managementIngress ingress = some (Kind.managementIngress.keyAt ns name))
    (hr : S.Reports ingress (Kind.managementIngress.keyAt ns name) (ingress.status.getD {}) s)
    (hcal : (ingress.status.getD {}).InCalendar) (hnow : ∀ now, (⟨.now, now⟩ : Exchange) ∈ t → now.InCalendar)
    (hq : ∀ n, result ≠ .ok (.requeue n)) : Replays S setup ingress ns name result s' := by
  cases hc with
  | blocked hl =>
    rename_i cause
    obtain ⟨hv, hw⟩ := removeLegacy_goes S ns hs hl
    obtain ⟨-, hst⟩ := S.stored_of_silent hs hl (hw nofun)
    refine ⟨_, hr.congr (congrFun hst _), fun version status z hshown hz hsz => ?_⟩
    obtain ⟨u, z', hl', hu, -, -⟩ := replay_removeLegacy S ns (a := .error cause) hz nofun (by rw [hsz, hst, ← hv])
    exact ⟨_, _, _, .blocked hl', hu, .failed _⟩
  | removed hl => exact absurd rfl (hq 5)
  | hostless hl hh hw => exact replay_hostless S hS hk hs hr hcal hl hh hw
  | unannounced hl hh ha =>
    obtain ⟨hs₂, hst₂, -⟩ := stored_of_beginning S hS hs hl hh
    obtain ⟨status, ha', -⟩ := reports_announceHost S hs₂ hk (hr.congr (congrFun hst₂ _)) hcal ha
    cases ha'
  | failed hl hh ha hg hw =>
    rename_i t₁ t₂ t₃ t₄ t₅ _ _ _ _
    have hnow₄ (now : Instant) (hm : (⟨.now, now⟩ : Exchange) ∈ t₄) : now.InCalendar := hnow now (by simp [hm])
    exact replay_failed S hS hk hs hr hcal hnow₄ hl hh ha hg hw
  | unreported hl hh ha hg hf =>
    rename_i t₁ t₂ t₃ t₄ t₅ _ _ _ _
    have hnow₄ (now : Instant) (hm : (⟨.now, now⟩ : Exchange) ∈ t₄) : now.InCalendar := hnow now (by simp [hm])
    cases (replay_completed S hS hk hs hr hcal hnow₄ hl hh ha hg hf).1
  | completed hl hh ha hg hf =>
    rename_i t₁ t₂ t₃ t₄ t₅ _ _ _ _
    have hnow₄ (now : Instant) (hm : (⟨.now, now⟩ : Exchange) ∈ t₄) : now.InCalendar := hnow now (by simp [hm])
    exact (replay_completed S hS hk hs hr hcal hnow₄ hl hh ha hg hf).2

/-- A pass that is repeated for the custom resource as it is read then, with nobody else writing in between, writes nothing and
ends as it did. -/
theorem repeated_pass_quiet (hS : S.Steady) (setup : Setup) {s t : σ} {j : Json} (hs : S.Holds s)
    (hj : S.stored s (Kind.managementIngress.keyAt ns name) = some j) (hx : Kind.decode? .managementIngress j = some ingress)
    (hnow : ∀ now, (⟨.now, now⟩ : Exchange) ∈ (run setup ingress).trace h s → now.InCalendar)
    (hq : ∀ n, ((run setup ingress).run h s).1 ≠ .ok (.requeue n)) (ht : S.Holds t)
    (hst : S.stored t = S.stored ((run setup ingress).run h s).2) :
    ∃ again, (h (.get .managementIngress ns name) t).1 = .ok (some again) ∧
      (run setup again).Quiet h (h (.get .managementIngress ns name) t).2 ∧
        EndsAlike ((run setup ingress).run h s).1 ((run setup again).run h (h (.get .managementIngress ns name) t).2).1 := by
  obtain ⟨hns, hname⟩ := S.placed s .managementIngress ns name j ingress hs hj hx
  have hcal : (ingress.status.getD {}).InCalendar := by
    cases hstatus : ingress.status with
    | none => exact fun _ he => absurd he List.not_mem_nil
    | some status => exact Wire.inCalendar_of_decode?_ingress hx hstatus
  obtain ⟨shown, ⟨j', version, status, hj', hx', hshown⟩, hreplay⟩ :=
    ((goes_run_iff hns).1 (Proc.Goes.of_run h (run setup ingress) s)).replay S hS hs (Kind.objectKey?_eq.2 ⟨hns, hname⟩)
      (S.reports_self hj hx) hcal hnow hq
  have ht' := S.holds (.get .managementIngress ns name) t ht
  have hread : S.stored (h (.get .managementIngress ns name) t).2 = S.stored t :=
    funext (S.stored_of_untargeted ht rfl)
  refine ⟨ingress.again version status, ?_, ?_⟩
  · rw [S.get t .managementIngress ns name ht, hst, hj']
    simp only [Kind.reading, hx']
  · obtain ⟨result, u, z, hc, hu, he⟩ := hreplay version status _ hshown ht' (hread.trans hst)
    have hg := hc.goes (show (ingress.again version status).metadata.ns = some ns from hns)
    refine ⟨hg.quiet hu, ?_⟩
    rw [hg.1]
    exact he

/-- Whether an exchange tells a time of the calendar, if it tells one. -/
def timely : Exchange → Bool
  | ⟨.now, now⟩ => decide now.InCalendar
  | _ => true

open Cluster in
/-- The pass over the small cluster completes, and its repetition is quiet. -/
theorem small_pass_quiet :
    (((run Small.setup Small.ingress).run Direct.handler Small.cluster).1 matches .ok (.completed _)) = true ∧
      ∃ again,
        (Direct.handler (.get .managementIngress "ns" "default")
          ((run Small.setup Small.ingress).run Direct.handler Small.cluster).2).1 = .ok (some again) ∧
        (run Small.setup again).Quiet Direct.handler (Direct.handler (.get .managementIngress "ns" "default")
          ((run Small.setup Small.ingress).run Direct.handler Small.cluster).2).2 ∧
        EndsAlike ((run Small.setup Small.ingress).run Direct.handler Small.cluster).1
          ((run Small.setup again).run Direct.handler (Direct.handler (.get .managementIngress "ns" "default")
            ((run Small.setup Small.ingress).run Direct.handler Small.cluster).2).2).1 := by
  have hdone : (((run Small.setup Small.ingress).run Direct.handler Small.cluster).1 matches .ok (.completed _)) = true := by
    decide +kernel
  have htimes : ((run Small.setup Small.ingress).trace Direct.handler Small.cluster).all timely = true := by
    decide +kernel
  have hcalm : (Direct.store {}).Holds Small.cluster := Small.calm
  refine ⟨hdone, repeated_pass_quiet (Direct.store {}) (Direct.steady_store {}) Small.setup hcalm
    (j := Kind.encode .managementIngress Small.ingress) rfl (Wire.decode?_encode_ingress nofun) ?_ ?_
    ((Direct.store {}).holds_run _ hcalm) rfl⟩
  · intro now hm
    exact of_decide_eq_true (List.all_eq_true.1 htimes _ hm)
  · intro n hn
    rw [hn] at hdone
    cases hdone

end IngressOperator.Pass
