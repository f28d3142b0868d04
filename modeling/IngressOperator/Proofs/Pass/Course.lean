import IngressOperator.Pass
import IngressOperator.Proofs.Program.Trace

/-!
# The courses of a pass

The ways in which a pass may go, on whatever answers its requests: which parts of it are run, how each of them ends, and what
is asked for on the way.

## Main statements

* `Pass.goes_run_iff`: a pass takes one of its courses, and it may take each of them.
-/

namespace IngressOperator.Pass

variable {σ : Type}

/-- What a pass kept in step, if it completed. -/
def synced? : Except PassFailure PassOutcome → Option (List Synced)
  | .ok (.completed synced) => some synced
  | _ => none

theorem exists_completed {result : Except PassFailure PassOutcome} (h : (synced? result).isSome = true) :
    ∃ synced, result = .ok (.completed synced) := by
  unfold synced? at h
  split at h
  · next synced => exact ⟨synced, rfl⟩
  · cases h

/-- The courses of a pass of a custom resource in a namespace: how it ends, what it asks for and the state in which it ends. -/
inductive Course (h : Proc.Handler σ) (setup : Setup) (ingress : ManagementIngress) (ns : String) (s : σ) :
    Except PassFailure PassOutcome → List Exchange → σ → Prop where
  /-- The deployment cannot be looked at, or cannot be deleted. -/
  | blocked {cause : Failure} {t₁ : List Exchange} {s₁ : σ}
    (hl : (removeLegacy ns).run.Goes h s (.error cause) t₁ s₁) :
    Course h setup ingress ns s (.error (.step .deployment ingress.metadata.shownName cause)) t₁ s₁
  /-- The deployment had to go. -/
  | removed {t₁ : List Exchange} {s₁ : σ}
    (hl : (removeLegacy ns).run.Goes h s (.ok true) t₁ s₁) :
    Course h setup ingress ns s (.ok (.requeue 5)) t₁ s₁
  /-- The external host is not found. -/
  | hostless {cause : Failure} {answer : Except Failure IngressStatus} {t₁ t₂ t₃ : List Exchange} {s₁ s₂ s₃ : σ}
    (hl : (removeLegacy ns).run.Goes h s (.ok false) t₁ s₁)
    (hh : ((resolveHost setup ingress ns).run none).run.Goes h s₁ (.error cause) t₂ s₂)
    (hw : (writeStatus ingress (ingress.status.getD {})
      ((ingress.status.getD {}).withOperand .failed cause.message)).run.Goes h s₂ answer t₃ s₃) :
    Course h setup ingress ns s (.error (.plain cause)) (t₁ ++ (t₂ ++ t₃)) s₃
  /-- The new report cannot be begun. -/
  | unannounced {cause : Failure} {host : String} {base : Option String} {t₁ t₂ t₃ : List Exchange} {s₁ s₂ s₃ : σ}
    (hl : (removeLegacy ns).run.Goes h s (.ok false) t₁ s₁)
    (hh : ((resolveHost setup ingress ns).run none).run.Goes h s₁ (.ok (host, base)) t₂ s₂)
    (ha : (announceHost ingress (ingress.status.getD {}) host).run.Goes h s₂ (.error cause) t₃ s₃) :
    Course h setup ingress ns s (.error (.plain cause)) (t₁ ++ (t₂ ++ t₃)) s₃
  /-- A step fails. -/
  | failed {kind : OwnedKind} {cause : Failure} {host : String} {base : Option String} {written status : IngressStatus}
    {answer : Except Failure IngressStatus} {t₁ t₂ t₃ t₄ t₅ : List Exchange} {s₁ s₂ s₃ s₄ s₅ : σ}
    (hl : (removeLegacy ns).run.Goes h s (.ok false) t₁ s₁)
    (hh : ((resolveHost setup ingress ns).run none).run.Goes h s₁ (.ok (host, base)) t₂ s₂)
    (ha : (announceHost ingress (ingress.status.getD {}) host).run.Goes h s₂ (.ok written) t₃ s₃)
    (hr : (runSteps setup ingress ns host setup.steps base written).Goes h s₃ (status, .error (kind, cause)) t₄ s₄)
    (hw : (writeStatus ingress written status).run.Goes h s₄ answer t₅ s₅) :
    Course h setup ingress ns s (.error (.step kind ingress.metadata.shownName cause)) (t₁ ++ (t₂ ++ (t₃ ++ (t₄ ++ t₅)))) s₅
  /-- Every step ran, but that cannot be reported. -/
  | unreported {cause : Failure} {host : String} {base : Option String} {written status : IngressStatus}
    {synced : List Synced} {t₁ t₂ t₃ t₄ t₅ : List Exchange} {s₁ s₂ s₃ s₄ s₅ : σ}
    (hl : (removeLegacy ns).run.Goes h s (.ok false) t₁ s₁)
    (hh : ((resolveHost setup ingress ns).run none).run.Goes h s₁ (.ok (host, base)) t₂ s₂)
    (ha : (announceHost ingress (ingress.status.getD {}) host).run.Goes h s₂ (.ok written) t₃ s₃)
    (hr : (runSteps setup ingress ns host setup.steps base written).Goes h s₃ (status, .ok synced) t₄ s₄)
    (hf : (finish ingress ns written status).run.Goes h s₄ (.error cause) t₅ s₅) :
    Course h setup ingress ns s (.error (.plain cause)) (t₁ ++ (t₂ ++ (t₃ ++ (t₄ ++ t₅)))) s₅
  /-- Every step ran. -/
  | completed {host : String} {base : Option String} {written status : IngressStatus}
    {synced : List Synced} {t₁ t₂ t₃ t₄ t₅ : List Exchange} {s₁ s₂ s₃ s₄ s₅ : σ}
    (hl : (removeLegacy ns).run.Goes h s (.ok false) t₁ s₁)
    (hh : ((resolveHost setup ingress ns).run none).run.Goes h s₁ (.ok (host, base)) t₂ s₂)
    (ha : (announceHost ingress (ingress.status.getD {}) host).run.Goes h s₂ (.ok written) t₃ s₃)
    (hr : (runSteps setup ingress ns host setup.steps base written).Goes h s₃ (status, .ok synced) t₄ s₄)
    (hf : (finish ingress ns written status).run.Goes h s₄ (.ok ()) t₅ s₅) :
    Course h setup ingress ns s (.ok (.completed synced)) (t₁ ++ (t₂ ++ (t₃ ++ (t₄ ++ t₅)))) s₅

variable {h : Proc.Handler σ} {setup : Setup} {ingress : ManagementIngress} {ns : String} {s : σ}

/-- A pass may take each of its courses. -/
theorem Course.goes (hns : ingress.metadata.ns = some ns) {result : Except PassFailure PassOutcome} {t : List Exchange} {s' : σ}
    (hc : Course h setup ingress ns s result t s') : (run setup ingress).Goes h s result t s' := by
  unfold run
  simp only [hns]
  cases hc with
  | blocked hl => exact hl.last rfl
  | removed hl => exact hl.last rfl
  | hostless hl hh hw => exact hl.bind (hh.bind (hw.last rfl))
  | unannounced hl hh ha => exact hl.bind (hh.bind (ha.last rfl))
  | failed hl hh ha hr hw => exact hl.bind (hh.bind (ha.bind (hr.bind (hw.last rfl))))
  | unreported hl hh ha hr hf => exact hl.bind (hh.bind (ha.bind (hr.bind (hf.last rfl))))
  | completed hl hh ha hr hf => exact hl.bind (hh.bind (ha.bind (hr.bind (hf.last rfl))))

/-- A pass takes one of its courses. -/
theorem Course.of_goes (hns : ingress.metadata.ns = some ns) {result : Except PassFailure PassOutcome} {t : List Exchange}
    {s' : σ} (hg : (run setup ingress).Goes h s result t s') : Course h setup ingress ns s result t s' := by
  unfold run at hg
  simp only [hns] at hg
  obtain ⟨legacy, t₁, s₁, t', hl, hg, rfl⟩ := hg.of_bind
  rcases legacy with cause | (_ | _)
  · obtain ⟨rfl, rfl, rfl⟩ := hg.of_done
    rw [List.append_nil]
    exact .blocked hl
  · obtain ⟨resolved, t₂, s₂, t', hh, hg, rfl⟩ := hg.of_bind
    rcases resolved with cause | ⟨host, base⟩
    · obtain ⟨answer, t₃, s₃, t', hw, hd, rfl⟩ := hg.of_bind
      obtain ⟨rfl, rfl, rfl⟩ := hd.of_done
      rw [List.append_nil]
      exact .hostless hl hh hw
    · unfold runWithHost at hg
      obtain ⟨announced, t₃, s₃, t', ha, hg, rfl⟩ := hg.of_bind
      rcases announced with cause | written
      · obtain ⟨rfl, rfl, rfl⟩ := hg.of_done
        rw [List.append_nil]
        exact .unannounced hl hh ha
      · obtain ⟨⟨status, ended⟩, t₄, s₄, t', hr, hg, rfl⟩ := hg.of_bind
        rcases ended with ⟨kind, cause⟩ | synced
        · obtain ⟨answer, t₅, s₅, t', hw, hd, rfl⟩ := hg.of_bind
          obtain ⟨rfl, rfl, rfl⟩ := hd.of_done
          rw [List.append_nil]
          exact .failed hl hh ha hr hw
        · obtain ⟨reported, t₅, s₅, t', hf, hg, rfl⟩ := hg.of_bind
          rcases reported with cause | _
          · obtain ⟨rfl, rfl, rfl⟩ := hg.of_done
            rw [List.append_nil]
            exact .unreported hl hh ha hr hf
          · obtain ⟨rfl, rfl, rfl⟩ := hg.of_done
            rw [List.append_nil]
            exact .completed hl hh ha hr hf
  · obtain ⟨rfl, rfl, rfl⟩ := hg.of_done
    rw [List.append_nil]
    exact .removed hl

/-- A pass takes one of its courses, and it may take each of them. -/
theorem goes_run_iff (hns : ingress.metadata.ns = some ns) {result : Except PassFailure PassOutcome} {t : List Exchange}
    {s' : σ} : (run setup ingress).Goes h s result t s' ↔ Course h setup ingress ns s result t s' :=
  ⟨Course.of_goes hns, Course.goes hns⟩

end IngressOperator.Pass
