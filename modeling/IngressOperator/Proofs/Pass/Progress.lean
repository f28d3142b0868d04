import IngressOperator.Pass
import IngressOperator.Proofs.Program.Trace
import IngressOperator.Proofs.Status.Mark

/-!
# The progress of the steps

How the steps of a pass go on, on whatever answers their requests: each step that succeeds is marked and followed by the next
one, and the first that fails is marked and ends the run.

## Main statements

* `Pass.Progress.goes`, `Pass.Progress.of_goes`: the steps of a pass make progress in this way and in no other.
* `Pass.Progress.get?_conditions`: nothing is said of kinds whose steps did not run.
-/

namespace IngressOperator.Pass

variable {σ : Type}

/-- How the steps of a pass go on: with which status and which result they end, what they ask for and the state in which they
end. -/
inductive Progress (h : Proc.Handler σ) (setup : Setup) (ingress : ManagementIngress) (ns host : String) :
    List Step → Option String → IngressStatus → σ → IngressStatus × Except (OwnedKind × Failure) (List Synced) →
      List Exchange → σ → Prop where
  | done {base : Option String} {status : IngressStatus} {s : σ} :
    Progress h setup ingress ns host [] base status s (status, .ok []) [] s
  | failed {step : Step} {rest : List Step} {base : Option String} {status : IngressStatus} {cause : Failure} {now : Instant}
    {t t' : List Exchange} {s s₁ s₂ : σ}
    (hr : ((runStep setup ingress ns host step).run base).run.Goes h s (.error cause) t s₁)
    (hn : (Proc.request .now).Goes h s₁ now t' s₂) :
    Progress h setup ingress ns host (step :: rest) base status s
      ((status.markFailed step.kind.name cause.condition cause.message now).withOperand .failed cause.message,
        .error (step.kind, cause)) (t ++ t') s₂
  | ran {step : Step} {rest : List Step} {base base' : Option String} {status status' : IngressStatus}
    {synced : List Synced} {result : Except (OwnedKind × Failure) (List Synced)} {now : Instant}
    {t t' t'' : List Exchange} {s s₁ s₂ s' : σ}
    (hr : ((runStep setup ingress ns host step).run base).run.Goes h s (.ok (synced, base')) t s₁)
    (hn : (Proc.request .now).Goes h s₁ now t' s₂)
    (hp : Progress h setup ingress ns host rest base' (status.markReady step.kind.name now) s₂ (status', result) t'' s') :
    Progress h setup ingress ns host (step :: rest) base status s (status', result.map (synced ++ ·)) (t ++ (t' ++ t'')) s'

variable {h : Proc.Handler σ} {setup : Setup} {ingress : ManagementIngress} {ns host : String} {steps : List Step}
  {base : Option String} {status status' : IngressStatus} {result : Except (OwnedKind × Failure) (List Synced)}
  {t : List Exchange} {s s' : σ}

/-! ### Progress and programs -/

/-- Progress is a run of the steps. -/
theorem Progress.goes {r : IngressStatus × Except (OwnedKind × Failure) (List Synced)}
    (hp : Progress h setup ingress ns host steps base status s r t s') :
    (runSteps setup ingress ns host steps base status).Goes h s r t s' := by
  induction hp with
  | done => exact .done h _ _
  | failed hr hn => exact hr.bind (hn.last rfl)
  | ran hr hn hp ih => exact hr.bind (hn.bind (ih.last rfl))

/-- A run of the steps is progress. -/
theorem Progress.of_goes {r : IngressStatus × Except (OwnedKind × Failure) (List Synced)}
    (hg : (runSteps setup ingress ns host steps base status).Goes h s r t s') :
    Progress h setup ingress ns host steps base status s r t s' := by
  induction steps generalizing base status s r t s' with
  | nil =>
    obtain ⟨rfl, rfl, rfl⟩ := hg.of_done
    exact .done
  | cons step rest ih =>
    unfold runSteps at hg
    obtain ⟨ended, t₁, s₁, t', hr, hg, rfl⟩ := hg.of_bind
    rcases ended with cause | ⟨synced, base'⟩
    · obtain ⟨now, t₂, s₂, t', hn, hd, rfl⟩ := hg.of_bind
      obtain ⟨rfl, rfl, rfl⟩ := hd.of_done
      rw [List.append_nil]
      exact .failed hr hn
    · obtain ⟨now, t₂, s₂, t', hn, hg', rfl⟩ := hg.of_bind
      obtain ⟨⟨status', result⟩, t₃, s₃, t', hp, hd, rfl⟩ := hg'.of_bind
      obtain ⟨rfl, rfl, rfl⟩ := hd.of_done
      rw [List.append_nil]
      exact .ran hr hn (ih hp)

namespace Progress

/-! ### What steps leave in a status -/

/-- Nothing is said of kinds whose steps did not run. -/
theorem get?_conditions {r : IngressStatus × Except (OwnedKind × Failure) (List Synced)}
    (hp : Progress h setup ingress ns host steps base status s r t s') {kind : String}
    (hk : ∀ step ∈ steps, step.kind.name ≠ kind) : r.1.conditions.get? kind = status.conditions.get? kind := by
  induction hp with
  | done => rfl
  | failed hr hn =>
    have hne := hk _ List.mem_cons_self
    exact (IngressStatus.get?_markFailed _ _ _ _ _ kind).trans (if_neg fun he => hne he.symm)
  | ran hr hn hp ih =>
    have hne := hk _ List.mem_cons_self
    rw [ih fun step hs => hk step (List.mem_cons_of_mem _ hs), IngressStatus.get?_markReady, if_neg fun he => hne he.symm]

/-- Steps leave the host and the pods that are reported. -/
theorem host_podState {r : IngressStatus × Except (OwnedKind × Failure) (List Synced)}
    (hp : Progress h setup ingress ns host steps base status s r t s') :
    r.1.host = status.host ∧ r.1.podState = status.podState := by
  induction hp with
  | done => exact ⟨rfl, rfl⟩
  | failed hr hn => exact ⟨rfl, rfl⟩
  | ran hr hn hp ih => exact ih

/-- The state of the operand is left if every step succeeds, and it tells of the failure if one does not. -/
theorem operandState {r : IngressStatus × Except (OwnedKind × Failure) (List Synced)}
    (hp : Progress h setup ingress ns host steps base status s r t s') :
    r.1.operandState =
      match r.2 with
      | .ok _ => status.operandState
      | .error (_, cause) => ⟨.failed, cause.message⟩ := by
  induction hp with
  | done => rfl
  | failed hr hn => rfl
  | ran hr hn hp ih =>
    rename_i result _ _ _ _ _ _ _ _
    cases result with
    | ok synced => exact ih
    | error e => exact ih

/-- The times of a status stay in the calendar if the clock does. -/
theorem inCalendar {r : IngressStatus × Except (OwnedKind × Failure) (List Synced)}
    (hp : Progress h setup ingress ns host steps base status s r t s') (hs : status.InCalendar)
    (hnow : ∀ now, (⟨.now, now⟩ : Exchange) ∈ t → now.InCalendar) : r.1.InCalendar := by
  have hclock {now : Instant} {t' : List Exchange} {s₁ s₂ : σ} (hn : (Proc.request .now).Goes h s₁ now t' s₂) :
      (⟨.now, now⟩ : Exchange) ∈ t' := by
    obtain ⟨hr, rfl⟩ := hn
    cases hr
    exact List.mem_singleton_self _
  induction hp with
  | done => exact hs
  | failed hr hn => exact hs.markFailed (hnow _ (List.mem_append_right _ (hclock hn))) _ _ _
  | ran hr hn hp ih =>
    have hin := hnow _ (List.mem_append_right _ (List.mem_append_left _ (hclock hn)))
    exact ih (hs.markReady hin _) fun now hm => hnow now (List.mem_append_right _ (List.mem_append_right _ hm))

end Progress

end IngressOperator.Pass
