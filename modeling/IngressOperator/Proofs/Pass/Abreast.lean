import IngressOperator.Proofs.Program.Abreast
import IngressOperator.Proofs.Status.Concur

/-!
# Passes that run abreast

If what a pass is made of runs abreast of itself from states that are related, so does the pass: it ends in the same way, and what it
reports says the same.

## Main statements

* `Pass.Sides.runSteps`: steps that run abreast are marked alike, one after the other.
* `Pass.Sides.run`: a pass runs abreast of itself if what it is made of does.
-/

namespace IngressOperator.Pass

variable {σ : Type} {h : Proc.Handler σ}

/-! ### How passes end -/

/-- Whether two passes end in the same way, with related accounts of what was done. -/
inductive SameEnd (A : Synced → Synced → Prop) : Except PassFailure PassOutcome → Except PassFailure PassOutcome → Prop where
  | failed (e : PassFailure) : SameEnd A (.error e) (.error e)
  | requeue (seconds : Nat) : SameEnd A (.ok (.requeue seconds)) (.ok (.requeue seconds))
  | completed {l l' : List Synced} (hl : List.Forall₂ A l l') : SameEnd A (.ok (.completed l)) (.ok (.completed l'))

/-- Passes that did the same end the same. -/
theorem SameEnd.eq {a b : Except PassFailure PassOutcome} (hs : SameEnd Eq a b) : a = b := by
  cases hs with
  | failed e => rfl
  | requeue seconds => rfl
  | completed hl =>
    rw [List.forall₂_eq_eq_eq] at hl
    rw [hl]

/-- What a step comes to is the same as itself. -/
theorem echoes_same (x : Except Failure (List Synced × Option String)) :
    Echoes (fun a b => List.Forall₂ Eq a.1 b.1 ∧ a.2 = b.2) x x := by
  cases x with
  | error e => exact .error e
  | ok a => exact .ok ⟨List.forall₂_refl a.1, rfl⟩

/-- Whether steps end in the same way: all of them ran, or the same one failed; the statuses say the same. -/
inductive SameMark (C : Instant → Instant → Prop) (A : Synced → Synced → Prop) :
    IngressStatus × Except (OwnedKind × Failure) (List Synced) → IngressStatus × Except (OwnedKind × Failure) (List Synced) →
      Prop where
  | ran {s s' : IngressStatus} {l l' : List Synced} (hs : s.Concurs C s') (hl : List.Forall₂ A l l') :
    SameMark C A (s, .ok l) (s', .ok l')
  | failed {s s' : IngressStatus} (hs : s.Concurs C s') (ho : s.operandState = s'.operandState) (e : OwnedKind × Failure) :
    SameMark C A (s, .error e) (s', .error e)

/-! ### The sides of a pass -/

/-- What a pass is made of runs abreast of itself: `K w w'` holds of the states while `w` and `w'` are what was reported last, and
`E` in the end. -/
structure Sides (h : Proc.Handler σ) (P : Pace) (C : Instant → Instant → Prop) (K : IngressStatus → IngressStatus → σ → σ → Prop)
    (A : Synced → Synced → Prop) (E : σ → σ → Prop) (setup : Setup) (ingress : ManagementIngress) (ns : String) : Prop where
  legacy : ∀ w w', Proc.Tandem h P (K w w') Eq (removeLegacy ns).run (removeLegacy ns).run
  resolve : ∀ w w', Proc.Tandem h P (K w w') Eq ((resolveHost setup ingress ns).run none).run
    ((resolveHost setup ingress ns).run none).run
  step : ∀ w w' host base, ∀ step ∈ setup.steps,
    Proc.Tandem h P (K w w') (Echoes fun x y => List.Forall₂ A x.1 y.1 ∧ x.2 = y.2)
      ((runStep setup ingress ns host step).run base).run ((runStep setup ingress ns host step).run base).run
  now : ∀ w w', Proc.Tandem h P (K w w') C (Proc.request .now) (Proc.request .now)
  pods : ∀ w w', Proc.Tandem h P (K w w') Eq (Proc.request (.list .pod ns s!"app={Names.app}"))
    (Proc.request (.list .pod ns s!"app={Names.app}"))
  write : ∀ {w w' s s' : IngressStatus}, w.Concurs C w' → s.Concurs C s' →
    Proc.Abreast h P (K w w') (writeStatus ingress w s).run (writeStatus ingress w' s').run fun a b u v =>
      (a = .ok s ∧ b = .ok s' ∧ K s s' u v) ∨ ∃ e, a = .error e ∧ b = .error e ∧ E u v
  ends : ∀ {w w' : IngressStatus}, w.Concurs C w' → w.operandState = w'.operandState → ∀ {u v}, K w w' u v → E u v

namespace Sides

variable {P : Pace} {C : Instant → Instant → Prop} {K : IngressStatus → IngressStatus → σ → σ → Prop}
  {A : Synced → Synced → Prop} {E : σ → σ → Prop} {setup : Setup} {ingress : ManagementIngress} {ns : String}
  (hS : Sides h P C K A E setup ingress ns) {w w' : IngressStatus}

include hS

/-- A report of a host is begun on both sides, or on none. -/
theorem announceHost (hw : w.Concurs C w') (host : String) :
    Proc.Abreast h P (K w w') (announceHost ingress w host).run (announceHost ingress w' host).run fun a b u v =>
      (∃ v₁ v₂, a = .ok v₁ ∧ b = .ok v₂ ∧ IngressStatus.Concurs C v₁ v₂ ∧ K v₁ v₂ u v) ∨
        ∃ e, a = .error e ∧ b = .error e ∧ E u v := by
  by_cases ho : ofHost w host
  · have ho' : ofHost w' host := by
      unfold ofHost at ho ⊢
      rwa [← hw.host]
    rw [announceHost_same ingress ho, announceHost_same ingress ho']
    exact Proc.Abreast.done fun u v hk => .inl ⟨w, w', rfl, rfl, hw, hk⟩
  · have ho' : ¬ ofHost w' host := by
      unfold ofHost at ho ⊢
      rwa [← hw.host]
    rw [run_announceHost_of_not ho, run_announceHost_of_not ho']
    refine Proc.Abreast.ask (hS.now w w') ?_
    rintro now now' u v ⟨hnow, hk⟩
    have hbegun := concurs_begun host hnow
    refine (hS.write hw hbegun).mono (fun _ _ hk => hk) ?_ u v hk
    rintro a b u v (⟨rfl, rfl, hk⟩ | hfailed)
    · exact .inl ⟨_, _, rfl, rfl, hbegun, hk⟩
    · exact .inr hfailed

/-- Steps that run abreast are marked alike, one after the other. -/
theorem runSteps (host : String) {steps : List Step} (hm : ∀ step ∈ steps, step ∈ setup.steps) (base : Option String)
    {s s' : IngressStatus} (hs : s.Concurs C s') :
    Proc.Tandem h P (K w w') (SameMark C A) (runSteps setup ingress ns host steps base s)
      (runSteps setup ingress ns host steps base s') := by
  induction steps generalizing base s s' with
  | nil => exact Proc.Tandem.done (.ran hs .nil)
  | cons step rest ih =>
    unfold Pass.runSteps
    refine (hS.step w w' host base step (hm step List.mem_cons_self)).bind fun ended ended' hended => ?_
    cases hended with
    | error cause =>
      refine (hS.now w w').bind fun now now' hnow => ?_
      exact Proc.Tandem.done (.failed ((hs.markFailed hnow _ _ _).withOperand .failed cause.message) rfl _)
    | @ok x y hxy =>
      obtain ⟨done, base⟩ := x
      obtain ⟨done', base'⟩ := y
      obtain ⟨hdone, rfl⟩ : List.Forall₂ A done done' ∧ base = base' := hxy
      refine (hS.now w w').bind fun now now' hnow => ?_
      refine (ih (fun step hstep => hm step (List.mem_cons_of_mem _ hstep)) base (hs.markReady hnow _)).bind fun r r' hr => ?_
      cases hr with
      | ran hs hl => exact Proc.Tandem.done (.ran hs (List.rel_append hdone hl))
      | failed hs ho e => exact Proc.Tandem.done (.failed hs ho e)

/-- Passes whose steps all ran report the same pods. -/
theorem finish (hw : w.Concurs C w') {s s' : IngressStatus} (hs : s.Concurs C s') :
    Proc.Abreast h P (K w w') (finish ingress ns w s).run (finish ingress ns w' s').run fun a b u v => a = b ∧ E u v := by
  rw [run_finish, run_finish]
  refine Proc.Abreast.ask (hS.pods w w') ?_
  rintro pods _ u v ⟨rfl, hk⟩
  have hconcluded := hs.concluded pods
  have hstate : (concluded s pods).operandState = (concluded s' pods).operandState := by
    cases pods <;> rfl
  refine Proc.Abreast.bind (hS.write hw hconcluded) ?_ u v hk
  rintro a b u v (⟨rfl, rfl, hk⟩ | ⟨e, rfl, rfl, he⟩)
  · exact Proc.Abreast.done (fun _ _ hk => ⟨rfl, hS.ends hconcluded hstate hk⟩) u v hk
  · exact Proc.Abreast.done (fun _ _ he => ⟨rfl, he⟩) u v he

/-- A failure is reported on both sides, or on none. -/
theorem reportFailure (hw : w.Concurs C w') {s s' : IngressStatus} (hs : s.Concurs C s')
    (ho : s.operandState = s'.operandState) (e : PassFailure) :
    Proc.Abreast h P (K w w') ((writeStatus ingress w s).run >>= fun _ => Proc.done (.error e))
      ((writeStatus ingress w' s').run >>= fun _ => Proc.done (.error e)) fun a b u v => SameEnd A a b ∧ E u v := by
  refine Proc.Abreast.bind (hS.write hw hs) ?_
  rintro a b u v (⟨-, -, hk⟩ | ⟨-, -, -, he⟩)
  · exact Proc.Abreast.done (fun _ _ hk => ⟨.failed e, hS.ends hs ho hk⟩) u v hk
  · exact Proc.Abreast.done (fun _ _ he => ⟨.failed e, he⟩) u v he

/-- The part of a pass that knows the host. -/
theorem runWithHost (hw : w.Concurs C w') (host : String) (base : Option String) :
    Proc.Abreast h P (K w w') (runWithHost setup ingress ns w host base) (runWithHost setup ingress ns w' host base)
      fun a b u v => SameEnd A a b ∧ E u v := by
  unfold Pass.runWithHost
  refine Proc.Abreast.bind (hS.announceHost hw host) ?_
  rintro a b u v (⟨w₁, w₂, rfl, rfl, hw, hk⟩ | ⟨e, rfl, rfl, he⟩)
  · refine Proc.Abreast.bind (hS.runSteps host (fun _ hm => hm) base hw) ?_ u v hk
    rintro r r' u v ⟨hr, hk⟩
    cases hr with
    | failed hs ho e => exact hS.reportFailure hw hs ho _ u v hk
    | ran hs hl =>
      refine Proc.Abreast.bind (hS.finish hw hs) ?_ u v hk
      rintro a _ u v ⟨rfl, he⟩
      cases a with
      | error cause => exact Proc.Abreast.done (fun _ _ he => ⟨.failed _, he⟩) u v he
      | ok _ => exact Proc.Abreast.done (fun _ _ he => ⟨.completed hl, he⟩) u v he
  · exact Proc.Abreast.done (fun _ _ he => ⟨.failed _, he⟩) u v he

/-- A pass runs abreast of itself if what it is made of does. -/
theorem run (hns : ingress.metadata.ns = some ns) (hw : (ingress.status.getD {}).Concurs C (ingress.status.getD {})) :
    Proc.Abreast h P (K (ingress.status.getD {}) (ingress.status.getD {})) (run setup ingress) (run setup ingress)
      fun a b u v => SameEnd A a b ∧ E u v := by
  unfold Pass.run
  simp only [hns]
  refine Proc.Abreast.bind (hS.legacy _ _) ?_
  rintro legacy _ u v ⟨rfl, hk⟩
  rcases legacy with cause | (_ | _)
  · exact Proc.Abreast.done (fun _ _ hk => ⟨.failed _, hS.ends hw rfl hk⟩) u v hk
  · refine Proc.Abreast.bind (hS.resolve _ _) ?_ u v hk
    rintro resolved _ u v ⟨rfl, hk⟩
    rcases resolved with cause | ⟨host, base⟩
    · exact hS.reportFailure hw (hw.withOperand .failed cause.message) rfl _ u v hk
    · exact hS.runWithHost hw host base u v hk
  · exact Proc.Abreast.done (fun _ _ hk => ⟨.requeue 5, hS.ends hw rfl hk⟩) u v hk

end Sides

end IngressOperator.Pass
