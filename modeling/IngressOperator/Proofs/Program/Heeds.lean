import IngressOperator.Proofs.Program.Yields

/-!
# What a program asks for after what it was answered

Which requests are right may depend on what was asked for and answered before. A program heeds this if every request of it is right
after the exchanges that led to it, on every branch that sensible answers lead to.

## Main statements

* `Proc.Heeds.bind`: a program that goes on with another one heeds what both of them heed.
* `Proc.Heeds.yields`: what a program heeds is so of every request that a run of it makes.
-/

namespace IngressOperator

namespace Proc

variable {α β : Type} {A : (r : Request) → r.Answer → Prop} {P : List Exchange → Request → Prop}

/-- Every request of a program that is run after some exchanges satisfies what `P` says of it after all exchanges before it, and what
the program ends with satisfies `Q` after all of them, on all branches that are reached by answers of which `A` holds. -/
def Heeds (A : (r : Request) → r.Answer → Prop) (P : List Exchange → Request → Prop) (Q : List Exchange → α → Prop) :
    Proc α → List Exchange → Prop
  | done a, t => Q t a
  | ask r next, t => P t r ∧ ∀ answer, A r answer → (next answer).Heeds A P Q (t ++ [⟨r, answer⟩])

namespace Heeds

variable {Q Q' : List Exchange → α → Prop} {p : Proc α} {t : List Exchange}

/-- What a program ends with may be said less of. -/
theorem mono (hp : p.Heeds A P Q t) (h : ∀ t a, Q t a → Q' t a) : p.Heeds A P Q' t := by
  induction p generalizing t with
  | done a => exact h t a hp
  | ask r next ih => exact ⟨hp.1, fun answer ha => ih answer (hp.2 answer ha)⟩

/-- What a program ends with is said after exchanges that begin with those before it. -/
theorem grown (hp : p.Heeds A P Q t) : p.Heeds A P (fun t' a => Q t' a ∧ t <+: t') t := by
  induction p generalizing t with
  | done a => exact ⟨hp, List.prefix_rfl⟩
  | ask r next ih =>
    refine ⟨hp.1, fun answer ha => (ih answer (hp.2 answer ha)).mono ?_⟩
    intro t' a hq
    exact ⟨hq.1, (List.prefix_append t _).trans hq.2⟩

/-- A program that goes on heeds what both of its parts heed. -/
theorem bind {Q' : List Exchange → β → Prop} {f : α → Proc β} (hp : p.Heeds A P Q t)
    (hf : ∀ t a, Q t a → (f a).Heeds A P Q' t) : (p >>= f).Heeds A P Q' t := by
  induction p generalizing t with
  | done a => exact hf t a hp
  | ask r next ih => exact ⟨hp.1, fun answer ha => ih answer (hp.2 answer ha)⟩

/-- An action goes on if it ends well; otherwise it ends as its first part did. -/
theorem action {a : Action α} {f : α → Action β} {Q : List Exchange → Except Failure α → Prop}
    {Q' : List Exchange → Except Failure β → Prop} (ha : a.run.Heeds A P Q t)
    (hf : ∀ t x, Q t (.ok x) → (f x).run.Heeds A P Q' t) (he : ∀ t e, Q t (.error e) → Q' t (.error e)) :
    (a >>= f).run.Heeds A P Q' t := by
  rw [ExceptT.run_bind]
  refine ha.bind fun t result hq => ?_
  cases result with
  | ok x => exact hf t x hq
  | error e => exact he t e hq

/-- A program whose requests are right wherever something holds that they keep heeds this, and keeps it. -/
theorem of_asks {C : Request → Prop} {I : List Exchange → Prop} (hp : p.Asks A C)
    (step : ∀ {t r}, I t → C r → P t r ∧ ∀ answer, I (t ++ [⟨r, answer⟩])) (ht : I t) :
    p.Heeds A P (fun t _ => I t) t := by
  induction p generalizing t with
  | done a => exact ht
  | ask r next ih =>
    obtain ⟨hr, hnext⟩ := step ht hp.1
    exact ⟨hr, fun answer ha => ih answer (hp.2 answer ha) (hnext answer)⟩

/-- What a program heeds is so of every request that a run of it makes, if the answers are such. -/
theorem yields {σ : Type} {R : Serving σ} {a : α} {t₀ : List Exchange} {s s' : σ} (hp : p.Heeds A P Q t₀)
    (hy : p.Yields R s a t s') (hA : ∀ x ∈ t, A x.request x.answer) :
    Q (t₀ ++ t) a ∧ ∀ before x after, t = before ++ x :: after → P (t₀ ++ before) x.request := by
  induction hy generalizing t₀ with
  | done a s =>
    refine ⟨(List.append_nil t₀).symm ▸ hp, ?_⟩
    intro before x after he
    simp at he
  | @ask r next answer a t s s₁ s' hs hn ih =>
    obtain ⟨hanswer, hrest⟩ := List.forall_mem_cons.1 hA
    obtain ⟨hq, hbefore⟩ := ih (hp.2 answer hanswer) hrest
    rw [List.append_assoc] at hq
    refine ⟨hq, ?_⟩
    intro before x after he
    cases before with
    | nil =>
      cases he
      rw [List.append_nil]
      exact hp.1
    | cons y before =>
      cases he
      have hlater := hbefore before x after rfl
      rw [List.append_assoc] at hlater
      exact hlater

end Heeds

/-- The answers in a run are such as its states allow. -/
theorem Yields.answers {σ : Type} {R : Serving σ} {I : σ → Prop} {p : Proc α} {a : α} {t : List Exchange} {s s' : σ}
    (hy : p.Yields R s a t s') (step : ∀ {s r answer s'}, I s → R s r answer s' → A r answer ∧ I s') (hs : I s) :
    ∀ x ∈ t, A x.request x.answer := by
  induction hy with
  | done a s => exact fun _ hx => absurd hx List.not_mem_nil
  | ask hr hn ih =>
    obtain ⟨ha, hi⟩ := step hs hr
    exact List.forall_mem_cons.2 ⟨ha, ih hi⟩

end Proc

/-- Exchanges of a sort, before each of which there is none of that sort, are one at most. -/
theorem countP_le_one {f : Exchange → Bool} {t : List Exchange}
    (h : ∀ before x after, t = before ++ x :: after → f x = true → ∀ y ∈ before, f y = false) : t.countP f ≤ 1 := by
  induction t with
  | nil => exact Nat.zero_le 1
  | cons x t ih =>
    have htail : t.countP f ≤ 1 := ih fun before y after he hy z hz =>
      h (x :: before) y after (congrArg (x :: ·) he) hy z (List.mem_cons_of_mem _ hz)
    cases hx : f x with
    | false => rwa [List.countP_cons_of_neg (by simp [hx])]
    | true =>
      -- nothing after the first one can be another one
      have hnone : t.countP f = 0 := by
        refine List.countP_eq_zero.2 fun y hy hfy => ?_
        obtain ⟨before, after, rfl⟩ := List.append_of_mem hy
        have hfirst := h (x :: before) y after rfl hfy x List.mem_cons_self
        rw [hx] at hfirst
        cases hfirst
      have hone : (x :: t).countP f = 0 + 1 := by rw [List.countP_cons_of_pos hx, hnone]
      exact Nat.le_of_eq hone

end IngressOperator
