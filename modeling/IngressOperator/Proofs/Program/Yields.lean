import IngressOperator.Proofs.Program.Trace

/-!
# Runs that may go several ways

How a request is served need not be settled by the state in which it is made: a call may succeed or fail. A relation says which
answers a request may get in a state, and in which state it then leaves; a program may yield a value if it comes to it by such
answers.

## Main statements

* `Proc.Yields.of_bind`: a program that goes on yields by the one part and then by the other.
* `Proc.Yields.of_action_bind`: an action that goes on fails as its first part does, or yields by both.
* `Proc.Asks.yields`: what every request of a program keeps is kept by all that the program may yield.
-/

namespace IngressOperator

/-- How requests may be served: with which answers, and in which states then. -/
abbrev Serving (σ : Type) := σ → (r : Request) → r.Answer → σ → Prop

namespace Proc

variable {σ α β : Type} {R : Serving σ}

/-- Whether a program may end with a value, after certain exchanges, in a state. -/
inductive Yields (R : Serving σ) {α : Type} : Proc α → σ → α → List Exchange → σ → Prop where
  | done (a : α) (s : σ) : Yields R (.done a) s a [] s
  | ask {r : Request} {next : r.Answer → Proc α} {answer : r.Answer} {a : α} {t : List Exchange} {s s₁ s' : σ}
    (hs : R s r answer s₁) (hn : Yields R (next answer) s₁ a t s') : Yields R (.ask r next) s a (⟨r, answer⟩ :: t) s'

namespace Yields

variable {p : Proc α} {f : α → Proc β} {a a' : α} {b : β} {t t' : List Exchange} {s s' s'' : σ}

/-- A program that is done yields its value at once. -/
theorem of_done (hy : (Proc.done a).Yields R s a' t s') : a' = a ∧ t = [] ∧ s' = s := by
  cases hy
  exact ⟨rfl, rfl, rfl⟩

/-- A program that asks yields what is left of it after an answer. -/
theorem of_ask {r : Request} {next : r.Answer → Proc α} (hy : (Proc.ask r next).Yields R s a t s') :
    ∃ answer s₁ t', R s r answer s₁ ∧ (next answer).Yields R s₁ a t' s' ∧ t = ⟨r, answer⟩ :: t' := by
  cases hy with
  | ask hs hn => exact ⟨_, _, _, hs, hn, rfl⟩

theorem of_request {r : Request} {answer : r.Answer} (hy : (Proc.request r).Yields R s answer t s') :
    R s r answer s' ∧ t = [⟨r, answer⟩] := by
  obtain ⟨answer', s₁, t', hs, hd, rfl⟩ := hy.of_ask
  obtain ⟨rfl, rfl, rfl⟩ := hd.of_done
  exact ⟨hs, rfl⟩

/-- A program that goes on yields by the one part and then by the other. -/
theorem of_bind (hy : (p >>= f).Yields R s b t s') :
    ∃ a t₁ s₁ t₂, p.Yields R s a t₁ s₁ ∧ (f a).Yields R s₁ b t₂ s' ∧ t = t₁ ++ t₂ := by
  induction p generalizing s t with
  | done a => exact ⟨a, [], s, t, .done a s, hy, rfl⟩
  | ask r next ih =>
    rw [ask_bind] at hy
    obtain ⟨answer, s₁, t', hs, hn, rfl⟩ := hy.of_ask
    obtain ⟨a, t₁, s₂, t₂, hp, hf, rfl⟩ := ih answer hn
    exact ⟨a, ⟨r, answer⟩ :: t₁, s₂, t₂, .ask hs hp, hf, rfl⟩

/-- An action that goes on fails as its first part does, or goes on with what that came to. -/
theorem of_action_bind {a : Action α} {f : α → Action β} {result : Except Failure β}
    (hy : (a >>= f).run.Yields R s result t s') :
    (∃ e, result = .error e ∧ a.run.Yields R s (.error e) t s') ∨
      ∃ x t₁ s₁ t₂, a.run.Yields R s (.ok x) t₁ s₁ ∧ (f x).run.Yields R s₁ result t₂ s' ∧ t = t₁ ++ t₂ := by
  rw [ExceptT.run_bind] at hy
  obtain ⟨answer, t₁, s₁, t₂, ha, hf, rfl⟩ := hy.of_bind
  cases answer with
  | error e =>
    obtain ⟨rfl, rfl, rfl⟩ := hf.of_done
    rw [List.append_nil]
    exact .inl ⟨e, rfl, ha⟩
  | ok x => exact .inr ⟨x, t₁, s₁, t₂, ha, hf, rfl⟩

/-- An action that goes on ends well only after its first part did. -/
theorem of_action_ok {a : Action α} {f : α → Action β} (hy : (a >>= f).run.Yields R s (.ok b) t s') :
    ∃ x t₁ s₁ t₂, a.run.Yields R s (.ok x) t₁ s₁ ∧ (f x).run.Yields R s₁ (.ok b) t₂ s' ∧ t = t₁ ++ t₂ := by
  obtain ⟨e, he, -⟩ | h := hy.of_action_bind
  · cases he
  · exact h

theorem mono {R' : Serving σ} (hR : ∀ {s r answer s'}, R s r answer s' → R' s r answer s') (hy : p.Yields R s a t s') :
    p.Yields R' s a t s' := by
  induction hy with
  | done a s => exact .done a s
  | ask hs hn ih => exact .ask (hR hs) ih

/-- What a handler does may be done, as far as its states stand for those in which requests may be served so. -/
theorem of_run {τ : Type} {h : Handler τ} {I : τ → σ → Prop} {P : Request → Prop} {p : Proc α}
    (hp : p.Asks (fun _ _ => True) P)
    (step : ∀ {c s} r, P r → I c s → ∃ s', R s r (h r c).1 s' ∧ I (h r c).2 s') {c : τ} (hc : I c s) :
    ∃ s', p.Yields R s (p.run h c).1 (p.trace h c) s' ∧ I (p.run h c).2 s' := by
  induction p generalizing c s with
  | done a => exact ⟨s, .done a s, hc⟩
  | ask r next ih =>
    obtain ⟨s₁, hs, h₁⟩ := step r hp.1 hc
    obtain ⟨s', hn, h'⟩ := ih _ (hp.2 _ trivial) h₁
    exact ⟨s', .ask hs hn, h'⟩

end Yields

/-- What every request of a program keeps is kept by all that the program may yield, and the requests on the way are such. -/
theorem Asks.yields {A : (r : Request) → r.Answer → Prop} {P : Request → Prop} {I : σ → Prop} {p : Proc α} (hp : p.Asks A P)
    (step : ∀ {s r answer s'}, P r → I s → R s r answer s' → A r answer ∧ I s') {a : α} {t : List Exchange} {s s' : σ}
    (hs : I s) (hy : p.Yields R s a t s') : I s' ∧ ∀ x ∈ t, P x.request := by
  induction hy with
  | done a s => exact ⟨hs, fun _ hx => absurd hx List.not_mem_nil⟩
  | ask hr hn ih =>
    obtain ⟨ha, hi⟩ := step hp.1 hs hr
    obtain ⟨hend, htrace⟩ := ih (hp.2 _ ha) hi
    refine ⟨hend, fun x hx => ?_⟩
    rcases List.mem_cons.1 hx with rfl | hx
    · exact hp.1
    · exact htrace x hx

/-- Every request on the way is one that the program may ask for, whatever it is answered. -/
theorem Asks.all_yields {P : Request → Prop} {p : Proc α} (hp : p.Asks (fun _ _ => True) P) {a : α} {t : List Exchange}
    {s s' : σ} (hy : p.Yields R s a t s') : ∀ x ∈ t, P x.request :=
  (hp.yields (I := fun _ => True) (fun _ _ _ => ⟨trivial, trivial⟩) trivial hy).2

/-! ### What runs leave -/

/-- Whether what runs leave behind adds up: it is so of no run at all, and of one run after another if it is so of both. -/
structure Chains (Q : σ → List Exchange → σ → Prop) : Prop where
  refl : ∀ s, Q s [] s
  trans : ∀ {s s₁ s' t t'}, Q s t s₁ → Q s₁ t' s' → Q s (t ++ t') s'

/-- Whether every run of a program leaves behind what `Q` says. -/
def Leaves (R : Serving σ) (Q : σ → List Exchange → σ → Prop) (p : Proc α) : Prop :=
  ∀ {s a t s'}, p.Yields R s a t s' → Q s t s'

end Proc

end IngressOperator
