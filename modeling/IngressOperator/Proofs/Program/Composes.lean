import IngressOperator.Proofs.Program.Trace

/-!
# Properties of programs that go on

A property that programs keep when they go on with others is one of every program if it is one of its requests. Waiting is no
exception: a wait has every such property that its question and the clock have.

## Main statements

* `Proc.Asks.composes`: what every request of a program is like is kept when the program goes on.
* `Proc.Composes.waitFor`: a wait has what its question and the clock have.
-/

namespace IngressOperator

/-- Whether a property of programs is kept when a program goes on with another one. -/
structure Proc.Composes (P : {α : Type} → Proc α → Prop) : Prop where
  done : ∀ {α : Type} (a : α), P (.done a)
  bind : ∀ {α β : Type} {p : Proc α} {f : α → Proc β}, P p → (∀ a, P (f a)) → P (p >>= f)

/-- What every request of a program is like is kept when the program goes on. -/
theorem Proc.Asks.composes {A : (r : Request) → r.Answer → Prop} {P : Request → Prop} :
    Proc.Composes fun p => p.Asks A P where
  done _ := trivial
  bind hp hf := hp.bind hf

namespace Proc.Composes

variable {α β : Type} {P : {α : Type} → Proc α → Prop}

/-- A request is asked and the answer gone on with. -/
theorem ask (hP : Proc.Composes P) {r : Request} {next : r.Answer → Proc α} (hr : P (Proc.request r))
    (hn : ∀ answer, P (next answer)) : P (Proc.ask r next) :=
  hP.bind hr hn

/-- An action that goes on has what both of its parts have. -/
theorem action (hP : Proc.Composes P) {a : Action α} {f : α → Action β} (ha : P a.run) (hf : ∀ x, P (f x).run) :
    P (a >>= f).run := by
  rw [ExceptT.run_bind]
  refine hP.bind ha fun result => ?_
  cases result with
  | ok x => exact hf x
  | error e => exact hP.done _

/-! ### Waits -/

variable {p : WaitPolicy} {what : String} {question : Proc (Except Failure (Option α))} {start : Instant}

/-- The rounds of a wait have what its question and the clock have. -/
theorem waitRounds (hP : Proc.Composes P) (hnow : P (Proc.request .now)) (hsleep : ∀ millis, P (Proc.request (.sleep millis)))
    (hq : P question) (rounds : Nat) : P (IngressOperator.waitRounds Proc.clock p what question start rounds) := by
  induction rounds with
  | zero => exact hP.done _
  | succ rounds ih =>
    have hrest : P (waitOn Proc.clock p what start (IngressOperator.waitRounds Proc.clock p what question start rounds)) := by
      refine hP.bind hnow fun now => ?_
      split
      · exact hP.done _
      · exact hP.bind (hsleep p.interval) fun _ => ih
    rw [waitRounds_succ]
    refine hP.bind hq fun answer => ?_
    rcases answer with e | (_ | x)
    · exact hrest
    · exact hrest
    · exact hP.done _

/-- A wait has what its question and the clock have. -/
theorem waitFor (hP : Proc.Composes P) (hnow : P (Proc.request .now)) (hsleep : ∀ millis, P (Proc.request (.sleep millis)))
    (hq : P question) : P (IngressOperator.waitFor Proc.clock p what question) := by
  unfold IngressOperator.waitFor
  split
  · exact hP.done _
  · exact hP.bind hnow fun start => hP.waitRounds hnow hsleep hq _

end Proc.Composes

end IngressOperator
