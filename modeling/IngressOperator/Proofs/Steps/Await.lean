import IngressOperator.Proofs.Program.Composes
import IngressOperator.Proofs.Store.Repeat
import IngressOperator.Steps

/-!
# Waiting on a store that does not change

While nobody writes, a secret that is not there at the first question never comes. Waiting for it then ends with a timeout
whatever the clock shows, and otherwise at once; it writes nothing either way.

## Main statements

* `Steps.awaitSecret_run`: what waiting for a secret comes to depends on the document of the secret alone.
-/

namespace IngressOperator

variable {σ α : Type} {h : Proc.Handler σ}

/-! ### Rounds -/

/-- A wait ends with the first answer, and it writes nothing if the question does not. -/
theorem waitRounds_found {p : WaitPolicy} {what : String} {question : Proc (Except Failure (Option α))} {start : Instant}
    {x : α} {s : σ} (hq : question.Quiet h s) (hx : (question.run h s).1 = .ok (some x)) (rounds : Nat) :
    ((waitRounds Proc.clock p what question start (rounds + 1)).run h s).1 = .ok x ∧
      (waitRounds Proc.clock p what question start (rounds + 1)).Quiet h s := by
  rw [waitRounds_succ]
  refine ⟨?_, hq.bind ?_⟩
  · rw [Proc.run_bind, hx]
    rfl
  · rw [hx]
    exact Proc.quiet_done _ _ _

/-- A round without an answer ends with a timeout, and writes nothing, if all after it does so. -/
theorem waitOn_never {p : WaitPolicy} {what : String} {start : Instant} {rest : Proc (Except Failure α)} {I : σ → Prop}
    (hrest : ∀ s, I s → (rest.run h s).1 = .error (.timeout what p.timeout) ∧ rest.Quiet h s)
    (hnow : ∀ s, I s → I (h .now s).2) (hsleep : ∀ s n, I s → I (h (.sleep n) s).2) {s : σ} (hs : I s) :
    ((waitOn Proc.clock p what start rest).run h s).1 = .error (.timeout what p.timeout) ∧
      (waitOn Proc.clock p what start rest).Quiet h s := by
  obtain ⟨hr, hqr⟩ := hrest _ (hsleep _ p.interval (hnow s hs))
  constructor
  · rw [waitOn, Proc.run_bind]
    split
    · rfl
    · exact hr
  · refine Proc.quiet_ask nofun ?_
    change Proc.Quiet h (if _ then _ else _) _
    split
    · exact Proc.quiet_done _ _ _
    · exact Proc.quiet_ask nofun hqr

/-- A wait for what never comes ends with a timeout, and it writes nothing if the question does not. -/
theorem waitRounds_never {p : WaitPolicy} {what : String} {question : Proc (Except Failure (Option α))} {start : Instant}
    {I : σ → Prop} (hq : ∀ s, I s → question.Quiet h s ∧ I (question.run h s).2 ∧ ∀ x, (question.run h s).1 ≠ .ok (some x))
    (hnow : ∀ s, I s → I (h .now s).2) (hsleep : ∀ s n, I s → I (h (.sleep n) s).2) (rounds : Nat) {s : σ} (hs : I s) :
    ((waitRounds Proc.clock p what question start rounds).run h s).1 = .error (.timeout what p.timeout) ∧
      (waitRounds Proc.clock p what question start rounds).Quiet h s := by
  induction rounds generalizing s with
  | zero => exact ⟨rfl, Proc.quiet_done _ _ _⟩
  | succ rounds ih =>
    obtain ⟨hquiet, hi, hn⟩ := hq s hs
    obtain ⟨hr, hqr⟩ := waitOn_never (fun _ => ih) hnow hsleep hi
    rw [waitRounds_succ]
    refine ⟨?_, hquiet.bind ?_⟩
    · rw [Proc.run_bind]
      rcases hx : (question.run h s).1 with e | (_ | x)
      · exact hr
      · exact hr
      · exact absurd hx (hn x)
    · rcases hx : (question.run h s).1 with e | (_ | x)
      · exact hqr
      · exact hqr
      · exact absurd hx (hn x)

/-! ### Secrets -/

namespace Steps

/-- The secret that a document holds, if it has a certificate. -/
def issued? (doc : Option Json) : Option Secret := (doc.bind (Kind.decode? .secret)).filter hasCertificate

/-- What waiting for a secret comes to if its document stays as it is. -/
def awaited (wait : WaitPolicy) (name : String) (doc : Option Json) : Except Failure Secret :=
  if WaitPolicy.longest < wait.timeout then .error (.invalidArgument .endlessWait)
  else
    match issued? doc with
    | some secret => .ok secret
    | none => .error (.timeout s!"secret {name}" wait.timeout)

variable (S : ObjectStore h)

/-- The question whether a secret has come. -/
def question (ns name : String) : Proc (Except Failure (Option Secret)) := do
  match ← Proc.request (.get .secret ns name) with
  | .ok found => pure (.ok (Option.filter hasCertificate found))
  | .error e => pure (.error e)

/-- A secret is waited for by this question. -/
theorem run_awaitSecret (wait : WaitPolicy) (ns name : String) :
    (awaitSecret wait ns name).run = waitFor Proc.clock wait s!"secret {name}" (question ns name) := rfl

/-- Waiting for a secret has what reading it and the clock have. -/
theorem composes_awaitSecret {P : {α : Type} → Proc α → Prop} (hP : Proc.Composes P) (wait : WaitPolicy) {ns name : String}
    (hread : P (Proc.request (.get .secret ns name))) (hnow : P (Proc.request .now))
    (hsleep : ∀ millis, P (Proc.request (.sleep millis))) : P (awaitSecret wait ns name).run := by
  rw [run_awaitSecret]
  refine hP.waitFor hnow hsleep (hP.bind hread fun answer => ?_)
  cases answer with
  | ok found => exact hP.done _
  | error e => exact hP.done _

/-- The question is answered by the document of the secret; one that cannot be read is no answer. -/
theorem question_run {s : σ} (hs : S.Holds s) (ns name : String) :
    (∀ x, ((question ns name).run h s).1 = .ok (some x) ↔ issued? (S.stored s (Kind.secret.keyAt ns name)) = some x) ∧
      (question ns name).Quiet h s ∧ ((question ns name).run h s).2 = (h (.get .secret ns name) s).2 := by
  have hg := S.get s .secret ns name hs
  have hrun : (question ns name).run h s =
      ((match (h (.get .secret ns name) s).1 with
        | .ok found => .ok (Option.filter hasCertificate found)
        | .error e => .error e), (h (.get .secret ns name) s).2) := by
    rw [question, Proc.run_bind, Proc.run_request]
    cases (h (.get .secret ns name) s).1 <;> rfl
  refine ⟨fun x => ?_, ?_, by rw [hrun]⟩
  · rw [hrun, hg]
    cases hd : S.stored s (Kind.secret.keyAt ns name) with
    | none => simp [Kind.reading, issued?]
    | some j =>
      cases hj : Kind.decode? .secret j with
      | none => simp [Kind.reading, issued?, hj]
      | some y => simp [Kind.reading, issued?, hj]
  · refine Proc.quiet_ask id ?_
    cases (h (.get .secret ns name) s).1 <;> exact Proc.quiet_done _ _ _

/-- What waiting for a secret comes to depends on the document of the secret alone. -/
theorem awaitSecret_run {s : σ} (hs : S.Holds s) (wait : WaitPolicy) (ns name : String) :
    ((awaitSecret wait ns name).run.run h s).1 = awaited wait name (S.stored s (Kind.secret.keyAt ns name)) ∧
      (awaitSecret wait ns name).run.Quiet h s := by
  rw [run_awaitSecret, waitFor, awaited]
  split
  · exact ⟨rfl, Proc.quiet_done _ _ _⟩
  · have hs1 := S.holds .now s hs
    have hdoc : S.stored (h .now s).2 (Kind.secret.keyAt ns name) = S.stored s (Kind.secret.keyAt ns name) :=
      S.stored_of_untargeted hs rfl _
    have hrounds : wait.rounds = (wait.timeout + 1000) / max wait.interval 1 + 1 + 1 := rfl
    rw [hrounds]
    cases hi : issued? (S.stored s (Kind.secret.keyAt ns name)) with
    | some x =>
      obtain ⟨hq, hquiet, -⟩ := question_run S hs1 ns name
      obtain ⟨hr, hqr⟩ := waitRounds_found hquiet ((hq x).2 (by rw [hdoc, hi])) _
      exact ⟨hr, Proc.quiet_ask nofun hqr⟩
    | none =>
      have hnever (s' : σ) (hs' : S.Holds s' ∧ S.stored s' (Kind.secret.keyAt ns name) = S.stored s (Kind.secret.keyAt ns name)) :
          (question ns name).Quiet h s' ∧
            (S.Holds ((question ns name).run h s').2 ∧
              S.stored ((question ns name).run h s').2 (Kind.secret.keyAt ns name) =
                S.stored s (Kind.secret.keyAt ns name)) ∧
            ∀ x, ((question ns name).run h s').1 ≠ .ok (some x) := by
        obtain ⟨hq, hquiet, hst⟩ := question_run S hs'.1 ns name
        refine ⟨hquiet, ⟨S.holds_run _ hs'.1, ?_⟩, fun x hx => ?_⟩
        · rw [S.stored_of_quiet hs'.1 hquiet, hs'.2]
        · rw [hq x, hs'.2, hi] at hx
          cases hx
      obtain ⟨hr, hqr⟩ := waitRounds_never hnever
        (fun s' hs' => ⟨S.holds _ _ hs'.1, (S.stored_of_untargeted hs'.1 rfl _).trans hs'.2⟩)
        (fun s' n hs' => ⟨S.holds _ _ hs'.1, (S.stored_of_untargeted hs'.1 rfl _).trans hs'.2⟩)
        ((wait.timeout + 1000) / max wait.interval 1 + 1 + 1) ⟨hs1, hdoc⟩
      exact ⟨hr, Proc.quiet_ask nofun hqr⟩

/-- Waiting for a secret that was just waited for comes to the same. -/
theorem repeats_awaitSecret (wait : WaitPolicy) (ns name : String) :
    Repeats S [Kind.secret.keyAt ns name] (Echoes Eq) (awaitSecret wait ns name).run (awaitSecret wait ns name).run :=
  (Repeats.of_document _ fun _ hs => awaitSecret_run S hs wait ns name).imp fun a _ hab => hab ▸ Echoes.refl a

end Steps

end IngressOperator
