import IngressOperator.Proofs.Store.Repeat

/-!
# Programs that run abreast

Two programs are compared by what they do from states that are related: how they end, in which states, and what they ask for on
the way. If each part of the one runs abreast of a part of the other, the whole does.

## Main statements

* `Proc.Abreast.bind`: programs that go on run abreast part by part.
* `Proc.Tandem.waitRounds`: waits run abreast if what they ask does.
-/

namespace IngressOperator

variable {σ α β γ δ : Type} {h : Proc.Handler σ}

/-- How two runs are compared by what they ask for. -/
structure Pace where
  /-- What is taken for granted of all that is asked for. -/
  Grants : Exchange → Prop
  /-- Whether what is asked for in the one run and in the other is compared well. -/
  Follows : List Exchange → List Exchange → Prop
  nil : Follows [] []
  append : ∀ {t t' u u' : List Exchange}, Follows t u → Follows t' u' → Follows (t ++ t') (u ++ u')

/-- Two runs of which it does not matter what is asked for, where something is taken for granted of it. -/
def Pace.free (Grants : Exchange → Prop) : Pace where
  Grants := Grants
  Follows _ _ := True
  nil := trivial
  append _ _ := trivial

namespace Proc

/-- From states of which `I` holds two programs end with values and in states of which `Q` holds, and what they ask for on the way
is compared well. -/
def Abreast (h : Handler σ) (P : Pace) (I : σ → σ → Prop) (p : Proc α) (q : Proc β) (Q : α → β → σ → σ → Prop) : Prop :=
  ∀ s t, I s t → ∀ a x s', p.Goes h s a x s' → ∀ b y t', q.Goes h t b y t' →
    (∀ e ∈ x, P.Grants e) → (∀ e ∈ y, P.Grants e) → Q a b s' t' ∧ P.Follows x y

namespace Abreast

variable {P : Pace} {I I' : σ → σ → Prop} {p : Proc α} {q : Proc β}
  {Q Q' : α → β → σ → σ → Prop} {f : α → Proc γ} {g : β → Proc δ} {T : γ → δ → σ → σ → Prop}

theorem done {a : α} {b : β} (hq : ∀ s t, I s t → Q a b s t) : Abreast h P I (.done a) (.done b) Q := by
  intro s t hi a' x s' hp b' y t' hq' _ _
  obtain ⟨rfl, rfl, rfl⟩ := hp.of_done
  obtain ⟨rfl, rfl, rfl⟩ := hq'.of_done
  exact ⟨hq _ _ hi, P.nil⟩

theorem mono (hp : Abreast h P I p q Q) (hi : ∀ s t, I' s t → I s t) (hq : ∀ a b s t, Q a b s t → Q' a b s t) :
    Abreast h P I' p q Q' := by
  intro s t hs a x s' hg b y t' hg' hx hy
  obtain ⟨hend, hf⟩ := hp s t (hi s t hs) a x s' hg b y t' hg' hx hy
  exact ⟨hq a b s' t' hend, hf⟩

/-- Programs that go on run abreast part by part. -/
theorem bind (hp : Abreast h P I p q Q) (hf : ∀ a b, Abreast h P (Q a b) (f a) (g b) T) :
    Abreast h P I (p >>= f) (q >>= g) T := by
  intro s t hi c x s' hg d y t' hg' hx hy
  obtain ⟨a, x₁, s₁, x₂, hp₁, hp₂, rfl⟩ := hg.of_bind
  obtain ⟨b, y₁, t₁, y₂, hq₁, hq₂, rfl⟩ := hg'.of_bind
  obtain ⟨hmid, hf₁⟩ := hp s t hi a x₁ s₁ hp₁ b y₁ t₁ hq₁ (fun e he => hx e (List.mem_append_left _ he))
    fun e he => hy e (List.mem_append_left _ he)
  obtain ⟨hend, hf₂⟩ := hf a b s₁ t₁ hmid c x₂ s' hp₂ d y₂ t' hq₂ (fun e he => hx e (List.mem_append_right _ he))
    fun e he => hy e (List.mem_append_right _ he)
  exact ⟨hend, P.append hf₁ hf₂⟩

/-- A request runs abreast of another one if their answers and what becomes of the states do. -/
theorem request {r r' : Request} {Q : r.Answer → r'.Answer → σ → σ → Prop}
    (hr : ∀ s t, I s t → P.Grants ⟨r, (h r s).1⟩ → P.Grants ⟨r', (h r' t).1⟩ →
      Q (h r s).1 (h r' t).1 (h r s).2 (h r' t).2 ∧ P.Follows [⟨r, (h r s).1⟩] [⟨r', (h r' t).1⟩]) :
    Abreast h P I (Proc.request r) (Proc.request r') Q := by
  rintro s t hi _ _ _ ⟨hs, rfl⟩ _ _ _ ⟨ht, rfl⟩ hx hy
  cases hs
  cases ht
  exact hr s t hi (hx _ List.mem_cons_self) (hy _ List.mem_cons_self)

/-- Requests that are gone on with run abreast if they and what follows do. -/
theorem ask {r r' : Request} {next : r.Answer → Proc γ} {next' : r'.Answer → Proc δ}
    {Q : r.Answer → r'.Answer → σ → σ → Prop} (hr : Abreast h P I (Proc.request r) (Proc.request r') Q)
    (hn : ∀ a b, Abreast h P (Q a b) (next a) (next' b) T) : Abreast h P I (.ask r next) (.ask r' next') T :=
  bind hr hn

/-- One of two programs may ask for something more. -/
theorem askLeft {r : Request} {next : r.Answer → Proc γ} {q : Proc δ} {Q : r.Answer → σ → σ → Prop}
    (hr : ∀ s t, I s t → Q (h r s).1 (h r s).2 t ∧ P.Follows [⟨r, (h r s).1⟩] [])
    (hn : ∀ a, Abreast h P (Q a) (next a) q T) : Abreast h P I (.ask r next) q T := by
  intro s t hi c x s' hg d y t' hg' hx hy
  obtain ⟨a, x₁, s₁, x₂, ⟨hs, rfl⟩, hp, rfl⟩ := Proc.Goes.of_bind (p := Proc.request r) hg
  cases hs
  obtain ⟨hmid, hf⟩ := hr s t hi
  obtain ⟨hend, hf'⟩ := hn _ _ t hmid c x₂ s' hp d y t' hg' (fun e he => hx e (List.mem_append_right _ he)) hy
  exact ⟨hend, P.append hf hf'⟩

theorem askRight {r : Request} {next : r.Answer → Proc δ} {p : Proc γ} {Q : r.Answer → σ → σ → Prop}
    (hr : ∀ s t, I s t → Q (h r t).1 s (h r t).2 ∧ P.Follows [] [⟨r, (h r t).1⟩])
    (hn : ∀ a, Abreast h P (Q a) p (next a) T) : Abreast h P I p (.ask r next) T := by
  intro s t hi c x s' hg d y t' hg' hx hy
  obtain ⟨a, y₁, t₁, y₂, ⟨ht, rfl⟩, hp, rfl⟩ := Proc.Goes.of_bind (p := Proc.request r) hg'
  cases ht
  obtain ⟨hmid, hf⟩ := hr s t hi
  obtain ⟨hend, hf'⟩ := hn _ s _ hmid c x s' hg d y₂ t' hp hx fun e he => hy e (List.mem_append_right _ he)
  exact ⟨hend, P.append hf hf'⟩

end Abreast

/-! ### Programs that keep a relation -/

/-- Two programs that run abreast, keep a relation of states, and end with related values. -/
def Tandem (h : Handler σ) (P : Pace) (I : σ → σ → Prop) (R : α → β → Prop) (p : Proc α) (q : Proc β) : Prop :=
  Abreast h P I p q fun a b s t => R a b ∧ I s t

namespace Tandem

variable {P : Pace} {I : σ → σ → Prop} {R R' : α → β → Prop} {T : γ → δ → Prop}

theorem done {a : α} {b : β} (hr : R a b) : Tandem h P I R (.done a) (.done b) :=
  Abreast.done fun _ _ hi => ⟨hr, hi⟩

theorem imp {p : Proc α} {q : Proc β} (hp : Tandem h P I R p q) (hr : ∀ a b, R a b → R' a b) : Tandem h P I R' p q :=
  Abreast.mono hp (fun _ _ hi => hi) fun _ _ _ _ hq => ⟨hr _ _ hq.1, hq.2⟩

/-- What comes to the same has the same failures and values. -/
theorem echoes {p q : Proc (Except Failure α)} (hp : Tandem h P I Eq p q) : Tandem h P I (Echoes Eq) p q := by
  refine hp.imp fun a b hab => ?_
  rw [hab]
  exact .refl b

/-- Programs that go on keep the relation if both of their parts do. -/
theorem bind {p : Proc α} {q : Proc β} {f : α → Proc γ} {g : β → Proc δ} (hp : Tandem h P I R p q)
    (hf : ∀ a b, R a b → Tandem h P I T (f a) (g b)) : Tandem h P I T (p >>= f) (q >>= g) :=
  Abreast.bind hp fun a b s t hi => hf a b hi.1 s t hi.2

/-- Actions that go on keep the relation if both of their parts do; failures are the same. -/
theorem action {a : Action α} {b : Action β} {f : α → Action γ} {g : β → Action δ}
    (ha : Tandem h P I (Echoes R) a.run b.run) (hf : ∀ x y, R x y → Tandem h P I (Echoes T) (f x).run (g y).run) :
    Tandem h P I (Echoes T) (a >>= f).run (b >>= g).run := by
  rw [ExceptT.run_bind, ExceptT.run_bind]
  refine ha.bind fun x y hxy => ?_
  cases hxy with
  | error e => exact done (.error e)
  | ok hr => exact hf _ _ hr

/-- Actions whose values are only passed on keep what they keep. -/
theorem action_map {a : Action α} {b : Action β} {f : α → γ} {g : β → δ} (ha : Tandem h P I (Echoes R) a.run b.run)
    (hf : ∀ x y, R x y → T (f x) (g y)) :
    Tandem h P I (Echoes T) (a >>= fun x => pure (f x)).run (b >>= fun y => pure (g y)).run :=
  ha.action fun x y hxy => done (.ok (hf x y hxy))

/-- Whether two questions have both been answered, or both not. -/
def Meets (R : α → β → Prop) (x : Except Failure (Option α)) (y : Except Failure (Option β)) : Prop :=
  (∃ a b, x = .ok (some a) ∧ y = .ok (some b) ∧ R a b) ∨ (∀ a, x ≠ .ok (some a)) ∧ ∀ b, y ≠ .ok (some b)

/-- Waits keep a relation if what they ask does, and the clock tells the same. -/
theorem waitRounds {p : WaitPolicy} {what : String} {start : Instant} {question : Proc (Except Failure (Option α))}
    {question' : Proc (Except Failure (Option β))} (hq : Tandem h P I (Meets R) question question')
    (hnow : Tandem h P I Eq (Proc.request .now) (Proc.request .now))
    (hsleep : ∀ millis, Tandem h P I Eq (Proc.request (.sleep millis)) (Proc.request (.sleep millis))) (rounds : Nat) :
    Tandem h P I (Echoes R) (IngressOperator.waitRounds Proc.clock p what question start rounds)
      (IngressOperator.waitRounds Proc.clock p what question' start rounds) := by
  induction rounds with
  | zero => exact done (.error _)
  | succ rounds ih =>
    have hrest : Tandem h P I (Echoes R)
        (waitOn Proc.clock p what start (IngressOperator.waitRounds Proc.clock p what question start rounds))
        (waitOn Proc.clock p what start (IngressOperator.waitRounds Proc.clock p what question' start rounds)) := by
      refine hnow.bind ?_
      rintro now _ rfl
      split
      · exact done (.error _)
      · exact (hsleep p.interval).bind fun _ _ _ => ih
    rw [waitRounds_succ, waitRounds_succ]
    refine hq.bind fun x y hxy => ?_
    obtain ⟨a, b, rfl, rfl, hab⟩ | ⟨hx, hy⟩ := hxy
    · exact done (.ok hab)
    · -- whether there is no answer yet or a failure, both wait on
      rcases x with e | (_ | a)
      · rcases y with e' | (_ | b)
        · exact hrest
        · exact hrest
        · exact absurd rfl (hy b)
      · rcases y with e' | (_ | b)
        · exact hrest
        · exact hrest
        · exact absurd rfl (hy b)
      · exact absurd rfl (hx a)

end Tandem

end Proc

end IngressOperator
