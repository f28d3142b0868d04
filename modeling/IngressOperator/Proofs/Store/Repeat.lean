import IngressOperator.Proofs.Ensure.Keeping

/-!
# Programs that repeat others

A program repeats another one if, from any state that still keeps what the other one left under certain keys, it ends in the
same way and writes nothing. If every part of a program repeats itself, and no later part writes what an earlier one goes by,
then the whole repeats itself.

## Main statements

* `Repeats.bind`, `Repeats.action_bind`: programs that go on are repeated part by part.
* `repeats_keeping`: keeping an object that was just kept finds nothing to do.
-/

namespace IngressOperator

/-- Failures are the same, and values are related. -/
inductive Echoes {α β : Type} (R : α → β → Prop) : Except Failure α → Except Failure β → Prop where
  | error (e : Failure) : Echoes R (.error e) (.error e)
  | ok {a : α} {b : β} (h : R a b) : Echoes R (.ok a) (.ok b)

theorem Echoes.refl {α : Type} : (a : Except Failure α) → Echoes Eq a a
  | .error e => .error e
  | .ok _ => .ok rfl

theorem Echoes.imp {α β : Type} {R T : α → β → Prop} {x : Except Failure α} {y : Except Failure β} (he : Echoes R x y)
    (hr : ∀ a b, R a b → T a b) : Echoes T x y := by
  cases he with
  | error e => exact .error e
  | ok h => exact .ok (hr _ _ h)

variable {σ α β γ δ : Type} {h : Proc.Handler σ} (S : ObjectStore h)

/-- From every state that still keeps under the given keys what `p` left there, `q` ends like `p` and writes nothing. -/
def Repeats (keys : List ObjectKey) (R : α → β → Prop) (p : Proc α) (q : Proc β) : Prop :=
  ∀ s t, S.Holds s → S.Holds t → (∀ key ∈ keys, S.stored t key = S.stored (p.run h s).2 key) →
    R (p.run h s).1 (q.run h t).1 ∧ q.Quiet h t

namespace Repeats

variable {S} {K L M : List ObjectKey} {R : α → β → Prop} {T : γ → δ → Prop}

theorem mono {p : Proc α} {q : Proc β} (hp : Repeats S K R p q) (hk : K ⊆ L) : Repeats S L R p q :=
  fun s t hs ht hst => hp s t hs ht fun key h => hst key (hk h)

theorem imp {R' : α → β → Prop} {p : Proc α} {q : Proc β} (hp : Repeats S K R p q) (hr : ∀ a b, R a b → R' a b) :
    Repeats S K R' p q :=
  fun s t hs ht hst => ⟨hr _ _ (hp s t hs ht hst).1, (hp s t hs ht hst).2⟩

theorem done {a : α} {b : β} (hr : R a b) : Repeats S K R (.done a) (.done b) :=
  fun _ _ _ _ _ => ⟨hr, Proc.quiet_done _ _ _⟩

/-- A program that goes on is repeated part by part, if the second part does not write what the first one goes by. -/
theorem bind {p : Proc α} {q : Proc β} {f : α → Proc γ} {g : β → Proc δ} (hp : Repeats S K R p q) (hk : K ⊆ L)
    (hf : ∀ a b, R a b → Repeats S L T (f a) (g b)) (hw : ∀ a, (f a).WritesOnly M) (hd : ∀ key ∈ K, key ∉ M) :
    Repeats S L T (p >>= f) (q >>= g) := by
  intro s t hs ht hst
  have hs1 := S.holds_run p hs
  have hfirst : ∀ key ∈ K, S.stored t key = S.stored (p.run h s).2 key := by
    intro key hkey
    rw [hst key (hk hkey), Proc.run_bind]
    exact S.stored_of_writesOnly (hw _) (hd key hkey) hs1
  obtain ⟨hr, hq⟩ := hp s t hs ht hfirst
  have hrest : ∀ key ∈ L, S.stored (q.run h t).2 key = S.stored ((f (p.run h s).1).run h (p.run h s).2).2 key := by
    intro key hkey
    rw [S.stored_of_quiet ht hq, hst key hkey, Proc.run_bind]
  obtain ⟨ht', hq'⟩ := hf _ _ hr _ _ hs1 (S.holds_run q ht) hrest
  rw [Proc.run_bind, Proc.run_bind]
  exact ⟨ht', hq.bind hq'⟩

/-- An action that goes on is repeated part by part. -/
theorem action_bind {a : Action α} {b : Action β} {f : α → Action γ} {g : β → Action δ}
    (ha : Repeats S K (Echoes R) a.run b.run) (hk : K ⊆ L)
    (hf : ∀ x y, R x y → Repeats S L (Echoes T) (f x).run (g y).run) (hw : ∀ x, (f x).run.WritesOnly M)
    (hd : ∀ key ∈ K, key ∉ M) : Repeats S L (Echoes T) (a >>= f).run (b >>= g).run := by
  rw [ExceptT.run_bind, ExceptT.run_bind]
  refine ha.bind hk (fun x y hxy => ?_) (fun x => ?_) hd
  · cases hxy with
    | error e => exact .done (.error e)
    | ok h => exact hf _ _ h
  · cases x with
    | ok x => exact hw x
    | error e => trivial

/-- An action whose value is only passed on is repeated as it is. -/
theorem action_map {a : Action α} {b : Action β} {f : α → γ} {g : β → δ} (ha : Repeats S K (Echoes R) a.run b.run)
    (hf : ∀ x y, R x y → T (f x) (g y)) :
    Repeats S K (Echoes T) (a >>= fun x => pure (f x)).run (b >>= fun y => pure (g y)).run :=
  ha.action_bind (M := []) (List.Subset.refl K) (fun x y hxy => .done (.ok (hf x y hxy))) (fun _ => trivial)
    fun _ _ => List.not_mem_nil

/-- A program is repeated by what it always comes to. -/
theorem of_result {p : Proc α} {b : β} (hr : ∀ s, R (p.run h s).1 b) : Repeats S K R p (.done b) :=
  fun s _ _ _ _ => ⟨hr s, Proc.quiet_done _ _ _⟩

/-- A program that writes nothing and whose result depends on one document repeats itself. -/
theorem of_document {p : Proc α} {key : ObjectKey} (F : Option Json → α)
    (hp : ∀ s, S.Holds s → (p.run h s).1 = F (S.stored s key) ∧ p.Quiet h s) : Repeats S [key] Eq p p := by
  intro s t hs ht hst
  obtain ⟨hr, hq⟩ := hp s hs
  obtain ⟨hr', hq'⟩ := hp t ht
  refine ⟨?_, hq'⟩
  rw [hr, hr', hst key (List.mem_singleton_self key), S.stored_of_quiet hs hq]

/-- A program that writes nothing and always ends in the same way repeats itself. -/
theorem of_constant {p : Proc α} (hp : ∀ s t, S.Holds s → S.Holds t → (p.run h s).1 = (p.run h t).1)
    (hq : ∀ s, S.Holds s → p.Quiet h s) : Repeats S K Eq p p :=
  fun s t hs ht _ => ⟨hp s t hs ht, hq t ht⟩

end Repeats

/-- Keeping an object that was just kept finds nothing to do. -/
theorem repeats_keeping {k : Kind} {desired : k.Object} {ns name : String} {revise : k.Object → Option k.Object} {idle : Outcome}
    (hm : k ≠ .managementIngress) (hk : k.key desired = .ok (ns, name)) (hr : Settles k desired revise) :
    Repeats S [k.keyAt ns name] (Echoes fun _ y => y.outcome = idle) (keeping k desired revise idle).run
      (keeping k desired revise idle).run := by
  intro s t hs ht hst
  have hst := hst _ (List.mem_singleton_self _)
  have hkept := Kept.of_run S idle hs hm hk hr
  generalize (keeping k desired revise idle).run.run h s = result at hkept hst
  obtain ⟨answer, s'⟩ := result
  dsimp only at hkept hst ⊢
  generalize S.stored s (k.keyAt ns name) = before at hkept
  generalize S.stored s' (k.keyAt ns name) = after at hkept hst
  cases hkept with
  | created y hy =>
    obtain ⟨ha, hq⟩ := keeping_left S idle ht hk hst (Kind.decode?_encode hm y) (hr.created hy)
    rw [ha]
    exact ⟨.ok rfl, hq⟩
  | refused j hj =>
    obtain ⟨ha, hq⟩ := keeping_refused S revise idle ht hk hst hj
    rw [ha]
    exact ⟨.error _, hq⟩
  | left j live hj hw =>
    obtain ⟨ha, hq⟩ := keeping_left S idle ht hk hst hj hw
    rw [ha]
    exact ⟨.ok rfl, hq⟩
  | written j live x v hj hw =>
    obtain ⟨ha, hq⟩ := keeping_left S idle ht hk hst (Kind.decode?_encode hm _) (hr.written hw v)
    rw [ha]
    exact ⟨.ok rfl, hq⟩

end IngressOperator
