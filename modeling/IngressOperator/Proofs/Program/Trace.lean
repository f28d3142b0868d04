import IngressOperator.Cluster.Objects
import IngressOperator.Proc

/-!
# What a program asks for

The trace of a run is the list of the requests that it made, with their answers. What a program may ask for at all is said of
the tree that it is: every request on every branch that sensible answers lead to satisfies a predicate.

## Main statements

* `Proc.trace_bind`: the trace of a program that goes on with another one is that of the one and then that of the other.
* `Proc.Asks.run`: what every request of a program keeps, a run of it keeps.
-/

namespace IngressOperator

/-! ### Keys -/

namespace Kind

/-- The key of an object of a kind. -/
def keyAt (k : Kind) (ns name : String) : ObjectKey := ⟨k.name, ns, name⟩

/-- A kind is known by its name. -/
theorem name_injective {j k : Kind} (h : j.name = k.name) : j = k := by
  cases j <;> cases k <;> revert h <;> decide

theorem keyAt_inj {j k : Kind} {ns ns' name name' : String} :
    j.keyAt ns name = k.keyAt ns' name' ↔ j = k ∧ ns = ns' ∧ name = name' := by
  simp only [keyAt, ObjectKey.mk.injEq]
  exact ⟨fun h => ⟨name_injective h.1, h.2⟩, fun h => ⟨congrArg Kind.name h.1, h.2⟩⟩

/-- The key of an object, if it has a namespace and a name. -/
def objectKey? (k : Kind) (x : k.Object) : Option ObjectKey :=
  match k.key x with
  | .ok (ns, name) => some (k.keyAt ns name)
  | .error _ => none

/-- An object has a key if it has a namespace and a name. -/
theorem key_eq_ok {k : Kind} {x : k.Object} {ns name : String} :
    k.key x = .ok (ns, name) ↔ (k.metadata x).ns = some ns ∧ (k.metadata x).name = some name := by
  unfold Kind.key
  dsimp only
  cases hn : (k.metadata x).ns with
  | none => simp
  | some n =>
    cases hm : (k.metadata x).name with
    | none => simp
    | some m => simp

theorem objectKey?_eq {k : Kind} {x : k.Object} {ns name : String} :
    k.objectKey? x = some (k.keyAt ns name) ↔ (k.metadata x).ns = some ns ∧ (k.metadata x).name = some name := by
  rw [← key_eq_ok]
  unfold objectKey?
  cases hk : k.key x with
  | error e => simp
  | ok key => simp [keyAt, Prod.ext_iff]

/-- The key of an object says of which kind it is, and which namespace and name it has. -/
theorem of_objectKey? {k : Kind} {x : k.Object} {key : ObjectKey} (h : k.objectKey? x = some key) :
    key.kind = k.name ∧ (k.metadata x).ns = some key.ns ∧ (k.metadata x).name = some key.name := by
  unfold objectKey? at h
  split at h
  · next hk =>
    cases h
    exact ⟨rfl, key_eq_ok.1 hk⟩
  · cases h

theorem eq_keyAt_of_objectKey? {k : Kind} {x : k.Object} {key : ObjectKey} (h : k.objectKey? x = some key) :
    key = k.keyAt key.ns key.name := by
  obtain ⟨kind, ns, name⟩ := key
  exact congrArg (ObjectKey.mk · ns name) (of_objectKey? h).1

/-- An object is not kept under a key of another kind. -/
theorem objectKey?_ne {j k : Kind} (hne : k ≠ j) (x : k.Object) (ns name : String) : k.objectKey? x ≠ some (j.keyAt ns name) :=
  fun h => hne (name_injective (of_objectKey? h).1.symm)

end Kind

/-! ### Exchanges -/

/-- A request with the answer that it got. -/
structure Exchange where
  request : Request
  answer : request.Answer

/-- Whether an exchange wrote, or tried to write, to the store: it created an object, or asked for an update, a deletion or a
new status. That an object to be created exists is found out without writing. -/
def Exchange.Writes : Exchange → Prop
  | ⟨.create _ _, answer⟩ => answer = .ok .new
  | ⟨.update _ _, _⟩ | ⟨.delete _ _ _, _⟩ | ⟨.updateStatus _ _, _⟩ => True
  | _ => False

/-- Nothing of what was asked for writes. -/
def Silent (t : List Exchange) : Prop := ∀ x ∈ t, ¬ x.Writes

namespace Silent

variable {t t' : List Exchange}

theorem nil : Silent [] := fun _ hx => absurd hx List.not_mem_nil

theorem singleton {x : Exchange} (hx : ¬ x.Writes) : Silent [x] := by
  intro y hy
  rw [List.mem_singleton.1 hy]
  exact hx

theorem append (ht : Silent t) (ht' : Silent t') : Silent (t ++ t') := by
  intro x hx
  rcases List.mem_append.1 hx with hx | hx
  · exact ht x hx
  · exact ht' x hx

end Silent

/-- The object that a request may change. -/
def Request.target? : Request → Option ObjectKey
  | .create k x | .update k x => k.objectKey? x
  | .delete k ns name => some (k.keyAt ns name)
  | .updateStatus ingress _ => Kind.objectKey? .managementIngress ingress
  | _ => none

namespace Proc

variable {α β : Type} {σ : Type}

/-! ### Traces -/

/-- What a run asks for, in order and with the answers. -/
def trace (h : Handler σ) : Proc α → σ → List Exchange
  | done _, _ => []
  | ask r next, s => ⟨r, (h r s).1⟩ :: (next (h r s).1).trace h (h r s).2

@[simp] theorem trace_done (h : Handler σ) (a : α) (s : σ) : (done a).trace h s = [] := rfl

@[simp] theorem run_done (h : Handler σ) (a : α) (s : σ) : (done a).run h s = (a, s) := rfl

theorem run_ask (h : Handler σ) (r : Request) (next : r.Answer → Proc α) (s : σ) :
    (ask r next).run h s = (next (h r s).1).run h (h r s).2 := rfl

theorem trace_ask (h : Handler σ) (r : Request) (next : r.Answer → Proc α) (s : σ) :
    (ask r next).trace h s = ⟨r, (h r s).1⟩ :: (next (h r s).1).trace h (h r s).2 := rfl

@[simp] theorem trace_request (h : Handler σ) (r : Request) (s : σ) : (request r).trace h s = [⟨r, (h r s).1⟩] := rfl

@[simp] theorem run_request (h : Handler σ) (r : Request) (s : σ) : (request r).run h s = h r s := rfl

/-- The trace of a program that goes on with another one is that of the one and then that of the other. -/
theorem trace_bind (h : Handler σ) (p : Proc α) (f : α → Proc β) (s : σ) :
    (p >>= f).trace h s = p.trace h s ++ (f (p.run h s).1).trace h (p.run h s).2 := by
  induction p generalizing s with
  | done a => rfl
  | ask r next ih => simp only [ask_bind, trace, run, ih, List.cons_append]

/-- A run that writes nothing. -/
def Quiet (h : Handler σ) (p : Proc α) (s : σ) : Prop := Silent (p.trace h s)

theorem quiet_done (h : Handler σ) (a : α) (s : σ) : Quiet h (done a) s := Silent.nil

/-- A run is quiet if its first exchange does not write and the rest is quiet. -/
theorem quiet_ask {h : Handler σ} {r : Request} {next : r.Answer → Proc α} {s : σ}
    (hr : ¬ (⟨r, (h r s).1⟩ : Exchange).Writes) (hn : Quiet h (next (h r s).1) (h r s).2) : Quiet h (ask r next) s := by
  unfold Quiet
  rw [trace_ask]
  exact (Silent.singleton hr).append hn

/-- A run that goes on is quiet if both parts are. -/
theorem Quiet.bind {h : Handler σ} {p : Proc α} {f : α → Proc β} {s : σ} (hp : Quiet h p s)
    (hf : Quiet h (f (p.run h s).1) (p.run h s).2) : Quiet h (p >>= f) s := by
  unfold Quiet
  rw [trace_bind]
  exact hp.append hf

/-! ### Courses -/

/-- A run ends with a value and in a state, and asks for certain things on the way. -/
def Goes (h : Handler σ) (p : Proc α) (s : σ) (a : α) (t : List Exchange) (s' : σ) : Prop :=
  p.run h s = (a, s') ∧ p.trace h s = t

namespace Goes

variable {h : Handler σ} {p : Proc α} {f : α → Proc β} {a a' : α} {b : β} {s s' s'' : σ} {t t' : List Exchange}

theorem of_run (h : Handler σ) (p : Proc α) (s : σ) : p.Goes h s (p.run h s).1 (p.trace h s) (p.run h s).2 := ⟨rfl, rfl⟩

theorem done (h : Handler σ) (a : α) (s : σ) : (Proc.done a).Goes h s a [] s := ⟨rfl, rfl⟩

theorem request (h : Handler σ) (r : Request) (s : σ) : (Proc.request r).Goes h s (h r s).1 [⟨r, (h r s).1⟩] (h r s).2 :=
  ⟨rfl, rfl⟩

/-- A program that goes on goes the way of the one and then that of the other. -/
theorem bind (hp : p.Goes h s a t s') (hf : (f a).Goes h s' b t' s'') : (p >>= f).Goes h s b (t ++ t') s'' := by
  obtain ⟨hr, rfl⟩ := hp
  obtain ⟨hr', rfl⟩ := hf
  constructor
  · rw [run_bind, hr, hr']
  · rw [trace_bind, hr]

/-- A program that is done after another one goes the way of that one. -/
theorem last (hp : p.Goes h s a t s') (hf : f a = .done b) : (p >>= f).Goes h s b t s' := by
  have hg := hp.bind (hf ▸ done h b s')
  rw [List.append_nil] at hg
  exact hg

/-- The ways of a program that goes on are those of the one and then those of the other. -/
theorem of_bind (hg : (p >>= f).Goes h s b t s'') :
    ∃ a t₁ s' t₂, p.Goes h s a t₁ s' ∧ (f a).Goes h s' b t₂ s'' ∧ t = t₁ ++ t₂ := by
  obtain ⟨hr, rfl⟩ := hg
  rw [run_bind] at hr
  exact ⟨_, _, _, _, of_run h p s, ⟨hr, rfl⟩, trace_bind h p f s⟩

theorem of_done (hg : (Proc.done a).Goes h s a' t s') : a' = a ∧ t = [] ∧ s' = s :=
  ⟨(congrArg Prod.fst hg.1).symm, hg.2.symm, (congrArg Prod.snd hg.1).symm⟩

/-- What a quiet run asks for writes nothing. -/
theorem silent (hg : p.Goes h s a t s') (hq : p.Quiet h s) : Silent t := by
  obtain ⟨-, rfl⟩ := hg
  exact hq

theorem quiet (hg : p.Goes h s a t s') (ht : Silent t) : p.Quiet h s := by
  obtain ⟨-, rfl⟩ := hg
  exact ht

end Goes

/-! ### Requests on all branches -/

/-- Every request of a program satisfies `P`, on all branches that are reached by answers of which `A` holds. -/
def Asks (A : (r : Request) → r.Answer → Prop) (P : Request → Prop) : Proc α → Prop
  | done _ => True
  | ask r next => P r ∧ ∀ answer, A r answer → (next answer).Asks A P

namespace Asks

variable {A : (r : Request) → r.Answer → Prop} {P Q : Request → Prop}

theorem request {r : Request} (h : P r) : (Proc.request r).Asks A P := ⟨h, fun _ _ => trivial⟩

/-- A program that goes on asks for what both of its parts ask for. -/
theorem bind {p : Proc α} {f : α → Proc β} (hp : p.Asks A P) (hf : ∀ a, (f a).Asks A P) : (p >>= f).Asks A P := by
  induction p with
  | done a => exact hf a
  | ask r next ih => exact ⟨hp.1, fun answer h => ih answer (hp.2 answer h)⟩

theorem mono {p : Proc α} (hp : p.Asks A P) (h : ∀ r, P r → Q r) : p.Asks A Q := by
  induction p with
  | done a => trivial
  | ask r next ih => exact ⟨h r hp.1, fun answer ha => ih answer (hp.2 answer ha)⟩

/-- What every request of a program keeps, a run of it keeps. -/
theorem run {h : Handler σ} {I : σ → Prop} {p : Proc α} (hp : p.Asks A P)
    (step : ∀ r s, P r → I s → A r (h r s).1 ∧ I (h r s).2) {s : σ} (hs : I s) : I (p.run h s).2 := by
  induction p generalizing s with
  | done a => exact hs
  | ask r next ih =>
    obtain ⟨ha, hi⟩ := step r s hp.1 hs
    exact ih _ (hp.2 _ ha) hi

/-- Every request that a run makes is one that the program may ask for. -/
theorem trace {h : Handler σ} {I : σ → Prop} {p : Proc α} (hp : p.Asks A P)
    (step : ∀ r s, P r → I s → A r (h r s).1 ∧ I (h r s).2) {s : σ} (hs : I s) : ∀ x ∈ p.trace h s, P x.request := by
  induction p generalizing s with
  | done a => exact fun _ hx => absurd hx List.not_mem_nil
  | ask r next ih =>
    obtain ⟨ha, hi⟩ := step r s hp.1 hs
    intro x hx
    rcases List.mem_cons.1 hx with rfl | hx
    · exact hp.1
    · exact ih _ (hp.2 _ ha) hi x hx

/-- Every request in a run is one that the program may ask for, whatever it is answered. -/
theorem all_trace {p : Proc α} (hp : p.Asks (fun _ _ => True) P) (h : Handler σ) (s : σ) : ∀ x ∈ p.trace h s, P x.request :=
  hp.trace (I := fun _ => True) (fun _ _ _ _ => ⟨trivial, trivial⟩) trivial

end Asks

end Proc

/-! ### Actions -/

namespace Action

variable {α β : Type} {A : (r : Request) → r.Answer → Prop} {P : Request → Prop}

/-- An action that goes on asks for what both of its parts ask for. -/
theorem asks_bind {a : Action α} {f : α → Action β} (ha : a.run.Asks A P) (hf : ∀ x, (f x).run.Asks A P) :
    (a >>= f).run.Asks A P := by
  rw [ExceptT.run_bind]
  refine ha.bind fun result => ?_
  cases result with
  | ok x => exact hf x
  | error e => trivial

end Action

end IngressOperator
