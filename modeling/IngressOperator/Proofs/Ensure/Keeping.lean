import IngressOperator.Proofs.Ensure.Revision
import IngressOperator.Proofs.Wire.Resources

/-!
# What keeping an object comes to

An object is created, or a revision of the live one is written over it. On a store that keeps its contract, what this comes to
depends on the document under the key of the object alone, and it changes that document alone.

## Main statements

* `ensure_eq`, `ensureCreated_eq`: objects are kept by a revision of the live one.
* `writesOnly_keeping`: keeping an object writes nothing but that object.
* `Kept.of_run`: what keeping an object comes to, case by case.
-/

namespace IngressOperator

/-! ### Programs -/

/-- Writes what a revision asks for. -/
def writing (k : Kind) (name : String) (idle : Outcome) : Option k.Object → Action Synced
  | none => pure ⟨k, name, idle⟩
  | some x => do
    let _ ← Action.update k x
    pure ⟨k, name, .updated⟩

/-- Creates an object, or writes over the one of its name what a revision of it asks for. -/
def keeping (k : Kind) (desired : k.Object) (revise : k.Object → Option k.Object) (idle : Outcome) : Action Synced := do
  let name := (k.metadata desired).name.getD ""
  match ← createOrGet k desired with
  | none => pure ⟨k, name, .created⟩
  | some live => writing k name idle (revise live)

/-- Keeping an object brings it to the desired one. -/
theorem ensure_eq (owner : ManagementIngress) (k : OwnedKind) (desired : k.kind.Object) :
    ensure owner k desired = keeping k.kind (owned owner k.kind desired) (revision k (owned owner k.kind desired)) .unchanged := by
  unfold ensure keeping revision
  refine bind_congr fun found => ?_
  cases found with
  | none => rfl
  | some live =>
    dsimp only
    cases (Drift.object k live (owned owner k.kind desired)).changed <;>
      cases adopts k.kind (Drift.object k live (owned owner k.kind desired)).merged (owned owner k.kind desired) <;> rfl

/-- Keeping an object that is only to exist is keeping it with what it may take over. -/
theorem ensureCreated_eq (owner : ManagementIngress) (k : Kind) (desired : k.Object) :
    ensureCreated owner k desired = keeping k (owned owner k desired) (adoption k (owned owner k desired)) .existing := by
  unfold ensureCreated keeping adoption
  refine bind_congr fun found => ?_
  cases found with
  | none => rfl
  | some live =>
    dsimp only
    cases adopts k live (owned owner k desired) <;> rfl

/-- The program that keeps an object of a namespace and a name. -/
theorem run_keeping {k : Kind} {desired : k.Object} {ns name : String} (hk : k.key desired = .ok (ns, name))
    (revise : k.Object → Option k.Object) (idle : Outcome) :
    (keeping k desired revise idle).run =
      Proc.ask (.create k desired) fun
        | .error e => .done (.error e)
        | .ok .new => .done (.ok ⟨k, name, .created⟩)
        | .ok .alreadyExists =>
          Proc.ask (.get k ns name) fun
            | .error e => .done (.error e)
            | .ok none => .done (.error (.notFound k.name name))
            | .ok (some live) => (writing k name idle (revise live)).run := by
  have hn : (k.metadata desired).name.getD "" = name := by
    simp only [Kind.key] at hk
    split at hk
    · cases hk
    · cases hk
    · next h =>
      cases hk
      simp [h]
  unfold keeping createOrGet
  rw [hk, hn]
  refine congrArg (Proc.ask _) (funext fun created => ?_)
  rcases created with e | (_ | _)
  · rfl
  · rfl
  · refine congrArg (Proc.ask _) (funext fun found => ?_)
    rcases found with e | (_ | live)
    · rfl
    · rfl
    · rfl

/-! ### Runs -/

/-- What keeping an object comes to, from what was kept under its key to what is kept then. -/
inductive Kept {σ : Type} {h : Proc.Handler σ} (S : ObjectStore h) (k : Kind) (desired : k.Object) (name : String)
    (revise : k.Object → Option k.Object) (idle : Outcome) :
    Option Json → Except Failure Synced → Option Json → Prop where
  | created (y : k.Object) (hy : k.Completes desired y) :
    Kept S k desired name revise idle none (.ok ⟨k, name, .created⟩) (some (k.encode y))
  | refused (j : Json) (hj : k.decode? j = none) :
    Kept S k desired name revise idle (some j) (.error (S.refusal k j)) (some j)
  | left (j : Json) (live : k.Object) (hj : k.decode? j = some live) (hr : revise live = none) :
    Kept S k desired name revise idle (some j) (.ok ⟨k, name, idle⟩) (some j)
  | written (j : Json) (live x : k.Object) (version : String) (hj : k.decode? j = some live) (hr : revise live = some x) :
    Kept S k desired name revise idle (some j) (.ok ⟨k, name, .updated⟩) (some (k.encode (k.withVersion x version)))

theorem run_writing_some (k : Kind) (name : String) (idle : Outcome) (x : k.Object) :
    (writing k name idle (some x)).run =
      Proc.ask (.update k x) fun
        | .error e => .done (.error e)
        | .ok _ => .done (.ok ⟨k, name, .updated⟩) := by
  refine congrArg (Proc.ask _) (funext fun answer => ?_)
  cases answer <;> rfl

/-- Keeping an object asks for it to be created, for it to be read, and for a revision of what was read. -/
theorem asks_keeping {A : (r : Request) → r.Answer → Prop} {P : Request → Prop} {k : Kind} {desired : k.Object}
    {ns name : String} {revise : k.Object → Option k.Object} {idle : Outcome} (hk : k.key desired = .ok (ns, name))
    (hcreate : P (.create k desired)) (hget : P (.get k ns name))
    (hupdate : ∀ {live x}, A (.get k ns name) (.ok (some live)) → revise live = some x → P (.update k x)) :
    (keeping k desired revise idle).run.Asks A P := by
  rw [run_keeping hk]
  refine ⟨hcreate, ?_⟩
  intro created _
  rcases created with e | (_ | _)
  · trivial
  · trivial
  · refine ⟨hget, ?_⟩
    intro found hfound
    rcases found with e | (_ | live)
    · trivial
    · trivial
    · dsimp only
      cases hx : revise live with
      | none => trivial
      | some x =>
        rw [run_writing_some]
        refine ⟨hupdate hfound hx, ?_⟩
        intro answer _
        cases answer with
        | error e => trivial
        | ok z => trivial

/-- What is written over an object that was read under a name has that name, if its revision does not change it. -/
theorem Settles.objectKey? {k : Kind} {desired live x : k.Object} {revise : k.Object → Option k.Object}
    (hr : Settles k desired revise) {ns name : String} (hx : revise live = some x)
    (hlive : (k.metadata live).ns = some ns ∧ (k.metadata live).name = some name) :
    k.objectKey? x = some (k.keyAt ns name) :=
  Kind.objectKey?_eq.2 ⟨(hr.ns hx).trans hlive.1, (hr.name hx).trans hlive.2⟩

section

variable {σ : Type} {h : Proc.Handler σ} (S : ObjectStore h) {k : Kind} {desired : k.Object} {ns name : String}
  {revise : k.Object → Option k.Object} {idle : Outcome}

/-- Keeping an object writes nothing but that object. -/
theorem writesOnly_keeping (hk : k.key desired = .ok (ns, name)) (hr : Settles k desired revise) :
    (keeping k desired revise idle).run.WritesOnly [k.keyAt ns name] := by
  have ht {x : k.Object} (hx : k.objectKey? x = some (k.keyAt ns name)) (key : ObjectKey) (hkey : k.objectKey? x = some key) :
      key ∈ [k.keyAt ns name] := by
    rw [hx] at hkey
    exact List.mem_singleton.2 (Option.some.inj hkey).symm
  refine asks_keeping hk (ht (Kind.objectKey?_eq.2 (Kind.key_eq_ok.1 hk))) (fun key hkey => absurd hkey nofun) ?_
  intro live x hlive hx
  exact ht (hr.objectKey? hx hlive)

variable {s : σ}

/-- What is read after an object could not be created because there is one. -/
theorem get_after_create (hs : S.Holds s) (hk : k.key desired = .ok (ns, name)) {j : Json}
    (hj : S.stored s (k.keyAt ns name) = some j) :
    (h (.create k desired) s).1 = .ok .alreadyExists ∧
      (h (.get k ns name) (h (.create k desired) s).2).1 = k.reading S.refusal (some j) ∧
      S.stored (h (.get k ns name) (h (.create k desired) s).2).2 (k.keyAt ns name) = some j := by
  have hkey := Kind.objectKey?_eq.2 (Kind.key_eq_ok.1 hk)
  obtain ⟨ha, hc⟩ := S.create_present s k desired _ j hs hkey hj
  have hs1 := S.holds (.create k desired) s hs
  refine ⟨ha, ?_, ?_⟩
  · rw [S.get _ k ns name hs1, hc]
  · rw [S.stored_of_untargeted hs1 rfl, hc]

variable (idle)

/-- What keeping an object comes to, case by case. -/
theorem Kept.of_run (hs : S.Holds s) (hm : k ≠ .managementIngress) (hk : k.key desired = .ok (ns, name))
    (hr : Settles k desired revise) :
    Kept S k desired name revise idle (S.stored s (k.keyAt ns name)) ((keeping k desired revise idle).run.run h s).1
      (S.stored ((keeping k desired revise idle).run.run h s).2 (k.keyAt ns name)) := by
  have hkey := Kind.objectKey?_eq.2 (Kind.key_eq_ok.1 hk)
  rw [run_keeping hk, Proc.run_ask]
  cases hj : S.stored s (k.keyAt ns name) with
  | none =>
    obtain ⟨ha, y, hy, hc⟩ := S.create_absent s k desired _ hs hkey hj
    rw [ha]
    simp only [Proc.run_done]
    rw [hc]
    exact .created y hy
  | some j =>
    obtain ⟨ha, hg, hc⟩ := get_after_create S hs hk hj
    rw [ha]
    dsimp only
    rw [Proc.run_ask, hg]
    have hs2 := S.holds (.get k ns name) _ (S.holds (.create k desired) s hs)
    cases hx : k.decode? j with
    | none =>
      simp only [Kind.reading, hx, Proc.run_done]
      rw [hc]
      exact .refused j hx
    | some live =>
      simp only [Kind.reading, hx]
      cases hw : revise live with
      | none =>
        change Kept S k desired name revise idle _ (.ok ⟨k, name, idle⟩) (S.stored (h _ _).2 _)
        rw [hc]
        exact .left j live hx hw
      | some x =>
        have hp := S.placed _ k ns name j live hs hj hx
        have hxk := hr.objectKey? hw hp
        obtain ⟨⟨y, hy⟩, v, hv⟩ := S.update _ k x _ j live hs2 hm hxk hc hx (hr.version hw).symm
        rw [run_writing_some, Proc.run_ask, hy]
        simp only [Proc.run_done]
        rw [hv]
        exact .written j live x v hx hw

/-- An object that is as it should be is left alone, quietly. -/
theorem keeping_left (hs : S.Holds s) (hk : k.key desired = .ok (ns, name)) {j : Json} {live : k.Object}
    (hj : S.stored s (k.keyAt ns name) = some j) (hx : k.decode? j = some live) (hw : revise live = none) :
    ((keeping k desired revise idle).run.run h s).1 = .ok ⟨k, name, idle⟩ ∧
      Proc.Quiet h (keeping k desired revise idle).run s := by
  obtain ⟨ha, hg, -⟩ := get_after_create S hs hk hj
  rw [run_keeping hk, Proc.run_ask]
  refine ⟨?_, Proc.quiet_ask ?_ ?_⟩
  · rw [ha]
    dsimp only
    rw [Proc.run_ask, hg]
    simp only [Kind.reading, hx, hw]
    rfl
  · rw [ha]
    intro hwrites
    cases hwrites
  · rw [ha]
    refine Proc.quiet_ask id ?_
    rw [hg]
    simp only [Kind.reading, hx, hw]
    exact Proc.quiet_done _ _ _

variable (revise)

/-- An object that cannot be read is left alone, quietly. -/
theorem keeping_refused (hs : S.Holds s) (hk : k.key desired = .ok (ns, name)) {j : Json}
    (hj : S.stored s (k.keyAt ns name) = some j) (hx : k.decode? j = none) :
    ((keeping k desired revise idle).run.run h s).1 = .error (S.refusal k j) ∧
      Proc.Quiet h (keeping k desired revise idle).run s := by
  obtain ⟨ha, hg, -⟩ := get_after_create S hs hk hj
  rw [run_keeping hk, Proc.run_ask]
  refine ⟨?_, Proc.quiet_ask ?_ ?_⟩
  · rw [ha]
    dsimp only
    rw [Proc.run_ask, hg]
    simp only [Kind.reading, hx]
    rfl
  · rw [ha]
    intro hwrites
    cases hwrites
  · rw [ha]
    refine Proc.quiet_ask id ?_
    rw [hg]
    simp only [Kind.reading, hx]
    exact Proc.quiet_done _ _ _

end

end IngressOperator
