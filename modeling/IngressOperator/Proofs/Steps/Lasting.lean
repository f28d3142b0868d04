import IngressOperator.Proofs.Steps.Parts

/-!
# What lasts through steps

A property of the document of an object lasts if it is kept whenever an object is created in its place or written over it with
what is not tracked preserved. No step breaks a property that lasts.

## Main statements

* `Pass.lasts_parts`: a step keeps every property of a document that lasts.
-/

namespace IngressOperator

/-- Whether a property of the document of an object is kept by all that a pass for a custom resource may write there. -/
structure Lasting (owner : ManagementIngress) (k : OwnedKind) (I : Option Json → Prop) : Prop where
  created : ∀ {x y}, I none → k.Durable x → k.kind.owners x = owner.owning → k.kind.Completes x y → I (some (k.kind.encode y))
  written : ∀ {j x y} (v : String), I (some j) → k.kind.decode? j = some x → Preserves owner.owning k x y →
    I (some (k.kind.encode (k.kind.withVersion y v)))

variable {σ α β : Type} {h : Proc.Handler σ} (S : ObjectStore h)

/-- Whether a property of the document of a key lasts through the runs of a program. -/
def Lasts (key : ObjectKey) (I : Option Json → Prop) (p : Proc α) : Prop :=
  ∀ s, S.Holds s → I (S.stored s key) → I (S.stored (p.run h s).2 key)

namespace Lasts

variable {S} {key : ObjectKey} {I : Option Json → Prop}

theorem done (a : α) : Lasts S key I (.done a) := fun _ _ hi => hi

/-- What lasts through two programs lasts through the one after the other. -/
theorem bind {p : Proc α} {f : α → Proc β} (hp : Lasts S key I p) (hf : ∀ a, Lasts S key I (f a)) :
    Lasts S key I (p >>= f) := by
  intro s hs hi
  rw [Proc.run_bind]
  exact hf _ _ (S.holds_run p hs) (hp s hs hi)

/-- A document lasts that is not written. -/
theorem of_writesOnly {keys : List ObjectKey} {p : Proc α} (hp : p.WritesOnly keys) (hk : key ∉ keys) : Lasts S key I p := by
  intro s hs hi
  rw [S.stored_of_writesOnly hp hk hs]
  exact hi

end Lasts

/-! ### Keeping objects -/

/-- Replacing the pods of the operand leaves its deployment as it is, or notes the time on it. -/
theorem stored_of_restart {s : σ} (hs : S.Holds s) (ns : String) :
    let doc := S.stored s (Kind.deployment.keyAt ns Names.app)
    let doc' := S.stored ((Steps.restart ns).run.run h s).2 (Kind.deployment.keyAt ns Names.app)
    doc' = doc ∨ ∃ j d now v, doc = some j ∧ Kind.decode? .deployment j = some d ∧
      doc' = some (Kind.encode .deployment (Kind.withVersion .deployment (Steps.stamped d now) v)) := by
  intro doc doc'
  have hs1 := S.holds (.get .deployment ns Names.app) s hs
  have hget : S.stored (h (.get .deployment ns Names.app) s).2 (Kind.deployment.keyAt ns Names.app) = doc :=
    S.stored_of_untargeted hs rfl _
  have hrun : doc' = S.stored ((Steps.restart ns).run.run h s).2 (Kind.deployment.keyAt ns Names.app) := rfl
  rw [Steps.run_restart, Proc.run_ask, S.get s .deployment ns Names.app hs] at hrun
  cases hj : S.stored s (Kind.deployment.keyAt ns Names.app) with
  | none =>
    rw [hj] at hrun
    exact .inl (hrun.trans hget)
  | some j =>
    cases hx : Kind.decode? .deployment j with
    | none =>
      simp only [hj, Kind.reading, hx, Proc.run_done] at hrun
      exact .inl (hrun.trans hget)
    | some d =>
      simp only [hj, Kind.reading, hx, Proc.run_ask] at hrun
      have hs2 := S.holds .now _ hs1
      have hnow : S.stored (h .now (h (.get .deployment ns Names.app) s).2).2 (Kind.deployment.keyAt ns Names.app) = some j := by
        rw [S.stored_of_untargeted hs1 rfl, hget]
        exact hj
      have hp := S.placed s .deployment ns Names.app j d hs hj hx
      obtain ⟨⟨y, hy⟩, v, hv⟩ := S.update _ .deployment (Steps.stamped d (h .now (h (.get .deployment ns Names.app) s).2).1) _ j d
        hs2 (by decide) (Kind.objectKey?_eq.2 hp) hnow hx rfl
      rw [hy] at hrun
      exact .inr ⟨j, d, _, v, hj, hx, hrun.trans hv⟩

section

variable {owner : ManagementIngress} {k : OwnedKind} {I : Option Json → Prop} (hI : Lasting owner k I)

include hI

/-- A property that lasts is kept where an object is kept by a revision that preserves it. -/
theorem lasts_keeping {desired : k.kind.Object} {revise : k.kind.Object → Option k.kind.Object} {idle : Outcome}
    {ns name : String} (hk : k.kind.key desired = .ok (ns, name)) (hd : k.Durable desired)
    (ho : k.kind.owners desired = owner.owning) (hr : Settles k.kind desired revise)
    (hp : ∀ {live x}, revise live = some x → Preserves owner.owning k live x) :
    Lasts S (k.kind.keyAt ns name) I (keeping k.kind desired revise idle).run := by
  intro s hs hi
  have hm : k.kind ≠ .managementIngress := by cases k <;> nofun
  have hkept := Kept.of_run S idle hs hm hk hr
  generalize ((keeping k.kind desired revise idle).run.run h s).1 = answer at hkept
  generalize S.stored s (k.kind.keyAt ns name) = before at hkept hi
  generalize S.stored ((keeping k.kind desired revise idle).run.run h s).2 (k.kind.keyAt ns name) = after at hkept ⊢
  cases hkept with
  | created y hy => exact hI.created hi hd ho hy
  | refused j hj => exact hi
  | left j live hj hw => exact hi
  | written j live x v hj hw => exact hI.written v hi hj (hp hw)

variable {j : OwnedKind} {desired : j.kind.Object} {ns ns' name name' : String}

/-- A property that lasts is kept where any desired object is kept. -/
theorem lasts_ensure (hk : j.kind.key desired = .ok (ns', name')) (hd : (Drift.object j desired desired).changed = false)
    (hf : j.Fits desired) (hs : j.Durable desired) (ho : (j.kind.metadata desired).ownerReferences = none) :
    Lasts S (k.kind.keyAt ns name) I (ensure owner j desired).run := by
  by_cases hkey : k.kind.keyAt ns name = j.kind.keyAt ns' name'
  · obtain ⟨hkind, rfl, rfl⟩ := Kind.keyAt_inj.1 hkey
    cases OwnedKind.kind_injective hkind
    rw [ensure_eq]
    have howners := OwnedKind.owners_owned owner ho
    refine lasts_keeping S hI (key_owned owner hk) (OwnedKind.durable_owned owner hs) howners
      (settles_revision k (changed_owned owner hd)) fun hx => ?_
    rw [← howners]
    exact preserves_revision (OwnedKind.fits_owned owner hf) hx
  · exact .of_writesOnly (writesOnly_ensure owner hk hd) fun hm => hkey (List.mem_singleton.1 hm)

/-- Likewise for an object that is only to exist. -/
theorem lasts_ensureCreated (hk : j.kind.key desired = .ok (ns', name')) (hs : j.Durable desired)
    (ho : (j.kind.metadata desired).ownerReferences = none) :
    Lasts S (k.kind.keyAt ns name) I (ensureCreated owner j.kind desired).run := by
  by_cases hkey : k.kind.keyAt ns name = j.kind.keyAt ns' name'
  · obtain ⟨hkind, rfl, rfl⟩ := Kind.keyAt_inj.1 hkey
    cases OwnedKind.kind_injective hkind
    rw [ensureCreated_eq]
    have howners := OwnedKind.owners_owned owner ho
    refine lasts_keeping S hI (key_owned owner hk) (OwnedKind.durable_owned owner hs) howners (settles_adoption k.kind _)
      fun hx => ?_
    rw [← howners]
    exact preserves_adoption hx
  · exact .of_writesOnly (writesOnly_ensureCreated owner hk) fun hm => hkey (List.mem_singleton.1 hm)

/-- A property that lasts is kept where the pods of the operand are replaced. -/
theorem lasts_restart : Lasts S (k.kind.keyAt ns name) I (Steps.restart ns').run := by
  by_cases hkey : k.kind.keyAt ns name = Kind.deployment.keyAt ns' Names.app
  · obtain ⟨hkind, rfl, rfl⟩ := Kind.keyAt_inj.1 hkey
    cases OwnedKind.kind_injective (k := .deployment) hkind
    intro s hs hi
    change I (S.stored s (Kind.deployment.keyAt ns Names.app)) at hi
    change I (S.stored _ (Kind.deployment.keyAt ns Names.app))
    rcases stored_of_restart S hs ns with hdoc | ⟨j, d, now, v, hj, hx, hdoc⟩
    · rw [hdoc]
      exact hi
    · rw [hj] at hi
      rw [hdoc]
      exact hI.written v hi hx (preserves_stamped _ d now)
  · exact .of_writesOnly (Pass.writesOnly_restart ns') fun hm => hkey (List.mem_singleton.1 hm)

end

/-! ### Steps -/

namespace Pass

variable {ingress : ManagementIngress} {k : OwnedKind} {I : Option Json → Prop}

/-- The parts of steps keep every property of a document that lasts. -/
theorem lasts_parts (hI : Lasting ingress k I) (ns name ns' : String) :
    Parts ingress ns' fun p => Lasts S (k.kind.keyAt ns name) I p where
  done := .done
  bind := .bind
  look r hr := by
    have hw : (Proc.request r).WritesOnly [] := Proc.writesOnly_ask hr.target?_eq_none fun _ => trivial
    exact .of_writesOnly hw List.not_mem_nil
  ensure j desired hd hf := by
    obtain ⟨name', hk⟩ := hd.key
    exact lasts_ensure S hI hk hd.same hf hd.durable hd.unowned
  ensureCreated j desired hd := by
    obtain ⟨name', hk⟩ := hd.key
    exact lasts_ensureCreated S hI hk hd.durable hd.unowned
  restart := lasts_restart S hI

end Pass

end IngressOperator
