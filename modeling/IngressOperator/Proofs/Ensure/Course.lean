import IngressOperator.Proofs.Ensure.Keeping
import IngressOperator.Proofs.Program.Yields
import IngressOperator.Proofs.Store.Shared

/-!
# The course of keeping an object

Keeping an object asks for it to be created, and if there is one of its name for that one and for a revision of it. Whatever the
answers are, it takes one of seven courses, and each ends with what the last answer makes of it.

## Main statements

* `KeepingCourse.of_yields`: keeping an object takes one of these courses, on any store.
* `KeepingCourse.landed`: which write succeeds on the way, and that the answer says so.
-/

namespace IngressOperator

variable {k : Kind} {desired : k.Object} {ns name : String} {revise : k.Object → Option k.Object} {idle : Outcome}

/-! ### Seven courses -/

/-- How keeping an object may go from a state: to which answer, with which exchanges on the way and in which state then. -/
inductive KeepingCourse {σ : Type} (R : Serving σ) (k : Kind) (desired : k.Object) (ns name : String)
    (revise : k.Object → Option k.Object) (idle : Outcome) (s : σ) : Except Failure Synced → List Exchange → σ → Prop where
  | refused {e : Failure} {s' : σ} (hcreate : R s (.create k desired) (.error e) s') :
    KeepingCourse R k desired ns name revise idle s (.error e) [⟨.create k desired, .error e⟩] s'
  | created {s' : σ} (hcreate : R s (.create k desired) (.ok .new) s') :
    KeepingCourse R k desired ns name revise idle s (.ok ⟨k, name, .created⟩) [⟨.create k desired, .ok .new⟩] s'
  | unread {e : Failure} {s₁ s' : σ} (hcreate : R s (.create k desired) (.ok .alreadyExists) s₁)
    (hget : R s₁ (.get k ns name) (.error e) s') :
    KeepingCourse R k desired ns name revise idle s (.error e)
      [⟨.create k desired, .ok .alreadyExists⟩, ⟨.get k ns name, .error e⟩] s'
  | gone {s₁ s' : σ} (hcreate : R s (.create k desired) (.ok .alreadyExists) s₁) (hget : R s₁ (.get k ns name) (.ok none) s') :
    KeepingCourse R k desired ns name revise idle s (.error (.notFound k.name name))
      [⟨.create k desired, .ok .alreadyExists⟩, ⟨.get k ns name, .ok none⟩] s'
  | left {live : k.Object} {s₁ s' : σ} (hcreate : R s (.create k desired) (.ok .alreadyExists) s₁)
    (hget : R s₁ (.get k ns name) (.ok (some live)) s') (hr : revise live = none) :
    KeepingCourse R k desired ns name revise idle s (.ok ⟨k, name, idle⟩)
      [⟨.create k desired, .ok .alreadyExists⟩, ⟨.get k ns name, .ok (some live)⟩] s'
  | rejected {live x : k.Object} {e : Failure} {s₁ s₂ s' : σ} (hcreate : R s (.create k desired) (.ok .alreadyExists) s₁)
    (hget : R s₁ (.get k ns name) (.ok (some live)) s₂) (hr : revise live = some x) (hupdate : R s₂ (.update k x) (.error e) s') :
    KeepingCourse R k desired ns name revise idle s (.error e)
      [⟨.create k desired, .ok .alreadyExists⟩, ⟨.get k ns name, .ok (some live)⟩, ⟨.update k x, .error e⟩] s'
  | updated {live x z : k.Object} {s₁ s₂ s' : σ} (hcreate : R s (.create k desired) (.ok .alreadyExists) s₁)
    (hget : R s₁ (.get k ns name) (.ok (some live)) s₂) (hr : revise live = some x) (hupdate : R s₂ (.update k x) (.ok z) s') :
    KeepingCourse R k desired ns name revise idle s (.ok ⟨k, name, .updated⟩)
      [⟨.create k desired, .ok .alreadyExists⟩, ⟨.get k ns name, .ok (some live)⟩, ⟨.update k x, .ok z⟩] s'

section

variable {σ : Type} {R : Serving σ} {s s' : σ} {answer : Except Failure Synced} {t : List Exchange}

/-- Keeping an object takes one of the courses, whatever its requests are answered. -/
theorem KeepingCourse.of_yields (hk : k.key desired = .ok (ns, name))
    (hy : (keeping k desired revise idle).run.Yields R s answer t s') :
    KeepingCourse R k desired ns name revise idle s answer t s' := by
  rw [run_keeping hk] at hy
  obtain ⟨created, s₁, t₁, hcreate, hy₁, rfl⟩ := hy.of_ask
  rcases created with e | (_ | _)
  · obtain ⟨rfl, rfl, rfl⟩ := hy₁.of_done
    exact .refused hcreate
  · obtain ⟨rfl, rfl, rfl⟩ := hy₁.of_done
    exact .created hcreate
  · obtain ⟨found, s₂, t₂, hget, hy₂, rfl⟩ := hy₁.of_ask
    rcases found with e | (_ | live)
    · obtain ⟨rfl, rfl, rfl⟩ := hy₂.of_done
      exact .unread hcreate hget
    · obtain ⟨rfl, rfl, rfl⟩ := hy₂.of_done
      exact .gone hcreate hget
    · dsimp only at hy₂
      cases hr : revise live with
      | none =>
        rw [hr] at hy₂
        obtain ⟨rfl, rfl, rfl⟩ := hy₂.of_done
        exact .left hcreate hget hr
      | some x =>
        rw [hr, run_writing_some] at hy₂
        obtain ⟨updated, s₃, t₃, hupdate, hy₃, rfl⟩ := hy₂.of_ask
        cases updated with
        | error e =>
          obtain ⟨rfl, rfl, rfl⟩ := hy₃.of_done
          exact .rejected hcreate hget hr hupdate
        | ok z =>
          obtain ⟨rfl, rfl, rfl⟩ := hy₃.of_done
          exact .updated hcreate hget hr hupdate

/-! ### Writes that succeed -/

/-- Whether an exchange is a write that succeeded: something was created, replaced or deleted, or a status was reported. -/
def Exchange.lands : Exchange → Bool
  | ⟨.create _ _, .ok .new⟩ | ⟨.update _ _, .ok _⟩ | ⟨.delete _ _ _, .ok _⟩ | ⟨.updateStatus _ _, .ok _⟩ => true
  | _ => false

/-- A request that is not such a write changes nothing on a shared store. -/
theorem SharedStore.Serves.eq_of_not_lands {w w' : SharedStore} {r : Request} {answer : r.Answer} (hs : w.Serves r answer w')
    (hl : Exchange.lands ⟨r, answer⟩ = false) : w' = w := by
  cases hs with
  | created => cases hl
  | updated => cases hl
  | deleted => cases hl
  | reported => cases hl
  | _ => rfl

/-- What lands on the way: the creation, or an update, or nothing, and the answer says which. -/
theorem KeepingCourse.landed (h : KeepingCourse R k desired ns name revise idle s answer t s') :
    (answer = .ok ⟨k, name, .created⟩ ∧ t.filter Exchange.lands = [⟨.create k desired, .ok .new⟩]) ∨
      (answer = .ok ⟨k, name, .updated⟩ ∧ ∃ x z, t.filter Exchange.lands = [⟨.update k x, .ok z⟩]) ∨
      ((answer = .ok ⟨k, name, idle⟩ ∨ ∃ e, answer = .error e) ∧ t.filter Exchange.lands = []) := by
  cases h with
  | refused => exact .inr (.inr ⟨.inr ⟨_, rfl⟩, rfl⟩)
  | created => exact .inl ⟨rfl, rfl⟩
  | unread => exact .inr (.inr ⟨.inr ⟨_, rfl⟩, rfl⟩)
  | gone => exact .inr (.inr ⟨.inr ⟨_, rfl⟩, rfl⟩)
  | left => exact .inr (.inr ⟨.inl rfl, rfl⟩)
  | rejected => exact .inr (.inr ⟨.inr ⟨_, rfl⟩, rfl⟩)
  | updated => exact .inr (.inl ⟨rfl, _, _, rfl⟩)

end

/-! ### What is in hand -/

/-- An object is kept by writing a revision over what was just read. -/
theorem careful_revising {R : Lookup → Request → Prop} {hand : Option Lookup} (hk : k.key desired = .ok (ns, name))
    (hR : ∀ {live x}, revise live = some x → R ⟨k, ns, name, live⟩ (.update k x)) :
    (keeping k desired revise idle).run.Careful R hand := by
  rw [run_keeping hk]
  refine ⟨nofun, fun created => ?_⟩
  rcases created with e | (_ | _)
  · trivial
  · trivial
  · refine ⟨nofun, fun found => ?_⟩
    rcases found with e | (_ | live)
    · trivial
    · trivial
    · dsimp only
      cases hx : revise live with
      | none => trivial
      | some x =>
        rw [run_writing_some]
        refine ⟨fun _ => ⟨_, rfl, hR hx⟩, fun answer => ?_⟩
        cases answer with
        | error e => trivial
        | ok z => trivial

end IngressOperator
