import IngressOperator.Proofs.Ensure.Course
import IngressOperator.Proofs.Steps.Pieces

/-!
# Objects that are kept on a store whose calls may fail

Any call of a shared store may fail, and then changes nothing. What keeping an object and replacing the pods of the operand come
to there is one of a few cases, each with the exchanges that led to it.

## Main statements

* `Keeps.of_yields`: what keeping an object comes to, case by case.
* `Restarts.of_yields`: what replacing the pods of the operand comes to.
-/

namespace IngressOperator

open Cluster

namespace SharedStore

variable {w w' : SharedStore} {r : Request} {answer : r.Answer}

/-! ### Requests -/

/-- A request changes no other document than that of the object that it names. -/
theorem Serves.frame (hs : w.Serves r answer w') {key : ObjectKey} (hk : r.target? ≠ some key) :
    w'.stored key = w.stored key := by
  have hput {key' : ObjectKey} {version : String} {j : Json} (ht : r.target? = some key') :
      (w.put key' version j).stored key = w.stored key :=
    stored_put_of_ne version j fun he => hk (he ▸ ht)
  cases hs with
  | found => rfl
  | absent => rfl
  | created hkx => exact hput hkx
  | «exists» => rfl
  | updated hkx => exact hput hkx
  | deleted => exact if_neg fun he => hk (congrArg some he.symm)
  | reported hkx => exact hput hkx
  | unmoved => rfl

/-- A request that asks for nothing to be written changes nothing. -/
theorem Serves.eq_of_looks (hs : w.Serves r answer w') (hr : r.Looks) : w' = w := by
  cases hs with
  | created => exact absurd hr id
  | updated => exact absurd hr id
  | deleted => exact absurd hr id
  | reported => exact absurd hr id
  | _ => rfl

/-- A sound store answers sensibly. -/
theorem Serves.sensible (hs : w.Serves r answer w') (hw : w.Sound) : ObjectStore.Sensible r answer := by
  cases hs with
  | found hj hx =>
    obtain ⟨hns, hname, -⟩ := (hw _ _ hj).1.of_decode? hx
    exact ⟨hns, hname⟩
  | unmoved hu =>
    unfold ObjectStore.Sensible
    split
    · exact absurd hu id
    · trivial
  | _ => trivial

theorem Serves.of_get {k : Kind} {ns name : String} {x : k.Object} (hs : w.Serves (.get k ns name) (.ok (some x)) w') :
    w' = w ∧ ∃ j, w.stored (k.keyAt ns name) = some j ∧ k.decode? j = some x := by
  cases hs with
  | found hj hx => exact ⟨rfl, _, hj, hx⟩
  | unmoved hu => exact absurd hu id

theorem Serves.of_create {k : Kind} {x : k.Object} (hs : w.Serves (.create k x) (.ok .new) w') :
    ∃ key y version, k.objectKey? x = some key ∧ w.stored key = none ∧ k.Completes x y ∧ w.Fresh key version (k.encode y) ∧
      w' = w.put key version (k.encode y) := by
  cases hs with
  | created hk hn hy fresh => exact ⟨_, _, _, hk, hn, hy, fresh, rfl⟩
  | unmoved hu => exact absurd hu id

theorem Serves.of_create_exists {k : Kind} {x : k.Object} (hs : w.Serves (.create k x) (.ok .alreadyExists) w') :
    w' = w ∧ ∃ key j, k.objectKey? x = some key ∧ w.stored key = some j := by
  cases hs with
  | «exists» hk hj => exact ⟨rfl, _, _, hk, hj⟩
  | unmoved hu => exact absurd hu id

theorem Serves.of_update {k : Kind} {x z : k.Object} (hs : w.Serves (.update k x) (.ok z) w') :
    ∃ key version, k.objectKey? x = some key ∧ w.Fresh key version (k.encode (k.withVersion x version)) ∧
      w' = w.put key version (k.encode (k.withVersion x version)) := by
  cases hs with
  | updated hk hj hv fresh => exact ⟨_, _, hk, fresh, rfl⟩
  | unmoved hu => exact absurd hu id

/-- A call that fails changes nothing. -/
theorem Serves.of_update_error {k : Kind} {x : k.Object} {e : Failure} (hs : w.Serves (.update k x) (.error e) w') : w' = w := by
  cases hs with
  | unmoved => rfl

theorem Serves.of_create_error {k : Kind} {x : k.Object} {e : Failure} (hs : w.Serves (.create k x) (.error e) w') : w' = w := by
  cases hs with
  | unmoved => rfl

theorem Serves.of_delete_error {k : Kind} {ns name : String} {e : Failure} (hs : w.Serves (.delete k ns name) (.error e) w') :
    w' = w := by
  cases hs with
  | unmoved => rfl

/-! ### Programs -/

variable {α : Type} {p : Proc α} {a : α} {t : List Exchange}

theorem Sound.yields (hw : w.Sound) (hy : p.Yields Serves w a t w') : w'.Sound := by
  induction hy with
  | done a w => exact hw
  | ask hs hn ih => exact ih (hw.serves hs)

/-- A run leaves the documents that the program may not write, and names no other objects to be changed than those. -/
theorem stored_of_yields {keys : List ObjectKey} (hp : p.WritesOnly keys) (hw : w.Sound) (hy : p.Yields Serves w a t w') :
    (∀ key ∉ keys, w'.stored key = w.stored key) ∧ ∀ x ∈ t, ∀ key, x.request.target? = some key → key ∈ keys := by
  have hrun := Proc.Asks.yields (I := fun w₁ => w₁.Sound ∧ ∀ key ∉ keys, w₁.stored key = w.stored key) hp
    (fun hr hi hs => ⟨hs.sensible hi.1, hi.1.serves hs, fun key hk =>
      (hs.frame fun ht => hk (hr key ht)).trans (hi.2 key hk)⟩) ⟨hw, fun _ _ => rfl⟩ hy
  exact ⟨hrun.1.2, hrun.2⟩

end SharedStore

/-! ### What is written -/

/-- What an exchange wrote: the object that was created or replaced. -/
def Exchange.written? : Exchange → Option Synced
  | ⟨.create k x, .ok .new⟩ => some ⟨k, (k.metadata x).name.getD "", .created⟩
  | ⟨.update k x, .ok _⟩ => some ⟨k, (k.metadata x).name.getD "", .updated⟩
  | _ => none

/-- What some exchanges wrote, in order. -/
def written (t : List Exchange) : List Synced := t.filterMap Exchange.written?

theorem written_append (t t' : List Exchange) : written (t ++ t') = written t ++ written t' := List.filterMap_append

theorem written_nil : written [] = [] := rfl

/-- Whether a request asks for an object to be created or replaced. -/
def Request.Puts : Request → Prop
  | .create _ _ | .update _ _ => True
  | _ => False

/-- Nothing is written where nothing is to be created or replaced. -/
theorem written_eq_nil {t : List Exchange} (ht : ∀ x ∈ t, ¬ x.request.Puts) : written t = [] := by
  refine List.filterMap_eq_nil_iff.2 ?_
  intro x hx
  have hn := ht x hx
  obtain ⟨r, answer⟩ := x
  cases r with
  | create k x => exact absurd trivial hn
  | update k x => exact absurd trivial hn
  | _ => rfl

/-! ### Keeping an object -/

open SharedStore

/-- What keeping an object comes to on a store, with the exchanges on the way and the store as it is then. -/
inductive Keeps (k : Kind) (desired : k.Object) (ns name : String) (revise : k.Object → Option k.Object) (idle : Outcome)
    (w : SharedStore) : Except Failure Synced → List Exchange → SharedStore → Prop where
  | failed {e : Failure} {t : List Exchange} (ht : written t = []) : Keeps k desired ns name revise idle w (.error e) t w
  | created {y : k.Object} {version : String} (hn : w.stored (k.keyAt ns name) = none) (hy : k.Completes desired y) :
    Keeps k desired ns name revise idle w (.ok ⟨k, name, .created⟩) [⟨.create k desired, .ok .new⟩]
      (w.put (k.keyAt ns name) version (k.encode y))
  | left {j : Json} {live : k.Object} (hj : w.stored (k.keyAt ns name) = some j) (hx : k.decode? j = some live)
    (hr : revise live = none) :
    Keeps k desired ns name revise idle w (.ok ⟨k, name, idle⟩)
      [⟨.create k desired, .ok .alreadyExists⟩, ⟨.get k ns name, .ok (some live)⟩] w
  | written {j : Json} {live x z : k.Object} {version : String} (hj : w.stored (k.keyAt ns name) = some j)
    (hx : k.decode? j = some live) (hr : revise live = some x) :
    Keeps k desired ns name revise idle w (.ok ⟨k, name, .updated⟩)
      [⟨.create k desired, .ok .alreadyExists⟩, ⟨.get k ns name, .ok (some live)⟩, ⟨.update k x, .ok z⟩]
      (w.put (k.keyAt ns name) version (k.encode (k.withVersion x version)))

section

variable {w w' : SharedStore} {t : List Exchange} {ns name : String}

/-- What keeping an object comes to, case by case. -/
theorem Keeps.of_yields {k : Kind} {desired : k.Object} {revise : k.Object → Option k.Object} {idle : Outcome}
    {answer : Except Failure Synced} (hw : w.Sound) (hk : k.key desired = .ok (ns, name)) (hr : Settles k desired revise)
    (hy : (keeping k desired revise idle).run.Yields Serves w answer t w') :
    Keeps k desired ns name revise idle w answer t w' := by
  have hkey : k.objectKey? desired = some (k.keyAt ns name) := Kind.objectKey?_eq.2 (Kind.key_eq_ok.1 hk)
  cases KeepingCourse.of_yields hk hy with
  | refused hc =>
    rw [hc.of_create_error]
    exact .failed rfl
  | created hc =>
    obtain ⟨key, y, version, hkey', hn, hcomplete, -, rfl⟩ := hc.of_create
    rw [hkey] at hkey'
    cases hkey'
    exact .created hn hcomplete
  | unread hc hg =>
    obtain ⟨rfl, -⟩ := hc.of_create_exists
    rw [hg.eq_of_looks trivial]
    exact .failed rfl
  | gone hc hg =>
    obtain ⟨rfl, -⟩ := hc.of_create_exists
    rw [hg.eq_of_looks trivial]
    exact .failed rfl
  | left hc hg hrev =>
    obtain ⟨rfl, -⟩ := hc.of_create_exists
    obtain ⟨rfl, j, hj, hx⟩ := hg.of_get
    exact .left hj hx hrev
  | rejected hc hg hrev hu =>
    obtain ⟨rfl, -⟩ := hc.of_create_exists
    obtain ⟨rfl, -⟩ := hg.of_get
    rw [hu.of_update_error]
    exact .failed rfl
  | updated hc hg hrev hu =>
    obtain ⟨rfl, -⟩ := hc.of_create_exists
    obtain ⟨rfl, j, hj, hx⟩ := hg.of_get
    obtain ⟨key, version, hkey', -, rfl⟩ := hu.of_update
    obtain ⟨hns, hname, -⟩ := (hw _ _ hj).1.of_decode? hx
    rw [hr.objectKey? hrev ⟨hns, hname⟩] at hkey'
    cases hkey'
    exact .written hj hx hrev

/-! ### Replacing the pods -/

/-- What replacing the pods of the operand comes to on a store, with the exchanges on the way and the store as it is then. -/
inductive Restarts (ns : String) (w : SharedStore) : List Synced → List Exchange → SharedStore → Prop where
  /-- The deployment cannot be read. -/
  | unread (e : Failure) : Restarts ns w [] [⟨.get .deployment ns Names.app, .error e⟩] w
  | missing (hn : w.stored (Kind.deployment.keyAt ns Names.app) = none) :
    Restarts ns w [] [⟨.get .deployment ns Names.app, .ok none⟩] w
  /-- The deployment cannot be replaced. -/
  | refused {j : Json} {d : Deployment} (hj : w.stored (Kind.deployment.keyAt ns Names.app) = some j)
    (hd : Kind.decode? .deployment j = some d) (now : Instant) (e : Failure) :
    Restarts ns w []
      [⟨.get .deployment ns Names.app, .ok (some d)⟩, ⟨.now, now⟩, ⟨.update .deployment (Steps.stamped d now), .error e⟩] w
  | made {j : Json} {d z : Deployment} {version : String} (hj : w.stored (Kind.deployment.keyAt ns Names.app) = some j)
    (hd : Kind.decode? .deployment j = some d) (now : Instant) :
    Restarts ns w [⟨.deployment, Names.app, .updated⟩]
      [⟨.get .deployment ns Names.app, .ok (some d)⟩, ⟨.now, now⟩, ⟨.update .deployment (Steps.stamped d now), .ok z⟩]
      (w.put (Kind.deployment.keyAt ns Names.app) version
        (Kind.encode .deployment (Kind.withVersion .deployment (Steps.stamped d now) version)))

/-- What replacing the pods of the operand comes to, case by case. -/
theorem Restarts.of_yields {answer : Except Failure (List Synced)} (hw : w.Sound)
    (hy : (Steps.restart ns).run.Yields Serves w answer t w') : ∃ synced, answer = .ok synced ∧ Restarts ns w synced t w' := by
  rw [Steps.run_restart] at hy
  obtain ⟨found, w₁, t₁, hg, hy₁, rfl⟩ := hy.of_ask
  rcases found with e | (_ | d)
  · obtain ⟨rfl, rfl, rfl⟩ := hy₁.of_done
    rw [hg.eq_of_looks trivial]
    exact ⟨[], rfl, .unread e⟩
  · obtain ⟨rfl, rfl, rfl⟩ := hy₁.of_done
    cases hg with
    | absent hn => exact ⟨[], rfl, .missing hn⟩
    | unmoved hu => exact absurd hu id
  · obtain ⟨rfl, j, hj, hd⟩ := hg.of_get
    obtain ⟨now, w₂, t₂, hn, hy₂, rfl⟩ := hy₁.of_ask
    have hw₂ := hn.eq_of_looks trivial
    subst hw₂
    obtain ⟨updated, w₃, t₃, hu, hy₃, rfl⟩ := hy₂.of_ask
    cases updated with
    | error e =>
      obtain ⟨rfl, rfl, rfl⟩ := hy₃.of_done
      rw [hu.of_update_error]
      exact ⟨[], rfl, .refused hj hd now e⟩
    | ok z =>
      obtain ⟨rfl, rfl, rfl⟩ := hy₃.of_done
      obtain ⟨key, version, hkey, -, rfl⟩ := hu.of_update
      obtain ⟨hns, hname, -⟩ := (hw _ _ hj).1.of_decode? hd
      have hdkey : Kind.objectKey? .deployment d = some (Kind.deployment.keyAt ns Names.app) := Kind.objectKey?_eq.2 ⟨hns, hname⟩
      rw [Steps.objectKey?_stamped, hdkey] at hkey
      cases hkey
      exact ⟨[⟨.deployment, Names.app, .updated⟩], rfl, .made hj hd now⟩

end

end IngressOperator
