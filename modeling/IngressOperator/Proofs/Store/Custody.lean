import Mathlib.Logic.Relation
import IngressOperator.Proofs.Store.Served

/-!
# Objects in custody

A program can rely on what it has written as long as nobody else writes there. A custody says for which keys this is so, on a store
that keeps its contract as on one to which other clients write under all other keys. An object that is kept in custody is stored
as it should be when that ends well, and stays so for all that is written elsewhere.

## Main statements

* `Custody.stored_keeping`: an object that was kept is stored, and needs no revision.
* `Custody.Brings.action_bind`: what one action brought about, a later one leaves that writes elsewhere.
-/

namespace IngressOperator

/-! ### Custody -/

/-- What is known of the documents of a store under the keys that are in custody: nobody but the program that runs on it writes
there. -/
structure Custody {σ : Type} (R : Serving σ) where
  /-- The states of which this is known. -/
  Holds : σ → Prop
  /-- The document that is kept under a key. -/
  stored : σ → ObjectKey → Option Json
  /-- The keys that are in custody. -/
  Keeps : ObjectKey → Prop
  holds : ∀ {s r answer s'}, Holds s → R s r answer s' → Holds s'
  sensible : ∀ {s r answer s'}, Holds s → R s r answer s' → ObjectStore.Sensible r answer
  /-- A request changes no other document in custody than that of the object that it names. -/
  frame : ∀ {s r answer s' key}, Holds s → R s r answer s' → Keeps key → r.target? ≠ some key → stored s' key = stored s key
  found : ∀ {s s' k ns name x}, Holds s → R s (.get k ns name) (.ok (some x)) s' → Keeps (k.keyAt ns name) →
    ∃ j, stored s' (k.keyAt ns name) = some j ∧ k.decode? j = some x
  created : ∀ {s s' k x key}, Holds s → R s (.create k x) (.ok .new) s' → k.objectKey? x = some key → Keeps key →
    ∃ y, k.Completes x y ∧ stored s' key = some (k.encode y)
  updated : ∀ {s s' k x z key j live}, Holds s → R s (.update k x) (.ok z) s' → k ≠ .managementIngress →
    k.objectKey? x = some key → Keeps key → stored s key = some j → k.decode? j = some live → k.version live = k.version x →
      ∃ v, stored s' key = some (k.encode (k.withVersion x v))

namespace Proc

variable {σ : Type}

/-- What a handler does. -/
def Handler.serving (h : Handler σ) : Serving σ := fun s r answer s' => h r s = (answer, s')

/-- The way that a program goes on a handler is one that it may go. -/
theorem Goes.yields {α : Type} {h : Handler σ} {p : Proc α} {a : α} {t : List Exchange} {s s' : σ} (hg : p.Goes h s a t s') :
    p.Yields h.serving s a t s' := by
  obtain ⟨hrun, rfl⟩ := hg
  induction p generalizing s with
  | done b =>
    cases hrun
    exact .done _ _
  | ask r next ih => exact .ask (show h r s = ((h r s).1, (h r s).2) from rfl) (ih _ hrun)

end Proc

/-- On a store that keeps its contract every object is in custody. -/
def ObjectStore.custody {σ : Type} {h : Proc.Handler σ} (S : ObjectStore h) : Custody h.serving where
  Holds := S.Holds
  stored := S.stored
  Keeps _ := True
  holds {s r answer s'} hs hr := by
    have hh := S.holds r s hs
    rw [hr] at hh
    exact hh
  sensible {s r answer s'} hs hr := by
    have hh := S.sensible hs r
    rw [hr] at hh
    exact hh
  frame {s r answer s' key} hs hr _ hk := by
    have hf := S.frame r s key hs hk
    rw [hr] at hf
    exact hf
  found {s s' k ns name x} hs hr _ := by
    have hg := S.get s k ns name hs
    have hf := S.stored_of_untargeted (r := .get k ns name) hs rfl (k.keyAt ns name)
    rw [hr] at hg hf
    dsimp only at hg hf
    rw [hf]
    cases hj : S.stored s (k.keyAt ns name) with
    | none =>
      rw [hj] at hg
      cases hg
    | some j =>
      refine ⟨j, rfl, ?_⟩
      rw [hj] at hg
      cases hx : k.decode? j with
      | none =>
        simp only [Kind.reading, hx] at hg
        cases hg
      | some y =>
        simp only [Kind.reading, hx] at hg
        cases hg
        rfl
  created {s s' k x key} hs hr hk _ := by
    cases hj : S.stored s key with
    | none =>
      obtain ⟨-, y, hy, hc⟩ := S.create_absent s k x key hs hk hj
      rw [hr] at hc
      exact ⟨y, hy, hc⟩
    | some j =>
      obtain ⟨ha, -⟩ := S.create_present s k x key j hs hk hj
      rw [hr] at ha
      cases ha
  updated {s s' k x z key j live} hs hr hm hk _ hj hx hv := by
    obtain ⟨-, v, hu⟩ := S.update s k x key j live hs hm hk hj hx hv
    rw [hr] at hu
    exact ⟨v, hu⟩

namespace SharedStore

/-! ### Among other clients -/

/-- How a request is served on a store to which other clients write under all keys but the given ones, any number of times before
the request is. -/
def Amid (keys : List ObjectKey) : Serving SharedStore := fun w r answer w' =>
  ∃ w₁, Relation.ReflTransGen (fun w w₁ => ∃ key, key ∉ keys ∧ w.Interferes key w₁) w w₁ ∧ w₁.Serves r answer w'

variable {keys : List ObjectKey} {w w' : SharedStore}

/-- Another client changes no other document than that under the key under which it writes. -/
theorem Interferes.frame {key key' : ObjectKey} (hi : w.Interferes key w') (hne : key' ≠ key) :
    w'.stored key' = w.stored key' := by
  cases hi with
  | put fresh => exact stored_put_of_ne _ _ hne
  | erase => exact if_neg hne

/-- Other clients leave a store sound, and the documents under whose keys they do not write as they are. -/
theorem frame_interferes (hi : Relation.ReflTransGen (fun w w₁ => ∃ key, key ∉ keys ∧ Interferes w key w₁) w w') (hw : w.Sound) :
    w'.Sound ∧ ∀ key ∈ keys, w'.stored key = w.stored key := by
  induction hi with
  | refl => exact ⟨hw, fun _ _ => rfl⟩
  | tail _ hstep ih =>
    obtain ⟨hw₁, hsame⟩ := ih
    obtain ⟨key, hk, hi⟩ := hstep
    refine ⟨hw₁.interferes hi, ?_⟩
    intro key' hk'
    rw [hi.frame fun he => hk (he ▸ hk'), hsame key' hk']

/-- On a store to which other clients write, the keys under which they do not write are in custody. -/
def custody (keys : List ObjectKey) : Custody (Amid keys) where
  Holds := Sound
  stored w := w.stored
  Keeps key := key ∈ keys
  holds hw hr := by
    obtain ⟨w₁, hi, hs⟩ := hr
    exact (frame_interferes hi hw).1.serves hs
  sensible hw hr := by
    obtain ⟨w₁, hi, hs⟩ := hr
    exact hs.sensible (frame_interferes hi hw).1
  frame hw hr hk hne := by
    obtain ⟨w₁, hi, hs⟩ := hr
    exact (hs.frame hne).trans ((frame_interferes hi hw).2 _ hk)
  found hw hr _ := by
    obtain ⟨w₁, -, hs⟩ := hr
    obtain ⟨rfl, j, hj, hx⟩ := hs.of_get
    exact ⟨j, hj, hx⟩
  created hw hr hk _ := by
    obtain ⟨w₁, -, hs⟩ := hr
    obtain ⟨key', y, version, hk', -, hy, -, rfl⟩ := hs.of_create
    rw [hk] at hk'
    cases hk'
    exact ⟨y, hy, stored_put_self _ _ _ _⟩
  updated hw hr _ hk _ _ _ _ := by
    obtain ⟨w₁, -, hs⟩ := hr
    obtain ⟨key', version, hk', -, rfl⟩ := hs.of_update
    rw [hk] at hk'
    cases hk'
    exact ⟨version, stored_put_self _ _ _ _⟩

end SharedStore

/-! ### Schedules -/

/-- The exchange of a turn of the program's own. -/
def Turn.exchange? : Turn → Option Exchange
  | foreign _ => none
  | own x => some x

/-- The exchanges of a program in some turns of which the latest comes first. -/
def exchanges (turns : List Turn) : List Exchange := turns.reverse.filterMap Turn.exchange?

theorem exchanges_foreign (key : ObjectKey) (turns : List Turn) : exchanges (.foreign key :: turns) = exchanges turns := by
  simp [exchanges, Turn.exchange?]

theorem exchanges_own (x : Exchange) (turns : List Turn) : exchanges (.own x :: turns) = exchanges turns ++ [x] := by
  simp [exchanges, Turn.exchange?]

variable {α : Type} {p q : Proc α} {w w' : SharedStore} {turns : List Turn} {keys : List ObjectKey}

/-- As far as a program has come among other clients, it may go on as from the store before their last writes. -/
theorem Reaches.yields_of_rest (hr : Reaches p w turns q w') (hw : w.Sound) (hforeign : ∀ key ∈ keys, Turn.foreign key ∉ turns) :
    ∃ w₁ : SharedStore, w₁.Sound ∧
      Relation.ReflTransGen (fun w w₁ => ∃ key, key ∉ keys ∧ SharedStore.Interferes w key w₁) w₁ w' ∧
        ∀ a t w₂, q.Yields (SharedStore.Amid keys) w₁ a t w₂ →
          p.Yields (SharedStore.Amid keys) w a (exchanges turns ++ t) w₂ := by
  induction hr with
  | start => exact ⟨w, hw, .refl, fun _ _ _ => id⟩
  | @foreign turns q w₁ w₂ key hr hi ih =>
    obtain ⟨w₀, hw₀, hothers, hrest⟩ := ih fun key hk hm => hforeign key hk (List.mem_cons_of_mem _ hm)
    rw [exchanges_foreign]
    exact ⟨w₀, hw₀, hothers.tail ⟨key, fun hk => hforeign key hk List.mem_cons_self, hi⟩, hrest⟩
  | @own turns r next answer w₁ w₂ hr hs ih =>
    obtain ⟨w₀, hw₀, hothers, hrest⟩ := ih fun key hk hm => hforeign key hk (List.mem_cons_of_mem _ hm)
    refine ⟨w₂, (SharedStore.frame_interferes hothers hw₀).1.serves hs, .refl, ?_⟩
    intro a t w₃ hy
    rw [exchanges_own, List.append_assoc]
    exact hrest a _ w₃ (.ask ⟨w₁, hothers, hs⟩ hy)

/-- A program that comes to its end among other clients may yield what it ends with, and the documents under whose keys these do
not write are as it left them. -/
theorem Reaches.yields {a : α} (hr : Reaches p w turns (.done a) w') (hw : w.Sound)
    (hforeign : ∀ key ∈ keys, Turn.foreign key ∉ turns) :
    ∃ w₁, p.Yields (SharedStore.Amid keys) w a (exchanges turns) w₁ ∧ ∀ key ∈ keys, w'.stored key = w₁.stored key := by
  obtain ⟨w₁, hw₁, hothers, hrest⟩ := hr.yields_of_rest hw hforeign
  have hy := hrest a [] w₁ (.done a w₁)
  rw [List.append_nil] at hy
  exact ⟨w₁, hy, (SharedStore.frame_interferes hothers hw₁).2⟩

/-! ### Programs -/

namespace Custody

variable {σ α β : Type} {R : Serving σ} (C : Custody R)

/-- A run leaves the documents in custody that the program may not write. -/
theorem stored_of_writesOnly {keys : List ObjectKey} {p : Proc α} (hp : p.WritesOnly keys) {a : α} {t : List Exchange} {s s' : σ}
    (hs : C.Holds s) (hy : p.Yields R s a t s') :
    C.Holds s' ∧ ∀ key, C.Keeps key → key ∉ keys → C.stored s' key = C.stored s key := by
  have hrun := Proc.Asks.yields (I := fun s₁ => C.Holds s₁ ∧ ∀ key, C.Keeps key → key ∉ keys → C.stored s₁ key = C.stored s key) hp
    (fun hr hi hq => ⟨C.sensible hi.1 hq, C.holds hi.1 hq, fun key hc hk =>
      (C.frame hi.1 hq hc fun ht => hk (hr key ht)).trans (hi.2 key hc hk)⟩) ⟨hs, fun _ _ _ => rfl⟩ hy
  exact hrun.1

/-- The custody holds as long as a program runs. -/
theorem holds_yields {p : Proc α} {a : α} {t : List Exchange} {s s' : σ} (hs : C.Holds s) (hy : p.Yields R s a t s') :
    C.Holds s' := by
  induction hy with
  | done a s => exact hs
  | ask hr hn ih => exact ih (C.holds hs hr)

/-- An object that was kept is stored, and needs no revision. -/
theorem stored_keeping {k : Kind} {desired : k.Object} {ns name : String} {revise : k.Object → Option k.Object} {idle : Outcome}
    (hm : k ≠ .managementIngress) (hk : k.key desired = .ok (ns, name)) (hr : Settles k desired revise)
    (hc : C.Keeps (k.keyAt ns name)) {s s' : σ} {synced : Synced} {t : List Exchange} (hs : C.Holds s)
    (hy : (keeping k desired revise idle).run.Yields R s (.ok synced) t s') :
    ∃ j x, C.stored s' (k.keyAt ns name) = some j ∧ k.decode? j = some x ∧ revise x = none := by
  have hkey : k.objectKey? desired = some (k.keyAt ns name) := Kind.objectKey?_eq.2 (Kind.key_eq_ok.1 hk)
  cases KeepingCourse.of_yields hk hy with
  | created hcreate =>
    obtain ⟨y, hcomplete, hj⟩ := C.created hs hcreate hkey hc
    exact ⟨_, y, hj, Kind.decode?_encode hm y, hr.created hcomplete⟩
  | left hcreate hget hrev =>
    obtain ⟨j, hj, hx⟩ := C.found (C.holds hs hcreate) hget hc
    exact ⟨j, _, hj, hx, hrev⟩
  | updated hcreate hget hrev hupdate =>
    have hs₁ := C.holds hs hcreate
    obtain ⟨j, hj, hx⟩ := C.found hs₁ hget hc
    have hxk := hr.objectKey? hrev (C.sensible hs₁ hget)
    obtain ⟨v, hv⟩ := C.updated (C.holds hs₁ hget) hupdate hm hxk hc hj hx (hr.version hrev).symm
    exact ⟨_, _, hv, Kind.decode?_encode hm _, hr.written hrev v⟩

/-! ### What is brought about -/

/-- Whether `Q` holds of every value with which a program ends well, if the documents that it leaves under some keys in custody are
the given ones. -/
def Brings (docs : ObjectKey → Option Json) (keys : List ObjectKey) (p : Proc (Except Failure α)) (Q : α → Prop) : Prop :=
  ∀ s a t s', C.Holds s → p.Yields R s (.ok a) t s' → (∀ key ∈ keys, C.Keeps key ∧ C.stored s' key = docs key) → Q a

namespace Brings

variable {C} {docs : ObjectKey → Option Json} {K L M : List ObjectKey} {Q : α → Prop} {T : β → Prop}

theorem done {a : α} (hq : Q a) : C.Brings docs K (.done (.ok a)) Q := by
  intro s a' t s' _ hy _
  obtain ⟨ha, -, -⟩ := hy.of_done
  cases ha
  exact hq

theorem mono {p : Proc (Except Failure α)} (hp : C.Brings docs K p Q) (hk : K ⊆ L) : C.Brings docs L p Q := by
  intro s a t s' hs hy hdocs
  exact hp s a t s' hs hy fun key hm => hdocs key (hk hm)

theorem imp {Q' : α → Prop} {p : Proc (Except Failure α)} (hp : C.Brings docs K p Q) (hq : ∀ a, Q a → Q' a) :
    C.Brings docs K p Q' := by
  intro s a t s' hs hy hdocs
  exact hq a (hp s a t s' hs hy hdocs)

/-- Whatever a program comes to, it brings about what is so anyway. -/
theorem of_true {p : Proc (Except Failure α)} {P : Prop} (hp : P) : C.Brings docs K p fun _ => P :=
  fun _ _ _ _ _ _ _ => hp

/-- What one action brought about, a later one leaves that writes elsewhere. -/
theorem action_bind {a : Action α} {f : α → Action β} (ha : C.Brings docs K a.run Q) (hk : K ⊆ L)
    (hf : ∀ x, Q x → C.Brings docs L (f x).run T) (hw : ∀ x, (f x).run.WritesOnly M) (hd : ∀ key ∈ K, key ∉ M) :
    C.Brings docs L (a >>= f).run T := by
  intro s b t s' hs hy hdocs
  obtain ⟨x, t₁, s₁, t₂, hy₁, hy₂, rfl⟩ := hy.of_action_ok
  have hs₁ := C.holds_yields hs hy₁
  obtain ⟨-, hframe⟩ := C.stored_of_writesOnly (hw x) hs₁ hy₂
  refine hf x (ha s x t₁ s₁ hs hy₁ ?_) s₁ b t₂ s' hs₁ hy₂ hdocs
  intro key hkey
  obtain ⟨hc, hdoc⟩ := hdocs key (hk hkey)
  exact ⟨hc, (hframe key hc (hd key hkey)).symm.trans hdoc⟩

/-- What a later action brings about, it does after whatever an earlier one did. -/
theorem action_after {a : Action α} {f : α → Action β} (hf : ∀ x, C.Brings docs L (f x).run T) :
    C.Brings docs L (a >>= f).run T := by
  intro s b t s' hs hy hdocs
  obtain ⟨x, t₁, s₁, t₂, hy₁, hy₂, rfl⟩ := hy.of_action_ok
  exact hf x s₁ b t₂ s' (C.holds_yields hs hy₁) hy₂ hdocs

/-- An action whose value is only passed on brings about what it brings about. -/
theorem action_map {a : Action α} {f : α → β} (ha : C.Brings docs K a.run Q) (hf : ∀ x, Q x → T (f x)) :
    C.Brings docs K (a >>= fun x => pure (f x)).run T :=
  ha.action_bind (List.Subset.refl K) (fun x hx => done (hf x hx)) (M := []) (fun _ => trivial) fun _ _ => List.not_mem_nil

end Brings

end Custody

end IngressOperator
