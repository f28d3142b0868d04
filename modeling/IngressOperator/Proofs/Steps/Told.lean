import IngressOperator.Proofs.Steps.Parts
import IngressOperator.Proofs.Store.Served

/-!
# What steps tell of what they wrote

A step that ends well says what it did to each object. Whatever calls were made to fail on the way, the objects that it says it has
created or updated are those that were created or replaced in its exchanges, in the same order.

## Main statements

* `tells_ensure`, `tells_restart`: an object is said to be written exactly if it was.
* `Pass.tells_runStep`: a step tells of exactly what it wrote.
-/

namespace IngressOperator

open SharedStore

/-! ### Programs that write nothing -/

/-- Whether a program asks for no object to be created or replaced. -/
def Proc.Putless {α : Type} (p : Proc α) : Prop := p.Asks (fun _ _ => True) fun r => ¬ r.Puts

/-- What only looks asks for no object to be created or replaced. -/
theorem putless_peeks : Proc.Peeks True fun p => p.Putless := by
  refine Proc.Asks.peeks ?_ fun _ => ?_
  all_goals
    intro r hr hputs
    cases r with
    | create k x => exact hr
    | update k x => exact hr
    | _ => exact hputs

/-- Such a program writes nothing. -/
theorem Proc.Putless.written_eq_nil {σ α : Type} {R : Serving σ} {p : Proc α} (hp : p.Putless) {a : α} {t : List Exchange}
    {s s' : σ} (hy : p.Yields R s a t s') : written t = [] := by
  have hrun := Proc.Asks.all_yields hp hy
  exact IngressOperator.written_eq_nil hrun

/-! ### Telling -/

/-- What was done to some objects, as far as it wrote something. -/
def mutations (synced : List Synced) : List Synced := synced.filter fun s => s.outcome.mutated

@[simp] theorem mutations_nil : mutations [] = [] := rfl

@[simp] theorem mutations_append (l l' : List Synced) : mutations (l ++ l') = mutations l ++ mutations l' := List.filter_append ..

/-- One thing that was done, and the others. -/
theorem mutations_cons (s : Synced) (l : List Synced) : mutations (s :: l) = mutations [s] ++ mutations l :=
  mutations_append [s] l

/-- Whether an action that ends well on a sound store is related to what it wrote. -/
structure Tells {α : Type} (p : Proc (Except Failure α)) (R : List Synced → α → Prop) : Prop where
  told : ∀ {w w' : SharedStore} {a : α} {t : List Exchange}, w.Sound → p.Yields Serves w (.ok a) t w' → R (written t) a

namespace Tells

variable {α β : Type} {R : List Synced → α → Prop} {R' : List Synced → β → Prop}

theorem done {a : α} (h : R [] a) : Tells (.done (.ok a)) R := by
  constructor
  intro w w' b t _ hy
  obtain ⟨he, rfl, -⟩ := hy.of_done
  cases he
  exact h

/-- An action that goes on tells of what was written in both of its parts. -/
theorem bind {a : Action α} {f : α → Action β} (ha : Tells a.run R)
    (hf : ∀ x l, R l x → Tells (f x).run fun l' y => R' (l ++ l') y) : Tells (a >>= f).run R' := by
  constructor
  intro w w' b t hw hy
  obtain ⟨x, t₁, w₁, t₂, hy₁, hy₂, rfl⟩ := hy.of_action_ok
  rw [written_append]
  exact (hf x _ (ha.told hw hy₁)).told (hw.yields hy₁) hy₂

/-- An action that asks for nothing to be created or replaced writes nothing. -/
theorem of_putless {p : Proc (Except Failure α)} (hp : p.Putless) : Tells p fun l _ => l = [] := by
  constructor
  intro w w' a t _ hy
  exact hp.written_eq_nil hy

/-- After an action that writes nothing, another one tells of what was written. -/
theorem putless_bind {a : Action α} {f : α → Action β} (ha : a.run.Putless) (hf : ∀ x, Tells (f x).run R') :
    Tells (a >>= f).run R' := by
  refine (of_putless ha).bind ?_
  rintro x _ rfl
  exact hf x

end Tells

/-! ### Objects -/

section

variable {ns name : String}

/-- An object that is kept is said to be written exactly if it was. -/
theorem tells_keeping {k : Kind} {desired : k.Object} {revise : k.Object → Option k.Object} {idle : Outcome}
    (hk : k.key desired = .ok (ns, name)) (hr : Settles k desired revise) (hidle : idle.mutated = false) :
    Tells (keeping k desired revise idle).run fun l synced => l = mutations [synced] := by
  constructor
  intro w w' synced t hw hy
  have hname : (k.metadata desired).name = some name := (Kind.key_eq_ok.1 hk).2
  cases Keeps.of_yields hw hk hr hy with
  | created hn hc =>
    change [(⟨k, (k.metadata desired).name.getD "", .created⟩ : Synced)] = _
    rw [hname]
    rfl
  | left hj hx hrev =>
    change [] = _
    simp [mutations, hidle]
  | @written j live x z version hj hx hrev =>
    obtain ⟨-, hlive, -⟩ := (hw _ _ hj).1.of_decode? hx
    have hx' : (k.metadata x).name = some name := (hr.name hrev).trans hlive
    change [(⟨k, (k.metadata x).name.getD "", .updated⟩ : Synced)] = _
    rw [hx']
    rfl

variable {ingress : ManagementIngress}

theorem tells_ensure {k : OwnedKind} {desired : k.kind.Object} (hd : Sought ns k desired) :
    Tells (ensure ingress k desired).run fun l synced => l = mutations [synced] := by
  obtain ⟨name, hk⟩ := hd.key
  rw [ensure_eq]
  exact tells_keeping (key_owned ingress hk) (settles_revision k (changed_owned ingress hd.same)) rfl

theorem tells_ensureCreated {k : OwnedKind} {desired : k.kind.Object} (hd : Sought ns k desired) :
    Tells (ensureCreated ingress k.kind desired).run fun l synced => l = mutations [synced] := by
  obtain ⟨name, hk⟩ := hd.key
  rw [ensureCreated_eq]
  exact tells_keeping (key_owned ingress hk) (settles_adoption k.kind _) rfl

/-- The deployment is said to be updated exactly if its pods were replaced. -/
theorem tells_restart (ns : String) : Tells (Steps.restart ns).run fun l synced => l = mutations synced := by
  constructor
  intro w w' synced t hw hy
  obtain ⟨_, he, hr⟩ := Restarts.of_yields hw hy
  cases he
  cases hr with
  | unread e => rfl
  | missing hn => rfl
  | refused hj hd now e => rfl
  | @made j d z version hj hd now =>
    obtain ⟨-, hlive, -⟩ := (hw _ _ hj).1.of_decode? hd
    have hname : (Kind.metadata .deployment (Steps.stamped d now)).name = some Names.app := hlive
    change [(⟨.deployment, (Kind.metadata .deployment (Steps.stamped d now)).name.getD "", .updated⟩ : Synced)] = _
    rw [hname]
    rfl

end

/-! ### Steps -/

namespace Pass

variable {α β : Type} {setup : Setup} {ingress : ManagementIngress} {ns : String} (host : String)

/-- An action that remembers the base domain and goes on tells of what was written in both of its parts. -/
theorem tells_bind {x : Remembering α} {f : α → Remembering β} {base : Option String} {R : List Synced → α × Option String → Prop}
    {R' : List Synced → β × Option String → Prop} (hx : Tells (x.run base).run R)
    (hf : ∀ a base l, R l (a, base) → Tells ((f a).run base).run fun l' y => R' (l ++ l') y) :
    Tells ((x >>= f).run base).run R' :=
  hx.bind fun y l hl => hf y.1 y.2 l hl

theorem tells_lift {a : Action α} {R : List Synced → α → Prop} (ha : Tells a.run R) (base : Option String) :
    Tells ((liftM a : Remembering α).run base).run fun l y => R l y.1 := by
  refine ha.bind ?_
  intro x l hl
  refine .done ?_
  rw [List.append_nil]
  exact hl

theorem tells_certificates : Tells (Steps.certificates ingress ns host).run fun l synced => l = mutations synced := by
  refine (tells_ensure (sought_certificate rfl rfl)).bind ?_
  rintro service _ rfl
  split
  · refine .done ?_
    simp
  · refine (tells_ensure (sought_certificate rfl rfl)).bind ?_
    rintro route _ rfl
    refine .done ?_
    rw [mutations_cons service [route], List.append_nil]

theorem tells_configMap {desired : ConfigMap} {name : String} (restarts : Bool)
    (hk : Kind.configMap.key desired = .ok (ns, name)) (ho : desired.metadata.ownerReferences = none) :
    Tells (Steps.configMap ingress desired restarts).run fun l synced => l = mutations synced := by
  have hns : desired.metadata.ns = some ns := (Kind.key_eq_ok.1 hk).1
  refine (tells_ensure (sought_configMap hk ho)).bind ?_
  rintro synced _ rfl
  split
  · rw [hns]
    refine (tells_restart ns).bind ?_
    rintro restarted _ rfl
    refine .done ?_
    rw [mutations_cons synced restarted, List.append_nil]
  · refine .done ?_
    simp

theorem tells_config (base : Option String) :
    Tells ((Pass.config setup ingress ns host).run base).run fun l y => l = mutations y.1 := by
  refine tells_bind (tells_lift (tells_configMap true rfl rfl) base) ?_
  rintro own base _ rfl
  refine tells_bind (tells_lift (tells_configMap false rfl rfl) base) ?_
  rintro bind base _ rfl
  refine Tells.putless_bind (putless_peeks.clusterInfo setup (fun _ => trivial) host base) ?_
  intro info
  refine tells_bind (tells_lift (tells_configMap false rfl rfl) _) ?_
  rintro cluster base _ rfl
  refine .done ?_
  simp

theorem tells_publish (proxyHost : String) (material : Option Desired.TlsMaterial) (source : Secret) :
    Tells (Steps.publish ingress ns host proxyHost material source).run fun l synced => l = mutations synced := by
  refine (tells_ensure (sought_clusterCa ns _)).bind ?_
  rintro ca _ rfl
  refine (tells_ensure (sought_route rfl rfl)).bind ?_
  rintro console _ rfl
  refine (tells_ensureCreated (k := .route) (sought_route rfl rfl)).bind ?_
  rintro proxy _ rfl
  refine .done ?_
  rw [mutations_cons ca [console, proxy], mutations_cons console [proxy], List.append_nil]

theorem tells_routes (wait : WaitPolicy) (proxyHost : String) :
    Tells (Steps.routes ingress wait ns host proxyHost).run fun l synced => l = mutations synced := by
  refine Tells.putless_bind (putless_peeks.awaitSecret wait _) ?_
  intro serviceSecret
  refine Tells.putless_bind (putless_peeks.routeMaterial serviceSecret (putless_peeks.awaitSecret wait _)) ?_
  intro found
  exact tells_publish host proxyHost found.1 found.2

theorem tells_clusterCaOnly (wait : WaitPolicy) :
    Tells (Steps.clusterCaOnly ingress wait ns).run fun l synced => l = mutations synced := by
  refine Tells.putless_bind (putless_peeks.awaitSecret wait _) ?_
  intro source
  refine (tells_ensure (sought_clusterCa ns _)).bind ?_
  rintro ca _ rfl
  refine .done ?_
  simp

theorem tells_deployment : Tells (Pass.deployment setup ingress ns host).run fun l synced => l = mutations [synced] := by
  refine Tells.putless_bind (putless_peeks.clusterDomain setup fun _ => trivial) ?_
  intro domain
  refine Tells.putless_bind (putless_peeks.done _) ?_
  intro image
  exact tells_ensure (sought_deployment ingress rfl)

/-- A step that ends well tells of exactly what it wrote. -/
theorem tells_runStep (step : Step) (base : Option String) :
    Tells ((runStep setup ingress ns host step).run base).run fun l y => l = mutations y.1 := by
  cases step with
  | certificates => exact tells_lift (tells_certificates _) base
  | service =>
    refine tells_bind (tells_lift (tells_ensure (sought_service ns)) base) ?_
    rintro synced base _ rfl
    refine .done ?_
    simp
  | config => exact tells_config host base
  | routes =>
    refine Tells.putless_bind (putless_peeks.baseDomain trivial base) ?_
    intro domain
    exact tells_lift (tells_routes _ _ _) _
  | clusterCa => exact tells_lift (tells_clusterCaOnly _) base
  | deployment =>
    refine tells_bind (tells_lift (tells_deployment _) base) ?_
    rintro synced base _ rfl
    refine .done ?_
    simp

/-- Steps that all end well tell together of exactly what they wrote. -/
theorem written_runSteps {steps : List Step} {base : Option String} {status status' : IngressStatus} {synced : List Synced}
    {t : List Exchange} {w w' : SharedStore} (hw : w.Sound)
    (hy : (runSteps setup ingress ns host steps base status).Yields Serves w (status', .ok synced) t w') :
    written t = mutations synced := by
  induction steps generalizing base status status' synced t w with
  | nil =>
    obtain ⟨he, rfl, -⟩ := hy.of_done
    cases he
    rfl
  | cons step rest ih =>
    unfold runSteps at hy
    obtain ⟨ended, t₁, w₁, t', hstep, hy', rfl⟩ := hy.of_bind
    rcases ended with cause | ⟨done, base'⟩
    · obtain ⟨now, t₂, w₂, t₃, -, hdone, rfl⟩ := hy'.of_bind
      obtain ⟨he, -, -⟩ := hdone.of_done
      cases he
    · obtain ⟨now, t₂, w₂, t₃, hnow, hrest, rfl⟩ := hy'.of_bind
      obtain ⟨⟨status₁, result⟩, t₄, w₃, t₅, hsteps, hdone, rfl⟩ := hrest.of_bind
      obtain ⟨he, rfl, rfl⟩ := hdone.of_done
      obtain ⟨hserves, rfl⟩ := hnow.of_request
      have hw₁ := hw.yields hstep
      have hw₂ := hw₁.serves hserves
      cases result with
      | error e => cases he
      | ok later =>
        have hlater := ih hw₂ hsteps
        have hfirst := (tells_runStep host step base).told hw hstep
        have hclock : written [⟨.now, now⟩] = [] := rfl
        cases he
        rw [written_append, written_append, written_append, hfirst, hclock, hlater, List.nil_append, written_nil,
          List.append_nil, mutations_append]

end Pass

end IngressOperator
