import IngressOperator.Control
import IngressOperator.Proofs.Pass.Interleaving
import IngressOperator.Proofs.Pass.Report
import IngressOperator.Proofs.Steps.Permits
import IngressOperator.Proofs.Steps.Told

/-!
# What events tell

A pass publishes nothing itself: the controller tells in events what the pass says that it did. After a pass that ends well there is
one event for each object that was written, in the order in which they were. After a pass that fails there is one that warns of the
failure, and none for the objects that were written before it.

## Main statements

* `Pass.written_run`: a pass that ends well says exactly what it wrote.
* `Control.reconcile_announces`: what is published by a call of the controller.
* `Control.events_dropped`: not every object that was written is told of.
-/

namespace IngressOperator

open SharedStore

/-! ### Events -/

/-- The event that was published in an exchange, with the custom resource that it is about. -/
def Exchange.published? : Exchange → Option (ManagementIngress × Event)
  | ⟨.publish ingress e, _⟩ => some (ingress, e)
  | _ => none

/-- The events that were published in some exchanges, in order. -/
def published (t : List Exchange) : List (ManagementIngress × Event) := t.filterMap Exchange.published?

theorem published_append (t t' : List Exchange) : published (t ++ t') = published t ++ published t' := List.filterMap_append

/-- Whether a request is one for an event to be published. -/
def Request.Publishes : Request → Prop
  | .publish _ _ => True
  | _ => False

/-- Nothing is published where nothing is to be. -/
theorem published_eq_nil {t : List Exchange} (ht : ∀ x ∈ t, ¬ x.request.Publishes) : published t = [] := by
  refine List.filterMap_eq_nil_iff.2 ?_
  intro x hx
  have hn := ht x hx
  obtain ⟨r, answer⟩ := x
  cases r with
  | publish ingress e => exact absurd trivial hn
  | _ => rfl

/-- Of the objects that a pass speaks of, those to which something was done have events, and no others. -/
theorem map_event?_mutations (l : List Synced) : (mutations l).map Synced.event? = (l.filterMap Synced.event?).map some := by
  induction l with
  | nil => rfl
  | cons s l ih =>
    rw [mutations_cons, List.map_append, ih]
    obtain ⟨kind, name, outcome⟩ := s
    cases outcome <;> rfl

/-- The event of an object warns of nothing. -/
theorem type_of_event? {s : Synced} {e : Event} (he : s.event? = some e) : e.type = .normal := by
  obtain ⟨kind, name, outcome⟩ := s
  cases outcome with
  | created =>
    cases he
    rfl
  | updated =>
    cases he
    rfl
  | unchanged => cases he
  | existing => cases he

/-! ### Passes -/

/-- What a pass that ends says that it did. -/
def PassOutcome.synced : PassOutcome → List Synced
  | completed synced => synced
  | requeue _ => []

namespace Pass

variable {setup : Setup} {ingress : ManagementIngress} {w w' : SharedStore} {t : List Exchange}

/-- Reporting a custom resource puts no object. -/
theorem putless_report (ingress : ManagementIngress) (status : IngressStatus) :
    (Proc.request (.updateStatus ingress status)).Putless :=
  Proc.Asks.request id

/-- The part of a pass that knows the host says exactly what it wrote, if it ends well. -/
theorem written_runWithHost {ns host : String} {base : Option String} {before : IngressStatus} {outcome : PassOutcome}
    (hw : w.Sound) (hy : (runWithHost setup ingress ns before host base).Yields Serves w (.ok outcome) t w') :
    written t = mutations outcome.synced := by
  unfold runWithHost at hy
  obtain ⟨announced, t₁, w₁, t', hannounce, hy₁, rfl⟩ := hy.of_bind
  have hnone₁ : written t₁ = [] := (putless_peeks.announceHost (putless_report ingress) _ host).written_eq_nil hannounce
  have hw₁ := hw.yields hannounce
  rcases announced with cause | start
  · obtain ⟨he, -, -⟩ := hy₁.of_done
    cases he
  · obtain ⟨⟨status, result⟩, t₂, w₂, t'', hsteps, hy₂, rfl⟩ := hy₁.of_bind
    rcases result with ⟨kind, cause⟩ | synced
    · obtain ⟨_, _, _, _, -, hdone, -⟩ := hy₂.of_bind
      obtain ⟨he, -, -⟩ := hdone.of_done
      cases he
    · obtain ⟨reported, t₃, w₃, t₄, hfinish, hdone, rfl⟩ := hy₂.of_bind
      have hnone₃ : written t₃ = [] := (putless_peeks.finish (putless_report ingress) start status).written_eq_nil hfinish
      cases reported with
      | error cause =>
        obtain ⟨he, -, -⟩ := hdone.of_done
        cases he
      | ok _ =>
        obtain ⟨he, rfl, -⟩ := hdone.of_done
        cases he
        simp only [written_append, hnone₁, written_runSteps host hw₁ hsteps, hnone₃, List.append_nil, List.nil_append]
        rfl

/-- A pass that ends well says exactly what it wrote, whatever calls were made to fail on the way. -/
theorem written_run {outcome : PassOutcome} (hw : w.Sound) (hy : (run setup ingress).Yields Serves w (.ok outcome) t w') :
    written t = mutations outcome.synced := by
  unfold run at hy
  split at hy
  · obtain ⟨he, -, -⟩ := hy.of_done
    cases he
  · next ns hns =>
    obtain ⟨legacy, t₁, w₁, t', hlegacy, hy₁, rfl⟩ := hy.of_bind
    have hnone₁ : written t₁ = [] := (putless_peeks.removeLegacy (Proc.Asks.request id)).written_eq_nil hlegacy
    have hw₁ := hw.yields hlegacy
    rcases legacy with cause | (_ | _)
    · obtain ⟨he, -, -⟩ := hy₁.of_done
      cases he
    · obtain ⟨resolved, t₂, w₂, t'', hresolve, hy₂, rfl⟩ := hy₁.of_bind
      have hnone₂ : written t₂ = [] := (putless_peeks.resolveHost setup (fun _ => trivial) none).written_eq_nil hresolve
      have hw₂ := hw₁.yields hresolve
      rcases resolved with cause | ⟨host, base⟩
      · obtain ⟨_, _, _, _, -, hdone, -⟩ := hy₂.of_bind
        obtain ⟨he, -, -⟩ := hdone.of_done
        cases he
      · have hrest := written_runWithHost hw₂ hy₂
        simp only [written_append, hnone₁, hnone₂, hrest, List.nil_append]
    · obtain ⟨he, rfl, -⟩ := hy₁.of_done
      cases he
      simp only [written_append, hnone₁, written_nil, List.nil_append]
      rfl

/-- A pass may ask for anything but an event to be published. -/
theorem permits_silent (plan : List Step) (ingress : ManagementIngress) (ns : String) :
    Permits plan True ingress ns fun r => ¬ r.Publishes where
  observe r hr hp := by
    cases r with
    | publish _ _ => exact hr
    | _ => exact hp
  discover _ r hr hp := by
    cases r with
    | publish _ _ => exact hr
    | _ => exact hp
  put _ _ _ _ _ _ := ⟨id, id⟩
  remove := id
  report _ := id

/-- A pass publishes nothing. -/
theorem published_run {result : Except PassFailure PassOutcome} (hw : w.Sound)
    (hy : (run setup ingress).Yields Serves w result t w') : published t = [] := by
  cases hns : ingress.metadata.ns with
  | none =>
    unfold run at hy
    simp only [hns] at hy
    obtain ⟨-, rfl, -⟩ := hy.of_done
    rfl
  | some ns =>
    have hasks := (permits_silent setup.steps ingress ns).entire.run hns (fun _ hm => hm) fun _ => trivial
    have hrun := Proc.Asks.yields (I := Sound) hasks (fun _ hw hs => ⟨hs.sensible hw, hw.serves hs⟩) hw hy
    exact published_eq_nil hrun.2

end Pass

/-! ### The controller -/

/-- A call of the controller has what a pass has, if reading the clock and publishing events have it. -/
theorem Proc.Composes.reconcile {P : {α : Type} → Proc α → Prop} (hP : Proc.Composes P) {setup : Setup} {state : Control.State}
    {ingress : ManagementIngress} (hnow : P (Proc.request .now)) (hpublish : ∀ e : Event, P (Proc.request (.publish ingress e)))
    (hrun : P (Pass.run setup ingress)) : P (Control.reconcile setup state ingress) := by
  have hall (events : List Event) : P (Control.publishAll ingress events) := by
    induction events with
    | nil => exact hP.done _
    | cons e events ih => exact hP.bind (hpublish e) fun _ => ih
  have hserve : P (Control.serve setup ingress) := by
    refine hP.bind hrun fun ended => ?_
    rcases ended with cause | (synced | seconds)
    · exact hP.bind (hall _) fun _ => hP.done _
    · exact hP.bind (hall _) fun _ => hP.done _
    · exact hP.done _
  refine hP.bind hnow fun now => ?_
  dsimp only
  split
  · exact hP.done _
  · exact hP.bind hserve fun _ => hP.done _

namespace Control

variable {ingress : ManagementIngress}

/-- Events are published one after the other, and nothing is written. -/
theorem of_publishAll {events : List Event} {w w' : SharedStore} {u : Unit} {t : List Exchange}
    (hy : (publishAll ingress events).Yields Serves w u t w') :
    published t = events.map (Prod.mk ingress) ∧ written t = [] := by
  induction events generalizing w t with
  | nil =>
    obtain ⟨-, rfl, -⟩ := hy.of_done
    exact ⟨rfl, rfl⟩
  | cons e events ih =>
    unfold publishAll at hy
    obtain ⟨answer, t₁, w₁, t₂, hrequest, hrest, rfl⟩ := hy.of_bind
    obtain ⟨-, rfl⟩ := hrequest.of_request
    obtain ⟨hpublished, hwritten⟩ := ih hrest
    constructor
    · rw [published_append, hpublished]
      rfl
    · rw [written_append, hwritten]
      rfl

/-- What is published about a custom resource when a pass ends so: after one that ended well, the event of each object that was
written; after one that failed, a warning of the failure alone. -/
inductive Announces (ingress : ManagementIngress) (t : List Exchange) : Except PassFailure Next → Prop where
  | done {next : Next} {events : List Event} (hpublished : published t = events.map (Prod.mk ingress))
    (hwritten : (written t).map Synced.event? = events.map some) (hnormal : ∀ e ∈ events, e.type = .normal) :
    Announces ingress t (.ok next)
  | failed {cause : PassFailure} (hpublished : published t = [(ingress, cause.event)]) (hwarning : cause.event.type = .warning) :
    Announces ingress t (.error cause)

/-- Serving a custom resource tells so, whatever calls are made to fail on the way. -/
theorem serve_announces {setup : Setup} {result : Except PassFailure Next} {w w' : SharedStore} {t : List Exchange} (hw : w.Sound)
    (hy : (serve setup ingress).Yields Serves w result t w') : Announces ingress t result := by
  unfold serve at hy
  obtain ⟨ended, t₁, w₁, t₂, hpass, hy₁, rfl⟩ := hy.of_bind
  have hsilent := Pass.published_run hw hpass
  rcases ended with cause | outcome
  · obtain ⟨_, t₃, w₃, t₄, hpublish, hdone, rfl⟩ := hy₁.of_bind
    obtain ⟨rfl, rfl, -⟩ := hdone.of_done
    obtain ⟨hpublished, -⟩ := of_publishAll hpublish
    refine .failed ?_ rfl
    rw [published_append, published_append, hsilent, hpublished]
    rfl
  · have hwritten := Pass.written_run hw hpass
    cases outcome with
    | completed synced =>
      obtain ⟨_, t₃, w₃, t₄, hpublish, hdone, rfl⟩ := hy₁.of_bind
      obtain ⟨rfl, rfl, -⟩ := hdone.of_done
      obtain ⟨hpublished, hnone⟩ := of_publishAll hpublish
      rw [List.append_nil]
      have hall : published (t₁ ++ t₃) = (synced.filterMap Synced.event?).map (Prod.mk ingress) := by
        rw [published_append, hsilent, hpublished, List.nil_append]
      have heach : (written (t₁ ++ t₃)).map Synced.event? = (synced.filterMap Synced.event?).map some := by
        rw [written_append, hwritten, hnone, List.append_nil]
        exact map_event?_mutations synced
      refine .done hall heach ?_
      intro e he
      obtain ⟨s, -, hs⟩ := List.mem_filterMap.1 he
      exact type_of_event? hs
    | requeue seconds =>
      obtain ⟨rfl, rfl, -⟩ := hy₁.of_done
      rw [List.append_nil]
      have hall : published t₁ = ([] : List Event).map (Prod.mk ingress) := hsilent
      have heach : (written t₁).map Synced.event? = ([] : List Event).map some := by
        rw [hwritten]
        rfl
      exact .done hall heach nofun

/-- A call of the controller for a custom resource that is managed and not being deleted, on a store any of whose calls may fail,
tells of every object that it wrote if it ends well; if it fails, it warns of the failure, and tells of nothing that was written
before. -/
theorem reconcile_announces {setup : Setup} {state state' : State} {result : Except PassFailure Next} {w w' : SharedStore}
    {t : List Exchange} (hw : w.Sound) (hdeleting : ingress.isDeleting = false) (hmanaged : ingress.isManaged = true)
    (hy : (reconcile setup state ingress).Yields Serves w (state', result) t w') : Announces ingress t result := by
  unfold reconcile at hy
  obtain ⟨now, t₁, w₁, t₂, hnow, hy₁, rfl⟩ := hy.of_bind
  obtain ⟨hserves, rfl⟩ := hnow.of_request
  simp only [hdeleting, hmanaged, Bool.not_true, Bool.or_false, Bool.false_eq_true, if_false] at hy₁
  obtain ⟨ended, t₃, w₃, t₄, hserve, hdone, rfl⟩ := hy₁.of_bind
  obtain ⟨he, rfl, -⟩ := hdone.of_done
  cases he
  have htells := serve_announces (hw.serves hserves) hserve
  rw [List.append_nil]
  -- reading the clock tells of nothing
  cases htells with
  | done hpublished hwritten hnormal => exact .done hpublished hwritten hnormal
  | failed hpublished hwarning => exact .failed hpublished hwarning

/-! ### On a small cluster -/

open Cluster

/-- What the controller writes over what was read is no custom resource. -/
theorem reconcile_sparing (setup : Setup) (state : State) (ingress : ManagementIngress) :
    (reconcile setup state ingress).Asks (fun _ _ => True) Direct.Sparing := by
  have hpass : (Pass.run setup ingress).Asks (fun _ _ => True) Direct.Sparing :=
    Pass.careful_sparing (Pass.careful_run setup ingress)
  have hpublish (e : Event) : (Proc.request (.publish ingress e)).Asks (fun _ _ => True) Direct.Sparing :=
    Proc.Asks.request trivial
  exact Proc.Asks.composes.reconcile (Proc.Asks.request trivial) hpublish hpass

/-- The controller tells of what it writes on the small cluster. -/
theorem small_reconcile_announces :
    ∃ w', (reconcile Small.setup {} Small.ingress).Yields Serves Pass.smallStore
        ((reconcile Small.setup {} Small.ingress).run Direct.handler Small.cluster).1
        ((reconcile Small.setup {} Small.ingress).trace Direct.handler Small.cluster) w' ∧
      Announces Small.ingress ((reconcile Small.setup {} Small.ingress).trace Direct.handler Small.cluster)
        ((reconcile Small.setup {} Small.ingress).run Direct.handler Small.cluster).1.2 := by
  obtain ⟨w', hy, -⟩ := Direct.yields (reconcile_sparing Small.setup {} Small.ingress) Pass.mirrors_small
  exact ⟨w', hy, reconcile_announces Pass.sound_smallStore rfl rfl hy⟩

/-- Not every object that was written is told of: where a config map cannot be created, the service and the config maps that were
created before it are not. -/
theorem events_dropped :
    ¬ ∀ (setup : Setup) (state : State) (ingress : ManagementIngress) (c : Cluster), ingress.isDeleting = false →
      ingress.isManaged = true →
        ((published ((reconcile setup state ingress).trace Direct.handler c)).filter fun p => p.2.type == .normal).map some =
          (written ((reconcile setup state ingress).trace Direct.handler c)).map fun s => s.event?.map (Prod.mk ingress) := by
  intro hclaim
  have hcounter := congrArg List.length (hclaim Small.setup {} Small.ingress Pass.faultyCluster rfl rfl)
  revert hcounter
  decide +kernel

end Control

end IngressOperator
