import IngressOperator.Proofs.Cluster.Direct
import IngressOperator.Proofs.Pass.Course
import IngressOperator.Proofs.Pass.Owned

/-!
# Deployments that have to go

A deployment that selects its pods by an empty managed-by label cannot be brought to the desired one. The pass that finds it deletes
it and asks to be run again. Nothing that a pass writes makes a deployment such a one, so that no later pass has to do the same, and
no deployment is deleted that was created by a pass.

## Main statements

* `Pass.lasts_run`: a pass leaves no deployment that has to go where there was none.
* `Pass.legacy_course`: what a pass that finds such a deployment does, and nothing else.
* `Pass.upgraded_once`: of passes one after the other, the first one in a namespace may delete its deployment, and no other one.
-/

namespace IngressOperator

/-- Whether a deployment selects its pods by an empty managed-by label. -/
def Deployment.Outdated (d : Deployment) : Prop :=
  ∃ spec labels, d.spec = some spec ∧ spec.selector.matchLabels = some labels ∧ labels.get? Names.managedByLabel = some ""

/-- Such a deployment has to go. -/
theorem isLegacy_iff {d : Deployment} : Desired.isLegacy d = true ↔ d.Outdated := by
  obtain ⟨m, spec, status⟩ := d
  cases spec with
  | none => simp [Desired.isLegacy, Deployment.Outdated]
  | some spec =>
    cases hl : spec.selector.matchLabels with
    | none => simp [Desired.isLegacy, Deployment.Outdated, hl]
    | some labels => simp [Desired.isLegacy, Deployment.Outdated, hl, Option.any_eq_true]

/-- Whether an exchange created the object of a key. -/
def Exchange.Creates (key : ObjectKey) : Exchange → Prop
  | ⟨.create k x, answer⟩ => answer = .ok .new ∧ k.objectKey? x = some key
  | _ => False

/-- Whether an exchange asked for the object of a key to be deleted. -/
def Exchange.Removes (key : ObjectKey) : Exchange → Prop
  | ⟨.delete k ns name, _⟩ => k.keyAt ns name = key
  | _ => False

/-- What asks for an object to be deleted asks for some deletion. -/
theorem Exchange.Removes.deletes {key : ObjectKey} {x : Exchange} (hx : x.Removes key) : x.request.Deletes := by
  obtain ⟨r, answer⟩ := x
  cases r with
  | delete _ _ _ => trivial
  | _ => exact absurd hx id

namespace Pass

/-! ### What lasts -/

/-- Whether a document is of a deployment that has to go. -/
def MustGo (doc : Option Json) : Prop := ∃ d, doc.bind (Kind.decode? .deployment) = some d ∧ d.Outdated

/-- A deployment has to go if the verdict on its document says so. -/
theorem verdict_eq_true {refusal : Kind → Json → Failure} {doc : Option Json} :
    verdict refusal doc = .ok true ↔ MustGo doc := by
  cases doc with
  | none => simp [verdict, MustGo]
  | some j => cases hx : Kind.decode? .deployment j <;> simp [verdict, MustGo, hx, isLegacy_iff]

/-- A deployment that may stay has not to go. -/
theorem MayStay.not_mustGo {doc : Option Json} (h : MayStay doc) : ¬ MustGo doc := by
  rintro ⟨d, hd, ho⟩
  obtain ⟨j, hj, hx⟩ := Option.bind_eq_some_iff.1 hd
  obtain ⟨d', hx', hl⟩ := h j hj
  cases hx.symm.trans hx'
  rw [isLegacy_iff.2 ho] at hl
  cases hl

/-- One that can be read and has not to go may stay. -/
theorem mayStay_of_not_mustGo {j : Json} {d : Deployment} (hx : Kind.decode? .deployment j = some d) (h : ¬ MustGo (some j)) :
    MayStay (some j) := by
  intro j' hj
  cases hj
  refine ⟨d, hx, Bool.eq_false_iff.2 fun hl => h ⟨d, hx, isLegacy_iff.1 hl⟩⟩

/-- Whatever a pass writes, a deployment that has not to go has not to go. -/
theorem lasting_not_mustGo (owner : ManagementIngress) : Lasting owner .deployment fun doc => ¬ MustGo doc where
  created _ hf ho hc := ((lasting_mayStay owner).created (fun _ hj => absurd hj nofun) hf ho hc).not_mustGo
  written v hi hx hp := ((lasting_mayStay owner).written v (mayStay_of_not_mustGo hx hi) hx hp).not_mustGo

section

variable {σ : Type} {h : Proc.Handler σ} (S : ObjectStore h) {setup : Setup} {ingress : ManagementIngress} {ns : String} {s : σ}

/-- The parts of a pass leave no deployment that has to go where there was none. -/
theorem lasts_whole (ingress : ManagementIngress) (ns ns' name : String) :
    Whole ingress ns fun p => Lasts S (Kind.deployment.keyAt ns' name) (fun doc => ¬ MustGo doc) p where
  toParts := lasts_parts S (k := .deployment) (lasting_not_mustGo ingress) ns' name ns
  remove s hs hi := by
    rw [Proc.run_request]
    by_cases hkey : Kind.deployment.keyAt ns Names.app = Kind.deployment.keyAt ns' name
    · rw [← hkey, (S.delete s .deployment ns Names.app hs).2]
      rintro ⟨d, hd, -⟩
      cases hd
    · have hother : Request.target? (.delete .deployment ns Names.app) ≠ some (Kind.deployment.keyAt ns' name) :=
        fun ht => hkey (Option.some.inj ht)
      rw [S.frame _ s _ hs hother]
      exact hi
  report status s hs hi := by
    have hother : Request.target? (.updateStatus ingress status) ≠ some (Kind.deployment.keyAt ns' name) :=
      Kind.objectKey?_ne (k := .managementIngress) (by decide) ingress ns' name
    rw [Proc.run_request, S.frame _ s _ hs hother]
    exact hi

/-- A pass leaves no deployment that has to go where there was none. -/
theorem lasts_run (setup : Setup) (ingress : ManagementIngress) (ns name : String) :
    Lasts S (Kind.deployment.keyAt ns name) (fun doc => ¬ MustGo doc) (run setup ingress) := by
  cases hns : ingress.metadata.ns with
  | none =>
    unfold run
    rw [hns]
    exact .done _
  | some own => exact (lasts_whole S ingress own ns name).run setup hns

/-! ### A pass that finds no such deployment -/

/-- Whether a program deletes nothing where the deployment of the operand has not to go, and leaves it so. -/
def Retains (ns : String) {α : Type} (p : Proc α) : Prop :=
  ∀ s, S.Holds s → ¬ MustGo (S.stored s (Kind.deployment.keyAt ns Names.app)) →
    (∀ x ∈ p.trace h s, ¬ x.request.Deletes) ∧ ¬ MustGo (S.stored (p.run h s).2 (Kind.deployment.keyAt ns Names.app))

variable {S}

theorem Retains.done {α : Type} (a : α) : Retains S ns (.done a) := fun _ _ hi => ⟨fun _ hx => absurd hx List.not_mem_nil, hi⟩

theorem Retains.bind {α β : Type} {p : Proc α} {f : α → Proc β} (hp : Retains S ns p) (hf : ∀ a, Retains S ns (f a)) :
    Retains S ns (p >>= f) := by
  intro s hs hi
  obtain ⟨hdeletes, hi₁⟩ := hp s hs hi
  obtain ⟨hdeletes', hi'⟩ := hf _ _ (S.holds_run p hs) hi₁
  rw [Proc.run_bind, Proc.trace_bind]
  refine ⟨?_, hi'⟩
  intro x hx
  rcases List.mem_append.1 hx with hx | hx
  · exact hdeletes x hx
  · exact hdeletes' x hx

/-- A program retains the deployment that asks for no deletion and leaves none that has to go. -/
theorem Retains.of_asks {α : Type} {p : Proc α} (ha : p.Asks (fun _ _ => True) fun r => ¬ r.Deletes)
    (hl : Lasts S (Kind.deployment.keyAt ns Names.app) (fun doc => ¬ MustGo doc) p) : Retains S ns p := by
  intro s hs hi
  exact ⟨ha.all_trace h s, hl s hs hi⟩

/-- A deployment that has not to go is not removed. -/
theorem retains_removeLegacy (ns : String) : Retains S ns (removeLegacy ns).run := by
  intro s hs hi
  have hg := Proc.Goes.of_run h (removeLegacy ns).run s
  obtain ⟨hv, hsilent⟩ := removeLegacy_goes S ns hs hg
  have hquiet := hsilent fun ht => hi (verdict_eq_true.1 (hv.symm.trans ht))
  obtain ⟨-, hst⟩ := S.stored_of_silent hs hg hquiet
  refine ⟨?_, hst ▸ hi⟩
  intro x hx hd
  refine hquiet x hx ?_
  obtain ⟨r, answer⟩ := x
  cases r with
  | delete _ _ _ => trivial
  | _ => exact absurd hd id

/-- A pass for a custom resource in a namespace retains the deployment there. -/
theorem retains_run (setup : Setup) (hns : ingress.metadata.ns = some ns) : Retains S ns (run setup ingress) := by
  have hlasts := lasts_whole S ingress ns ns Names.app
  have hparts : Parts ingress ns fun p => Retains S ns p :=
    { done := .done
      bind := .bind
      look := fun r hr => .of_asks ((deletes_parts ingress ns).look r hr) (hlasts.look r hr)
      ensure := fun k desired hd hf => .of_asks ((deletes_parts ingress ns).ensure k desired hd hf) (hlasts.ensure k desired hd hf)
      ensureCreated := fun k desired hd =>
        .of_asks ((deletes_parts ingress ns).ensureCreated k desired hd) (hlasts.ensureCreated k desired hd)
      restart := .of_asks (deletes_parts ingress ns).restart hlasts.restart }
  have hentire : Entire setup.steps True ingress ns fun p => Retains S ns p :=
    { hparts.pieces setup.steps with
      legacy := retains_removeLegacy ns
      report := fun status => .of_asks (Proc.Asks.request id) (hlasts.report status) }
  exact hentire.run hns (fun _ hm => hm) fun _ => trivial

/-! ### A pass that finds one -/

/-- What a pass asks for that finds a deployment which has to go. -/
def removal (ns : String) (d : Deployment) : List Exchange :=
  [⟨.get .deployment ns Names.app, .ok (some d)⟩, ⟨.delete .deployment ns Names.app, .ok ()⟩]

/-- A deployment that has to go is read and deleted. -/
theorem goes_removal (hs : S.Holds s) (hgo : MustGo (S.stored s (Kind.deployment.keyAt ns Names.app))) :
    ∃ d s', (removeLegacy ns).run.Goes h s (.ok true) (removal ns d) s' ∧
      S.stored s' (Kind.deployment.keyAt ns Names.app) = none := by
  obtain ⟨d, hd, ho⟩ := hgo
  obtain ⟨j, hj, hx⟩ := Option.bind_eq_some_iff.1 hd
  have hget : (h (.get .deployment ns Names.app) s).1 = .ok (some d) := by
    rw [S.get s .deployment ns Names.app hs, hj, Kind.reading, hx]
  obtain ⟨hdelete, hgone⟩ := S.delete _ .deployment ns Names.app (S.holds (.get .deployment ns Names.app) s hs)
  refine ⟨d, _, ⟨?_, ?_⟩, hgone⟩
  · rw [run_removeLegacy, Proc.run_ask, hget]
    simp only [isLegacy_iff.2 ho, if_true, Proc.run_ask, hdelete, Proc.run_done]
    rfl
  · rw [run_removeLegacy, Proc.trace_ask, hget]
    simp only [isLegacy_iff.2 ho, if_true, Proc.trace_ask, hdelete, Proc.trace_done]
    rfl

/-- A pass that finds such a deployment reads it, deletes it, and asks to be run again. -/
theorem legacy_course (setup : Setup) (hns : ingress.metadata.ns = some ns) (hs : S.Holds s)
    (hgo : MustGo (S.stored s (Kind.deployment.keyAt ns Names.app))) :
    ∃ d s', (run setup ingress).Goes h s (.ok (.requeue 5)) (removal ns d) s' ∧
      S.stored s' (Kind.deployment.keyAt ns Names.app) = none := by
  obtain ⟨d, s', hg, hgone⟩ := goes_removal hs hgo
  exact ⟨d, s', Course.goes hns (.removed hg), hgone⟩

/-- A pass asks to be run again only if there is such a deployment. -/
theorem mustGo_of_requeue (hs : S.Holds s) {seconds : Nat} {t : List Exchange} {s' : σ}
    (hg : (run setup ingress).Goes h s (.ok (.requeue seconds)) t s') :
    ∃ ns, ingress.metadata.ns = some ns ∧ MustGo (S.stored s (Kind.deployment.keyAt ns Names.app)) := by
  cases hns : ingress.metadata.ns with
  | none =>
    unfold run at hg
    rw [hns] at hg
    obtain ⟨hr, -⟩ := hg.of_done
    cases hr
  | some ns =>
    cases Course.of_goes hns hg with
    | removed hl => exact ⟨ns, rfl, verdict_eq_true.1 (removeLegacy_goes S ns hs hl).1.symm⟩

end

/-! ### Passes one after the other -/

/-- A pass for a custom resource that begins in a state. -/
structure Visit (σ : Type) where
  setup : Setup
  ingress : ManagementIngress
  start : σ

namespace Visit

variable {σ : Type} (h : Proc.Handler σ) (v : Visit σ)

/-- What the pass asks for. -/
def trace : List Exchange := (run v.setup v.ingress).trace h v.start

/-- The state that the pass leaves. -/
def finish : σ := ((run v.setup v.ingress).run h v.start).2

/-- Whether the pass asks to be run again. -/
def Requeues : Prop := ∃ seconds, ((run v.setup v.ingress).run h v.start).1 = .ok (.requeue seconds)

end Visit

/-- Passes that are run one after the other on a store that can be used, while nobody else writes the deployments of operands. -/
inductive Undisturbed {σ : Type} {h : Proc.Handler σ} (S : ObjectStore h) : List (Visit σ) → Prop where
  | none : Undisturbed S []
  | last {v : Visit σ} (hs : S.Holds v.start) : Undisturbed S [v]
  | next {v w : Visit σ} {rest : List (Visit σ)} (hs : S.Holds v.start)
    (hsame : ∀ ns, S.stored w.start (Kind.deployment.keyAt ns Names.app) =
      S.stored (v.finish h) (Kind.deployment.keyAt ns Names.app))
    (hrest : Undisturbed S (w :: rest)) : Undisturbed S (v :: w :: rest)

section

variable {σ : Type} {h : Proc.Handler σ} {S : ObjectStore h} {v : Visit σ}

/-- A pass asks to be run again exactly if it finds a deployment that has to go. -/
theorem Visit.requeues_iff (hs : S.Holds v.start) :
    v.Requeues h ↔
      ∃ ns, v.ingress.metadata.ns = some ns ∧ MustGo (S.stored v.start (Kind.deployment.keyAt ns Names.app)) := by
  constructor
  · rintro ⟨seconds, hr⟩
    have hg := Proc.Goes.of_run h (run v.setup v.ingress) v.start
    rw [hr] at hg
    exact mustGo_of_requeue hs hg
  · rintro ⟨ns, hns, hgo⟩
    obtain ⟨d, s', ⟨hr, -⟩, -⟩ := legacy_course v.setup hns hs hgo
    exact ⟨5, congrArg Prod.fst hr⟩

/-- It then deletes that deployment and writes nothing else; otherwise it deletes nothing. -/
theorem Visit.removal_or_retained (hs : S.Holds v.start) :
    (v.Requeues h → ∃ ns d, v.ingress.metadata.ns = some ns ∧ v.trace h = removal ns d) ∧
      (¬ v.Requeues h → ∀ x ∈ v.trace h, ¬ x.request.Deletes) := by
  constructor
  · intro hr
    obtain ⟨ns, hns, hgo⟩ := (requeues_iff hs).1 hr
    obtain ⟨d, s', ⟨-, ht⟩, -⟩ := legacy_course v.setup hns hs hgo
    exact ⟨ns, d, hns, ht⟩
  · intro hr
    cases hns : v.ingress.metadata.ns with
    | none =>
      unfold trace run
      rw [hns]
      exact fun _ hx => absurd hx List.not_mem_nil
    | some ns =>
      exact (retains_run v.setup hns v.start hs fun hgo => hr ((requeues_iff hs).2 ⟨ns, hns, hgo⟩)).1

/-- In its namespace it leaves no deployment that has to go. -/
theorem Visit.finish_not_mustGo (hs : S.Holds v.start) {ns : String} (hns : v.ingress.metadata.ns = some ns) :
    ¬ MustGo (S.stored (v.finish h) (Kind.deployment.keyAt ns Names.app)) := by
  by_cases hgo : MustGo (S.stored v.start (Kind.deployment.keyAt ns Names.app))
  · obtain ⟨d, s', ⟨hr, -⟩, hgone⟩ := legacy_course v.setup hns hs hgo
    have hfinish : v.finish h = s' := congrArg Prod.snd hr
    rw [hfinish, hgone]
    rintro ⟨d, hd, -⟩
    cases hd
  · exact lasts_run S v.setup v.ingress ns Names.app v.start hs hgo

/-- What it creates is in its namespace. -/
theorem Visit.ns_of_creates (hs : S.Holds v.start) {key : ObjectKey} {x : Exchange} (hx : x ∈ v.trace h) (hc : x.Creates key) :
    v.ingress.metadata.ns = some key.ns := by
  obtain ⟨r, answer⟩ := x
  cases r with
  | create k x =>
    cases hns : v.ingress.metadata.ns with
    | none =>
      unfold trace run at hx
      rw [hns] at hx
      exact absurd hx List.not_mem_nil
    | some ns =>
      have hasks := (permits_within v.setup v.ingress ns).entire.run hns (fun _ hm => hm) id
      have hwithin := hasks.trace (I := S.Holds) (fun r s _ hs => ⟨S.sensible hs r, S.holds r s hs⟩) hs _ hx
      obtain ⟨key', hk, hputs⟩ := hwithin
      cases hk.symm.trans hc.2
      rw [ns_of_mem_ownedKeys hputs.owned]
  | _ => exact absurd hc id

/-- If it deletes something, then it asks to be run again, what it deletes is in its namespace, and it creates nothing. -/
theorem Visit.of_removes (hs : S.Holds v.start) {key : ObjectKey} {x : Exchange} (hx : x ∈ v.trace h) (hd : x.Removes key) :
    v.Requeues h ∧ v.ingress.metadata.ns = some key.ns ∧ ∀ y ∈ v.trace h, ∀ created, ¬ y.Creates created := by
  obtain ⟨hremoval, hretained⟩ := removal_or_retained hs
  by_cases hr : v.Requeues h
  · obtain ⟨ns, d, hns, ht⟩ := hremoval hr
    rw [ht] at hx ⊢
    simp only [removal, List.mem_cons, List.not_mem_nil, or_false] at hx
    rcases hx with rfl | rfl
    · exact absurd hd id
    · cases hd
      refine ⟨hr, hns, fun y hy created hc => ?_⟩
      simp only [removal, List.mem_cons, List.not_mem_nil, or_false] at hy
      rcases hy with rfl | rfl <;> exact hc
  · exact absurd hd.deletes (hretained hr x hx)

theorem Undisturbed.holds {visits : List (Visit σ)} (hu : Undisturbed S visits) : ∀ v ∈ visits, S.Holds v.start := by
  induction hu with
  | none => exact fun _ hv => absurd hv List.not_mem_nil
  | last hs => exact List.forall_mem_singleton.2 hs
  | next hs _ _ ih => exact List.forall_mem_cons.2 ⟨hs, ih⟩

/-- A namespace whose deployment has not to go after a pass is left so until the last one. -/
theorem Undisturbed.settled {rest : List (Visit σ)} (hu : Undisturbed S (v :: rest)) {ns : String}
    (hi : ¬ MustGo (S.stored (v.finish h) (Kind.deployment.keyAt ns Names.app))) :
    ∀ w ∈ rest, ¬ MustGo (S.stored w.start (Kind.deployment.keyAt ns Names.app)) := by
  induction rest generalizing v with
  | nil => exact fun _ hw => absurd hw List.not_mem_nil
  | cons w rest ih =>
    cases hu with
    | next hs hsame hrest =>
      have hstart : ¬ MustGo (S.stored w.start (Kind.deployment.keyAt ns Names.app)) := hsame ns ▸ hi
      have hend := lasts_run S w.setup w.ingress ns Names.app w.start (hrest.holds w List.mem_cons_self) hstart
      exact List.forall_mem_cons.2 ⟨hstart, ih hrest hend⟩

/-- After a pass in a namespace, no other one there asks to be run again. -/
theorem Undisturbed.not_requeues {rest : List (Visit σ)} (hu : Undisturbed S (v :: rest)) :
    ∀ w ∈ rest, w.ingress.metadata.ns = v.ingress.metadata.ns → ¬ w.Requeues h := by
  intro w hw hsame hr
  obtain ⟨ns, hns, hgo⟩ := (Visit.requeues_iff (hu.holds w (List.mem_cons_of_mem _ hw))).1 hr
  have hend := Visit.finish_not_mustGo (hu.holds v List.mem_cons_self) (hsame.symm.trans hns)
  exact hu.settled hend w hw hgo

/-- Of passes that are run one after the other while nobody else writes the deployments of operands, each asks to be run again exactly
if it finds a deployment that has to go in its namespace. It then reads and deletes that one and does nothing else; otherwise it
deletes nothing. No pass makes any deployment one that has to go. Only the first pass in a namespace may delete its deployment, and
no deployment is deleted that was created in this pass or an earlier one. -/
theorem upgraded_once {visits : List (Visit σ)} (hu : Undisturbed S visits) :
    (∀ v ∈ visits,
      (v.Requeues h ↔
        ∃ ns, v.ingress.metadata.ns = some ns ∧ MustGo (S.stored v.start (Kind.deployment.keyAt ns Names.app))) ∧
      (v.Requeues h → ∃ ns d, v.ingress.metadata.ns = some ns ∧ v.trace h = removal ns d) ∧
      (¬ v.Requeues h → ∀ x ∈ v.trace h, ¬ x.request.Deletes) ∧
      (∀ ns name, ¬ MustGo (S.stored v.start (Kind.deployment.keyAt ns name)) →
        ¬ MustGo (S.stored (v.finish h) (Kind.deployment.keyAt ns name))) ∧
      ∀ key, (∃ x ∈ v.trace h, x.Creates key) → ∀ x ∈ v.trace h, ¬ x.Removes key) ∧
    visits.Pairwise fun v w =>
      (w.ingress.metadata.ns = v.ingress.metadata.ns → ¬ w.Requeues h ∧ ∀ x ∈ w.trace h, ¬ x.request.Deletes) ∧
      ∀ key, (∃ x ∈ v.trace h, x.Creates key) → ∀ x ∈ w.trace h, ¬ x.Removes key := by
  constructor
  · intro v hv
    have hs := hu.holds v hv
    obtain ⟨hremoval, hretained⟩ := Visit.removal_or_retained hs
    refine ⟨Visit.requeues_iff hs, hremoval, hretained, fun ns name => lasts_run S v.setup v.ingress ns name v.start hs, ?_⟩
    rintro key ⟨x, hx, hc⟩ y hy hd
    obtain ⟨-, -, hcreates⟩ := Visit.of_removes hs hy hd
    exact hcreates x hx key hc
  · induction visits with
    | nil => exact .nil
    | cons v rest ih =>
      have hrest : Undisturbed S rest := by
        cases hu with
        | last hs => exact .none
        | next hs hsame hrest => exact hrest
      have hs := hu.holds v List.mem_cons_self
      refine .cons (fun w hw => ?_) (ih hrest)
      have hw' := hu.holds w (List.mem_cons_of_mem _ hw)
      obtain ⟨hremoval, hretained⟩ := Visit.removal_or_retained hw'
      have hcalm := hu.not_requeues w hw
      refine ⟨fun hsame => ⟨hcalm hsame, hretained (hcalm hsame)⟩, ?_⟩
      rintro key ⟨x, hx, hc⟩ y hy hd
      -- what was created is in the namespace of the one pass, and what is deleted in that of the other
      have hcreated := Visit.ns_of_creates hs hx hc
      obtain ⟨hr, hdeleted, -⟩ := Visit.of_removes hw' hy hd
      exact hcalm (hdeleted.trans hcreated.symm) hr

end

open Cluster

namespace Outdated

/-- A deployment of the operand that selects its pods by an empty label. -/
def workload : Deployment where
  metadata := { name := some Names.app, ns := some "ns", resourceVersion := some "3" }
  spec := some { selector := { matchLabels := some (.ofList [(Names.managedByLabel, "")]) } }

/-- The small cluster with it. -/
def cluster : Cluster :=
  { Small.cluster with
    objects := Small.cluster.objects.put (Kind.deployment.keyAt "ns" Names.app) (Kind.encode .deployment workload)
    version := 3 }

theorem calm : cluster.Calm {} := Small.calm.put (filed_encode rfl rfl rfl) 3 {}

/-- The deployment there has to go. -/
theorem mustGo : MustGo ((Direct.store {}).stored cluster (Kind.deployment.keyAt "ns" Names.app)) := by
  have hstored : (Direct.store {}).stored cluster (Kind.deployment.keyAt "ns" Names.app) =
      some (Kind.encode .deployment workload) := by
    change cluster.objects.get? _ = _
    rw [cluster, Objects.get?_put, if_pos rfl]
  rw [hstored]
  exact ⟨workload, Kind.decode?_encode (k := .deployment) nofun workload, _, _, rfl, rfl, by decide⟩

end Outdated

open Outdated in
/-- Of two passes over that cluster, the first one deletes the deployment and asks to be run again, and the second one does
neither. -/
theorem outdated_upgraded_once :
    let first : Visit Cluster := ⟨Small.setup, Small.ingress, cluster⟩
    let second : Visit Cluster := ⟨Small.setup, Small.ingress, first.finish Direct.handler⟩
    first.Requeues Direct.handler ∧ (∃ d, first.trace Direct.handler = removal "ns" d) ∧ ¬ second.Requeues Direct.handler ∧
      ∀ x ∈ second.trace Direct.handler, ¬ x.request.Deletes := by
  intro first second
  have hfinish : (Direct.store {}).Holds (first.finish Direct.handler) := (Direct.store {}).holds_run _ calm
  have hu : Undisturbed (Direct.store {}) [first, second] := .next calm (fun _ => rfl) (.last hfinish)
  obtain ⟨heach, hlater⟩ := upgraded_once hu
  obtain ⟨hiff, hremoval, -⟩ := heach first List.mem_cons_self
  have hfirst := hiff.2 ⟨"ns", rfl, mustGo⟩
  obtain ⟨ns, d, hns, ht⟩ := hremoval hfirst
  cases hns
  obtain ⟨hsecond, -⟩ := List.rel_of_pairwise_cons hlater List.mem_cons_self
  exact ⟨hfirst, ⟨d, ht⟩, hsecond rfl⟩

end Pass

end IngressOperator
