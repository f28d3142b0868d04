import IngressOperator.Proofs.Ensure.Keeping
import IngressOperator.Steps

/-!
# Objects that are the same but for what is passed over

Two objects are compared after what is passed over has been taken out of them: always the version, and what else a `Blur` says. A
revision goes by none of it, so that objects that are the same but for it are revised to such objects again.

## Main statements

* `Blur.revision_congr`, `Blur.adoption_congr`: objects that are the same but for what is passed over are revised alike.
* `Blur.Same.stamped`: the time of a change is noted on them alike.
-/

namespace IngressOperator

/-- What is passed over when objects are compared, besides their versions. -/
structure Blur where
  /-- The identity that the server gives. -/
  identity : Bool := false
  /-- What else only the server gives: when an object was created, how often it was changed, and the address of a service. -/
  given : Bool := false
  /-- What clocks have told: the time of a change that is noted on the pods of a deployment, and those in a status. -/
  note : Bool := false
  /-- The private key of a route. -/
  key : Bool := false
deriving DecidableEq

/-- Metadata whose note of the time of a change, if there is one, tells no time. -/
def Meta.timeless (m : Meta) : Meta :=
  { m with
    annotations := m.annotations.map fun a =>
      if (a.get? Names.configUpdated).isSome then a.insert Names.configUpdated "" else a }

/-- A status whose conditions tell no times. -/
def IngressStatus.timeless (s : IngressStatus) : IngressStatus :=
  { s with conditions := s.conditions.mapValues fun cs => cs.map fun c => { c with lastTransitionTime := default } }

/-- A custom resource with a timeless status; one that is absent counts as an empty one. -/
def ManagementIngress.timeless (i : ManagementIngress) : ManagementIngress :=
  { i with status := some (i.status.getD {}).timeless }

/-- A deployment with timeless metadata of its pods. -/
def Deployment.timeless (d : Deployment) : Deployment :=
  { d with
    spec := d.spec.map fun spec =>
      { spec with template := { spec.template with metadata := spec.template.metadata.map Meta.timeless } } }

/-- A service without the addresses that the server gives it; a specification that is absent counts as an empty one. -/
def Service.unaddressed (x : Service) : Service :=
  { x with spec := some { x.spec.getD {} with clusterIP := none, clusterIPs := none } }

/-- A route without its private key. -/
def Route.keyless (x : Route) : Route := { x with spec := { x.spec with tls := x.spec.tls.map fun tls => { tls with key := "" } } }

namespace Blur

variable (b : Blur)

/-- Metadata without what is passed over. -/
def metadata (m : Meta) : Meta :=
  { m with
    creationTimestamp := if b.given then none else m.creationTimestamp
    generation := if b.given then none else m.generation
    resourceVersion := none
    selfLink := if b.given then none else m.selfLink
    uid := if b.identity then none else m.uid }

/-- An object without what is passed over besides its metadata. -/
def content : (k : Kind) → k.Object → k.Object
  | .managementIngress, i => if b.note then ManagementIngress.timeless i else i
  | .service, x => if b.given then Service.unaddressed x else x
  | .deployment, d => if b.note then Deployment.timeless d else d
  | .route, x => if b.key then Route.keyless x else x
  | _, x => x

/-- An object without what is passed over. -/
def object (k : Kind) (x : k.Object) : k.Object := k.withMetadata (b.content k x) (b.metadata (k.metadata x))

/-- Whether two objects are the same but for what is passed over. -/
def Same (k : Kind) (x y : k.Object) : Prop := b.object k x = b.object k y

variable {b} {k : Kind} {x y z : k.Object}

theorem Same.refl (x : k.Object) : b.Same k x x := rfl

theorem Same.symm (hs : b.Same k x y) : b.Same k y x := Eq.symm hs

theorem Same.trans (hs : b.Same k x y) (hs' : b.Same k y z) : b.Same k x z := Eq.trans hs hs'

/-! ### Metadata -/

theorem metadata_object (x : k.Object) : k.metadata (b.object k x) = b.metadata (k.metadata x) :=
  Kind.metadata_withMetadata _ _ _

/-- Objects that are the same but for what is passed over have such metadata. -/
theorem Same.metadata (hs : b.Same k x y) : b.metadata (k.metadata x) = b.metadata (k.metadata y) := by
  rw [← metadata_object, ← metadata_object]
  exact congrArg k.metadata hs

theorem Same.ownerReferences (hs : b.Same k x y) :
    (k.metadata x).ownerReferences = (k.metadata y).ownerReferences := by
  have ho := congrArg Meta.ownerReferences hs.metadata
  exact ho

/-- Objects that are the same but for what is passed over belong under the same key. -/
theorem Same.objectKey? (hs : b.Same k x y) : k.objectKey? x = k.objectKey? y := by
  have hns := congrArg Meta.ns hs.metadata
  have hname := congrArg Meta.name hs.metadata
  have hgenerated := congrArg Meta.generateName hs.metadata
  change (k.metadata x).ns = (k.metadata y).ns at hns
  change (k.metadata x).name = (k.metadata y).name at hname
  change (k.metadata x).generateName = (k.metadata y).generateName at hgenerated
  simp only [Kind.objectKey?, Kind.key, hns, hname, Meta.shownName, hgenerated]

theorem withMetadata_withMetadata (k : Kind) (x : k.Object) (m m' : Meta) :
    k.withMetadata (k.withMetadata x m) m' = k.withMetadata x m' := by
  cases k <;> rfl

theorem content_withMetadata (k : Kind) (x : k.Object) (m : Meta) :
    b.content k (k.withMetadata x m) = k.withMetadata (b.content k x) m := by
  cases k with
  | managementIngress =>
    simp only [content]
    split <;> rfl
  | service =>
    simp only [content]
    split <;> rfl
  | deployment =>
    simp only [content]
    split <;> rfl
  | route =>
    simp only [content]
    split <;> rfl
  | _ => rfl

theorem object_withMetadata (k : Kind) (x : k.Object) (m : Meta) :
    b.object k (k.withMetadata x m) = k.withMetadata (b.content k x) (b.metadata m) := by
  rw [object, content_withMetadata, withMetadata_withMetadata, Kind.metadata_withMetadata]

/-- The contents of objects that are the same but for what is passed over. -/
theorem Same.content (hs : b.Same k x y) (m : Meta) :
    k.withMetadata (b.content k x) m = k.withMetadata (b.content k y) m := by
  have hc := congrArg (k.withMetadata · m) hs
  simp only [object, withMetadata_withMetadata] at hc
  exact hc

/-- If nothing is passed over but metadata, they are equal once these are filled up. -/
theorem Same.filled (hs : b.Same k x y) (hb : ∀ z : k.Object, b.content k z = z) (fill : Meta → Meta)
    (hfill : ∀ m, fill (b.metadata m) = fill m) :
    k.withMetadata x (fill (k.metadata x)) = k.withMetadata y (fill (k.metadata y)) := by
  have hobject := hs.content (fill (k.metadata x))
  rw [hb, hb] at hobject
  rw [hobject, ← hfill (k.metadata x), hs.metadata, hfill]

/-- They stay the same with other metadata that are. -/
theorem Same.withMetadata (hs : b.Same k x y) {m m' : Meta} (hm : b.metadata m = b.metadata m') :
    b.Same k (k.withMetadata x m) (k.withMetadata y m') := by
  rw [Same, object_withMetadata, object_withMetadata, hm]
  exact hs.content _

/-- An object is the same as another version. -/
theorem same_withVersion (x : k.Object) (version : String) : b.Same k (k.withVersion x version) x := by
  rw [Same, Kind.withVersion, object_withMetadata]
  rfl

/-- Objects that are the same but for what is passed over are so as other versions. -/
theorem Same.withVersion (hs : b.Same k x y) (version version' : String) :
    b.Same k (k.withVersion x version) (k.withVersion y version') :=
  (same_withVersion x version).trans (hs.trans (same_withVersion y version').symm)

/-! ### Owners -/

/-- Objects that are the same but for what is passed over take over owners alike. -/
theorem adopts_congr (hs : b.Same k x y) (desired : k.Object) : adopts k x desired = adopts k y desired :=
  IngressOperator.adopts_congr hs.ownerReferences desired

theorem Same.withOwners (hs : b.Same k x y) (refs : List OwnerReference) :
    b.Same k (k.withOwners x refs) (k.withOwners y refs) := by
  refine hs.withMetadata ?_
  have hm := congrArg (fun m => { m with ownerReferences := some refs }) hs.metadata
  exact hm

/-- Objects that are the same but for what is passed over are so with the custom resource as their owner. -/
theorem Same.owned (hs : b.Same k x y) (owner : ManagementIngress) :
    b.Same k (IngressOperator.owned owner k x) (IngressOperator.owned owner k y) := by
  unfold IngressOperator.owned
  split
  · exact hs.withOwners _
  · exact hs

theorem Same.adopted (hs : b.Same k x y) (desired : k.Object) :
    b.Same k (IngressOperator.adopted k x desired) (IngressOperator.adopted k y desired) := by
  unfold IngressOperator.adopted
  rw [adopts_congr hs desired]
  split
  · exact hs.withOwners _
  · exact hs

/-! ### Merging -/

/-- The note of the time of a change is neither compared nor taken over. -/
theorem deployment_timeless (live desired : Deployment) :
    Drift.deployment live.timeless desired =
      ⟨(Drift.deployment live desired).merged.timeless, (Drift.deployment live desired).changed⟩ := by
  obtain ⟨metadata, spec, status⟩ := live
  cases spec with
  | none =>
    simp only [Drift.deployment, Deployment.timeless]
    split
    · rfl
    · split <;> rfl
  | some spec =>
    simp only [Drift.deployment, Deployment.timeless]
    split
    · rfl
    · split <;> rfl

/-- Nor are the addresses of a service. -/
theorem service_unaddressed (live desired : Service) :
    Drift.service live.unaddressed desired =
      ⟨(Drift.service live desired).merged.unaddressed, (Drift.service live desired).changed⟩ := by
  simp only [Drift.service, Service.unaddressed, Option.getD_some]
  split <;> rfl

/-- What is passed over in the content is neither compared nor taken over, unless it is the private key of a route. -/
theorem object_content {k : OwnedKind} (hk : k = .route → b.key = false) (live desired : k.kind.Object) :
    Drift.object k (b.content k.kind live) desired =
      ⟨b.content k.kind (Drift.object k live desired).merged, (Drift.object k live desired).changed⟩ := by
  cases k with
  | service =>
    cases hg : b.given with
    | true =>
      simp only [OwnedKind.kind, content, hg, if_true]
      exact service_unaddressed live desired
    | false =>
      simp only [OwnedKind.kind, content, hg, Bool.false_eq_true, if_false]
      rfl
  | deployment =>
    cases hn : b.note with
    | true =>
      simp only [OwnedKind.kind, content, hn, if_true]
      exact deployment_timeless live desired
    | false =>
      simp only [OwnedKind.kind, content, hn, Bool.false_eq_true, if_false]
      rfl
  | route =>
    simp only [OwnedKind.kind, content, hk rfl]
    rfl
  | _ => rfl

/-- Objects that are the same but for what is passed over differ alike from a desired one, and become the same but for that. -/
theorem Same.merged {k : OwnedKind} {x y : k.kind.Object} (hs : b.Same k.kind x y) (hk : k = .route → b.key = false)
    (desired : k.kind.Object) :
    (Drift.object k x desired).changed = (Drift.object k y desired).changed ∧
      b.Same k.kind (Drift.object k x desired).merged (Drift.object k y desired).merged := by
  have hdrift (z : k.kind.Object) :
      Drift.object k (b.object k.kind z) desired =
        ⟨b.object k.kind (Drift.object k z desired).merged, (Drift.object k z desired).changed⟩ := by
    have hdrift := Drift.object_live_withMetadata k (b.content k.kind z) desired (b.metadata (k.kind.metadata z))
    rw [object_content hk] at hdrift
    rw [object, object, Drift.metadata_merged, hdrift]
  have hsame := (hdrift x).symm.trans ((congrArg (Drift.object k · desired) hs).trans (hdrift y))
  obtain ⟨hmerged, hchanged⟩ := Drift.mk.inj hsame
  exact ⟨hchanged, hmerged⟩

/-! ### Revisions -/

variable (b) in
/-- How two objects are revised that are the same but for what is passed over: alike, or one of them only in the private key of a
route. -/
inductive Revised (k : Kind) (x y : k.Object) : Option k.Object → Option k.Object → Prop where
  | idle : Revised k x y none none
  | both {x' y' : k.Object} (hs : b.Same k x' y') : Revised k x y (some x') (some y')
  | left {x' : k.Object} (hb : b.key = true) (hs : b.Same k x' y) : Revised k x y (some x') none
  | right {y' : k.Object} (hb : b.key = true) (hs : b.Same k x y') : Revised k x y none (some y')

/-- Objects that are the same but for what is passed over are brought to a desired one alike. -/
theorem revision_congr {k : OwnedKind} {x y : k.kind.Object} (hs : b.Same k.kind x y) (hk : k = .route → b.key = false)
    (desired : k.kind.Object) : b.Revised k.kind x y (revision k desired x) (revision k desired y) := by
  obtain ⟨hchanged, hmerged⟩ := hs.merged hk desired
  unfold revision
  dsimp only
  rw [hchanged, adopts_congr hmerged desired]
  split
  · exact .both (hmerged.adopted desired)
  · exact .idle

/-- They take over the owners of a desired one alike. -/
theorem adoption_congr (hs : b.Same k x y) (desired : k.Object) :
    b.Revised k x y (adoption k desired x) (adoption k desired y) := by
  unfold adoption
  rw [adopts_congr hs desired]
  split
  · exact .both (hs.adopted desired)
  · exact .idle

/-! ### Private keys -/

/-- Routes that are the same but for their private keys are so member by member. -/
theorem same_route_iff (hb : b.key = true) {x y : Route} :
    b.Same .route x y ↔ b.metadata x.metadata = b.metadata y.metadata ∧ x.keyless.spec = y.keyless.spec := by
  have hobject (z : Route) : b.object .route z = { metadata := b.metadata z.metadata, spec := z.keyless.spec } := by
    simp only [object, content, hb]
    rfl
  rw [Same, hobject x, hobject y, Route.mk.injEq]

/-- A route that does not differ from a desired one is left as it is. -/
theorem route_merged_eq_self {live desired : Route} (hc : (Drift.route live desired).changed = false) :
    (Drift.route live desired).merged = live := by
  simp only [Drift.route, Bool.not_eq_false', Bool.and_eq_true, beq_iff_eq] at hc ⊢
  obtain ⟨⟨⟨hhost, hkind, hname⟩, hport⟩, htls⟩ := hc
  simp only [← hhost, ← hport, ← htls, hkind, hname, beq_self_eq_true, Bool.and_self, Drift.keep, if_true]

/-- Routes are brought to desired ones that are the same but for the private key, and are so then. -/
theorem route_merged_keyless (hb : b.key = true) {x y desired desired' : Route} (hs : b.Same .route x y)
    (hd : b.Same .route desired desired') :
    b.Same .route (Drift.route x desired).merged (Drift.route y desired').merged := by
  obtain ⟨hm, hspec⟩ := (same_route_iff hb).1 hs
  obtain ⟨-, hspec'⟩ := (same_route_iff hb).1 hd
  refine (same_route_iff hb).2 ⟨hm, ?_⟩
  obtain ⟨mx, hostx, targetx, portx, tlsx, wildx, extrax⟩ := x
  obtain ⟨my, hosty, targety, porty, tlsy, wildy, extray⟩ := y
  simp only [Route.keyless, RouteSpec.mk.injEq] at hspec hspec'
  obtain ⟨-, rfl, -, -, rfl, rfl⟩ := hspec
  obtain ⟨hhost, htarget, hport, htls, -, -⟩ := hspec'
  simp only [Drift.route, Route.keyless, hhost, htarget, hport, htls]

/-- Routes that are the same but for the private key are brought to desired ones that are, each as it differs. -/
theorem revision_keyless (hb : b.key = true) {x y desired desired' : Route} (hs : b.Same .route x y)
    (hd : b.Same .route desired desired') : b.Revised .route x y (revision .route desired x) (revision .route desired' y) := by
  have hmerged := route_merged_keyless hb hs hd
  have howners : Kind.owners .route desired = Kind.owners .route desired' := by
    simp only [Kind.owners, hd.ownerReferences]
  have hadopts : adopts .route (Drift.route x desired).merged desired = adopts .route (Drift.route y desired').merged desired' := by
    rw [adopts_congr hmerged desired, adopts, adopts, howners]
  have hadopted : b.Same .route (IngressOperator.adopted .route (Drift.route x desired).merged desired)
      (IngressOperator.adopted .route (Drift.route y desired').merged desired') := by
    unfold IngressOperator.adopted
    rw [hadopts, howners]
    split
    · exact hmerged.withOwners _
    · exact hmerged
  have hleft {live want : Route} (ha : adopts .route (Drift.route live want).merged want = false) :
      IngressOperator.adopted .route (Drift.route live want).merged want = (Drift.route live want).merged := by
    rw [IngressOperator.adopted, ha]
    rfl
  change b.Revised .route x y
    (if (Drift.route x desired).changed || adopts .route (Drift.route x desired).merged desired then
      some (IngressOperator.adopted .route (Drift.route x desired).merged desired) else none)
    (if (Drift.route y desired').changed || adopts .route (Drift.route y desired').merged desired' then
      some (IngressOperator.adopted .route (Drift.route y desired').merged desired') else none)
  cases ha : adopts .route (Drift.route y desired').merged desired' with
  | true =>
    rw [hadopts, ha, Bool.or_true, Bool.or_true, if_pos rfl, if_pos rfl]
    exact .both hadopted
  | false =>
    rw [hadopts, ha, Bool.or_false, Bool.or_false, hleft ha, hleft (hadopts.trans ha)]
    -- where only one of them differs, the other is as it would have become
    cases hx : (Drift.route x desired).changed <;> cases hy : (Drift.route y desired').changed
    · exact .idle
    · exact .right hb ((congrArg (b.object .route) (route_merged_eq_self hx)).symm.trans hmerged)
    · exact .left hb (hmerged.trans (congrArg (b.object .route) (route_merged_eq_self hy)))
    · exact .both hmerged

/-! ### Deployments -/

/-- Whichever time is noted in metadata, and was noted there before, is passed over where no times are told. -/
theorem timeless_noted (m : Meta) (v v' : String) :
    Meta.timeless { m with annotations := some ((m.annotations.getD ∅).insert Names.configUpdated v) } =
      Meta.timeless { m.timeless with annotations := some ((m.timeless.annotations.getD ∅).insert Names.configUpdated v') } := by
  have hinsert (a : Dict String) (w w' : String) :
      (a.insert Names.configUpdated w).insert Names.configUpdated w' = a.insert Names.configUpdated w' := by
    refine SortedMap.ext_get? fun key => ?_
    simp only [SortedMap.get?_insert]
    split <;> rfl
  have hannotations : (m.annotations.getD ∅).insert Names.configUpdated "" =
      (m.timeless.annotations.getD ∅).insert Names.configUpdated "" := by
    cases ha : m.annotations with
    | none => simp [Meta.timeless, ha]
    | some a =>
      simp only [Meta.timeless, ha, Option.map_some, Option.getD_some]
      split
      · exact (hinsert a "" "").symm
      · rfl
  simp only [Meta.timeless, Option.map_some, SortedMap.get?_insert_self, Option.isSome_some, if_true, hinsert, hannotations]

/-- Likewise on a deployment. -/
theorem timeless_stamped (d : Deployment) (now now' : Instant) :
    (Steps.stamped d now).timeless = (Steps.stamped d.timeless now').timeless := by
  have hnoted (m : Meta) := timeless_noted m (Rfc2822.encode now) (Rfc2822.encode now')
  obtain ⟨metadata, spec, status⟩ := d
  cases spec with
  | none =>
    exact congrArg (fun m => (⟨metadata, some { template := { metadata := some m } }, status⟩ : Deployment)) (hnoted {})
  | some spec =>
    cases hm : spec.template.metadata with
    | none =>
      have hn := congrArg
        (fun m => (⟨metadata, some { spec with template := { spec.template with metadata := some m } }, status⟩ : Deployment))
        (hnoted {})
      simp only [Steps.stamped, Deployment.timeless, Option.getD_some, Option.map_some, hm, Option.getD_none, Option.map_none]
      exact hn
    | some m =>
      have hn := congrArg
        (fun m => (⟨metadata, some { spec with template := { spec.template with metadata := some m } }, status⟩ : Deployment))
        (hnoted m)
      simp only [Steps.stamped, Deployment.timeless, Option.getD_some, Option.map_some, hm]
      exact hn

/-- The time of a change is noted alike on deployments that are the same but for what is passed over. -/
theorem Same.stamped {x y : Deployment} (hs : b.Same .deployment x y) {now now' : Instant} (hn : b.note = true ∨ now = now') :
    b.Same .deployment (Steps.stamped x now) (Steps.stamped y now') := by
  have hcontent := hs.content (b.metadata x.metadata)
  have hmeta := hs.metadata
  have hobject (z : Deployment) (t : Instant) :
      b.object .deployment (Steps.stamped z t) =
        Kind.withMetadata .deployment (b.content .deployment (Steps.stamped z t)) (b.metadata z.metadata) := rfl
  have hstamped (z : Deployment) (t : Instant) (m : Meta) :
      Kind.withMetadata .deployment (Steps.stamped z t) m = Steps.stamped (Kind.withMetadata .deployment z m) t := rfl
  have htimeless (z : Deployment) (m : Meta) :
      Kind.withMetadata .deployment z.timeless m = (Kind.withMetadata .deployment z m : Deployment).timeless := rfl
  change b.metadata x.metadata = b.metadata y.metadata at hmeta
  rw [Same, hobject, hobject, ← hmeta]
  cases hb : b.note with
  | true =>
    simp only [Blur.content, hb, if_true] at hcontent ⊢
    rw [timeless_stamped x now now', timeless_stamped y now' now', htimeless, htimeless, hstamped, hstamped, hcontent]
  | false =>
    simp only [Blur.content, hb, Bool.false_eq_true, if_false] at hcontent ⊢
    rcases hn with hn | rfl
    · exact absurd (hb.symm.trans hn) nofun
    · rw [hstamped, hstamped, hcontent]

/-- Whether a deployment has to go does not depend on what is passed over. -/
theorem isLegacy_congr {x y : Deployment} (hs : b.Same .deployment x y) : Desired.isLegacy x = Desired.isLegacy y := by
  have hobject (z : Deployment) : Desired.isLegacy (b.object .deployment z) = Desired.isLegacy z := by
    obtain ⟨metadata, spec, status⟩ := z
    simp only [object, content]
    split
    · cases spec <;> rfl
    · rfl
  rw [← hobject x, ← hobject y]
  exact congrArg Desired.isLegacy hs

end Blur

end IngressOperator
