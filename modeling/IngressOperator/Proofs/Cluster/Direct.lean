import IngressOperator.Cluster.Direct
import IngressOperator.Pass
import IngressOperator.Proofs.Store.Shared

/-!
# Direct access keeps the contract

A cluster is calm if nothing arrives, no name is taken, no call is made to fail, and every object is filed under its own namespace
and name with a version. Direct access to calm clusters keeps the contract of a store.

## Main statements

* `Cluster.Direct.answers`: what every request to a calm cluster comes to.
* `Cluster.Direct.store`: direct access to calm clusters is a store.
* `Cluster.Direct.steady_store`: it tells the same facts at all times.
-/

namespace IngressOperator.Cluster

/-! ### Calm clusters -/

/-- A cluster in which nothing happens on its own, and of which certain facts are known. -/
structure Calm (facts : ClusterFacts) (c : Cluster) : Prop where
  faults : c.faults = []
  arrivals : c.arrivals = []
  taken : c.taken = []
  facts : c.facts = facts
  filed : ∀ key j, c.objects.get? key = some j → Filed key j

/-! ### Calm clusters stay calm -/

section

variable {facts : ClusterFacts} {c : Cluster}

theorem Calm.note (h : c.Calm facts) (call : Call) : (c.note call).Calm facts :=
  ⟨h.faults, h.arrivals, h.taken, h.facts, h.filed⟩

theorem Calm.pass (h : c.Calm facts) (millis : Nat) : (c.pass millis).Calm facts :=
  ⟨h.faults, h.arrivals, h.taken, h.facts, h.filed⟩

theorem Calm.sent (h : c.Calm facts) (events : List (Event × Nat)) : Calm facts { c with events := events } :=
  ⟨h.faults, h.arrivals, h.taken, h.facts, h.filed⟩

theorem Calm.erase (h : c.Calm facts) (key : ObjectKey) : Calm facts { c with objects := c.objects.erase key } := by
  refine ⟨h.faults, h.arrivals, h.taken, h.facts, fun key' j hj => ?_⟩
  rw [Objects.get?_erase] at hj
  split at hj
  · cases hj
  · exact h.filed key' j hj

/-- What is written to a calm cluster must be filed as the next version. -/
theorem Calm.write (h : c.Calm facts) {key : ObjectKey} {object : Json}
    (hf : Filed key (withMeta "resourceVersion" (toString (c.version + 1)) object)) : (c.write key object).Calm facts := by
  refine ⟨h.faults, h.arrivals, h.taken, h.facts, fun key' j hj => ?_⟩
  rw [get?_write] at hj
  split at hj
  · next hk =>
    cases hj
    exact hk ▸ hf
  · exact h.filed key' j hj

/-- A document that is filed may be there from the beginning, and the cluster be another one. -/
theorem Calm.put (h : c.Calm facts) {key : ObjectKey} {doc : Json} (hf : Filed key doc) (version : Nat) (facts' : ClusterFacts) :
    Calm facts' { c with objects := c.objects.put key doc, version := version, facts := facts' } := by
  refine ⟨h.faults, h.arrivals, h.taken, rfl, ?_⟩
  intro key' j hj
  rw [Objects.get?_put] at hj
  split at hj
  · next hk =>
    cases hj
    exact hk ▸ hf
  · exact h.filed key' j hj

/-- Whether a cluster is calm, too, after a document was written under a key as the next version. -/
structure Written (facts : ClusterFacts) (c : Cluster) (key : ObjectKey) (doc : Json) (c' : Cluster) : Prop where
  calm : c'.Calm facts
  version : c'.version = c.version + 1
  ofVersion : versionOf doc = some (.str (toString c'.version))
  stored : c'.objects.get? key = some doc
  frame : ∀ other, other ≠ key → c'.objects.get? other = c.objects.get? other

/-- What is written to a calm cluster is stored as the next version, if that is filed. -/
theorem Calm.written (h : c.Calm facts) {key : ObjectKey} {object doc : Json}
    (hd : withMeta "resourceVersion" (toString (c.version + 1)) object = doc) (hf : Filed key doc) :
    Written facts c key doc (c.write key object) where
  calm := h.write (hd ▸ hf)
  version := rfl
  ofVersion := by
    rw [← hd]
    exact versionOf_withMeta
  stored := by
    rw [get?_write, if_pos rfl, hd]
  frame other ho := by
    rw [get?_write, if_neg ho]

/-- Whether a cluster is calm, too, and nothing but the calls and the clock has changed. -/
structure Unwritten (facts : ClusterFacts) (c c' : Cluster) : Prop where
  calm : c'.Calm facts
  objects : c'.objects = c.objects
  version : c'.version = c.version

theorem Calm.unwritten (h : c.Calm facts) : Unwritten facts c c := ⟨h, rfl, rfl⟩

theorem Calm.unwritten_note (h : c.Calm facts) (call : Call) : Unwritten facts c (c.note call) := ⟨h.note call, rfl, rfl⟩

/-- To a calm cluster no call fails. -/
theorem Calm.receive (h : c.Calm facts) (call : Call) (verb : Verb) (kind name : String) :
    c.receive call verb kind name = (none, c.note call) := by
  obtain ⟨objects, version, now, taken, arrivals, faults, cfacts, events, calls⟩ := c
  have hf := h.faults
  have ha := h.arrivals
  dsimp only at hf ha
  subst hf
  subst ha
  rfl

/-- An event is no document of the store. -/
theorem Calm.unwritten_publish (h : c.Calm facts) (ingress : ManagementIngress) (e : Event) :
    Unwritten facts c (c.publish ingress e) := by
  unfold Cluster.publish
  dsimp only
  rw [h.receive]
  exact ⟨(h.note _).sent _, rfl, rfl⟩

/-- What is written after a call was noted is written. -/
theorem Written.of_note {key : ObjectKey} {doc : Json} {call : Call} {c' : Cluster} (h : Written facts (c.note call) key doc c') :
    Written facts c key doc c' :=
  ⟨h.calm, h.version, h.ofVersion, h.stored, h.frame⟩

/-! ### What the server does -/

/-- An object that is not there is created. -/
theorem Calm.create_absent (h : c.Calm facts) {k : Kind} {x : k.Object} {key : ObjectKey} (hk : k.objectKey? x = some key)
    (hn : c.objects.get? key = none) :
    ∃ c', c.create key (k.encode x) = .ok c' ∧
      Written facts c key (k.encode (created k x s!"uid-{key.name}" (toString (c.version + 1)))) c' := by
  obtain ⟨hkind, hns, hname⟩ := Kind.of_objectKey? hk
  have hdoc := created_encode k x s!"uid-{key.name}" (toString (c.version + 1))
  have hc : c.create key (k.encode x) = .ok (c.write key (identified key (completed key.kind (k.encode x)))) := by
    rw [create, hn, h.taken]
    rfl
  rw [← hkind] at hdoc
  have hversion : k.version (created k x s!"uid-{key.name}" (toString (c.version + 1))) = some (toString (c.version + 1)) := by
    rw [Kind.version, metadata_created]
  refine ⟨_, hc, h.written hdoc (filed_encode ?_ ?_ hversion)⟩
  · rw [metadata_created]
    exact hns
  · rw [metadata_created]
    exact hname

/-- An object that is there is not created. -/
theorem create_present {key : ObjectKey} {j : Json} (hj : c.objects.get? key = some j) (object : Json) :
    c.create key object = .error .alreadyExists := by
  rw [create, hj]
  rfl

/-- An object is replaced by another one that was written as of its version. -/
theorem Calm.update (h : c.Calm facts) {k : Kind} {x : k.Object} {key : ObjectKey} (hk : k.objectKey? x = some key) {j : Json}
    (hj : c.objects.get? key = some j) (hv : versionOf j = versionOf (k.encode x)) :
    ∃ c', c.update key (k.encode x) = .ok c' ∧
      Written facts c key (k.encode (k.withVersion x (toString (c.version + 1)))) c' := by
  obtain ⟨-, hns, hname⟩ := Kind.of_objectKey? hk
  have hc : c.update key (k.encode x) = .ok (c.write key (k.encode x)) := by
    rw [Cluster.update, hj]
    exact if_pos hv
  have hver : k.version (k.withVersion x (toString (c.version + 1))) = some (toString (c.version + 1)) := by
    simp [Kind.version, Kind.withVersion]
  refine ⟨_, hc, h.written (withVersion_encode k x _) ?_⟩
  exact filed_encode (by simp [Kind.withVersion, hns]) (by simp [Kind.withVersion, hname]) hver

/-- What is deleted is gone, be it that it was not there. -/
theorem Calm.delete (h : c.Calm facts) (key : ObjectKey) :
    ((c.delete key).toOption.getD c).Calm facts ∧ ((c.delete key).toOption.getD c).version = c.version ∧
      ∀ other, ((c.delete key).toOption.getD c).objects.get? other = if other = key then none else c.objects.get? other := by
  cases hj : c.objects.get? key with
  | none =>
    have hc : c.delete key = .error .notFound := by
      rw [Cluster.delete, hj]
      rfl
    rw [hc]
    refine ⟨h, rfl, fun other => ?_⟩
    split
    · next ho => exact ho ▸ hj
    · rfl
  | some j =>
    have hc : c.delete key = .ok { c with objects := c.objects.erase key } := by
      rw [Cluster.delete, hj]
      rfl
    have hgone := get?_of_delete hc
    rw [hc]
    exact ⟨h.erase key, rfl, hgone⟩

/-- The status of an object is replaced, whatever its version. -/
theorem Calm.updateStatus (h : c.Calm facts) {key : ObjectKey} {j : Json} (hj : c.objects.get? key = some j) (status : Json) :
    ∃ c', c.updateStatus key status = .ok c' ∧
      Written facts c key (withMeta "resourceVersion" (toString (c.version + 1)) (j.set "status" status)) c' := by
  have hc : c.updateStatus key status = .ok (c.write key (j.set "status" status)) := by
    rw [Cluster.updateStatus, hj]
  exact ⟨_, hc, h.written rfl ((h.filed key j hj).reported status _)⟩

namespace Direct

/-! ### What is answered -/

theorem serve_eq {α : Type} (h : c.Calm facts) (verb : Verb) (key : ObjectKey)
    (act : Cluster → Except Failure α × Cluster) :
    serve verb key act c = act (c.note (.store verb key.kind key.ns key.name)) := by
  rw [serve, h.receive]

theorem keyOf_eq {k : Kind} {x : k.Object} {key : ObjectKey} (hk : k.objectKey? x = some key) : keyOf k x = .ok key := by
  unfold Kind.objectKey? at hk
  unfold keyOf
  cases hx : k.key x with
  | error e =>
    rw [hx] at hk
    cases hk
  | ok p =>
    rw [hx] at hk
    cases hk
    rfl

theorem exists_keyOf_eq_error {k : Kind} {x : k.Object} (hk : k.objectKey? x = none) : ∃ e, keyOf k x = .error e := by
  unfold Kind.objectKey? at hk
  unfold keyOf
  cases hx : k.key x with
  | error e => exact ⟨e, rfl⟩
  | ok p =>
    rw [hx] at hk
    cases hk

/-- Where an object does not say where it belongs, nothing is done. -/
theorem serveObject_none {α : Type} {k : Kind} {x : k.Object} (hk : k.objectKey? x = none) (verb : Verb)
    (act : ObjectKey → Cluster → Except Failure α × Cluster) : ∃ e, serveObject verb (keyOf k x) act c = (.error e, c) := by
  obtain ⟨e, he⟩ := exists_keyOf_eq_error hk
  rw [he]
  exact ⟨e, rfl⟩

theorem serveObject_eq {α : Type} (h : c.Calm facts) {k : Kind} {x : k.Object} {key : ObjectKey} (hk : k.objectKey? x = some key)
    (verb : Verb) (act : ObjectKey → Cluster → Except Failure α × Cluster) :
    serveObject verb (keyOf k x) act c = act key (c.note (.store verb key.kind key.ns key.name)) := by
  rw [keyOf_eq hk]
  exact serve_eq h verb key (act key)

/-- How it is told that a document is no object of a kind. -/
def refusal (_ : Kind) (_ : Json) : Failure := .malformed "malformed object"

/-- An object is read as it is stored. -/
theorem handler_get (h : c.Calm facts) (k : Kind) (ns name : String) :
    (handler (.get k ns name) c).1 = k.reading refusal (c.objects.get? (k.keyAt ns name)) := by
  have hserve : handler (.get k ns name) c = ((c.objects.get? (k.keyAt ns name)).mapM (read k), c.note _) :=
    serve_eq h .get (k.keyAt ns name) _
  rw [hserve]
  cases c.objects.get? (k.keyAt ns name) with
  | none => rfl
  | some j =>
    simp only [Option.mapM_some, read, Kind.reading]
    cases k.decode? j with
    | none => rfl
    | some x => rfl

/-- The objects of a kind are listed as they are stored. -/
theorem handler_list (h : c.Calm facts) (k : Kind) (ns labels : String) :
    (handler (.list k ns labels) c).1 = (c.list k.name ns labels).mapM (read k) :=
  congrArg Prod.fst (serve_eq h .list ⟨k.name, ns, labels⟩ fun c => ((c.list k.name ns labels).mapM (read k), c))

/-- What a create comes to. -/
theorem handler_create (h : c.Calm facts) {k : Kind} {x : k.Object} {key : ObjectKey} (hk : k.objectKey? x = some key) :
    (c.objects.get? key = none ∧ ∃ c', handler (.create k x) c = (.ok .new, c') ∧
        Written facts c key (k.encode (created k x s!"uid-{key.name}" (toString (c.version + 1)))) c') ∨
      ∃ j, c.objects.get? key = some j ∧
        handler (.create k x) c = (.ok .alreadyExists, c.note (.store .create key.kind key.ns key.name)) := by
  have hserve : handler (.create k x) c = _ := serveObject_eq h hk .create _
  have hnote := h.note (.store .create key.kind key.ns key.name)
  cases hj : c.objects.get? key with
  | none =>
    obtain ⟨c', hc, hw⟩ := hnote.create_absent hk hj
    refine .inl ⟨rfl, c', ?_, hw.of_note⟩
    refine hserve.trans ?_
    rw [hc]
  | some j =>
    have hc := create_present (c := c.note (.store .create key.kind key.ns key.name)) hj (k.encode x)
    refine .inr ⟨j, rfl, ?_⟩
    refine hserve.trans ?_
    rw [hc]

/-- What an update of an object of the stored version comes to. -/
theorem handler_update (h : c.Calm facts) {k : Kind} {x : k.Object} {key : ObjectKey} (hk : k.objectKey? x = some key) {j : Json}
    (hj : c.objects.get? key = some j) (hv : versionOf j = versionOf (k.encode x)) :
    ∃ c', handler (.update k x) c = (read k (k.encode (k.withVersion x (toString (c.version + 1)))), c') ∧
      Written facts c key (k.encode (k.withVersion x (toString (c.version + 1)))) c' := by
  have hserve : handler (.update k x) c = _ := serveObject_eq h hk .update _
  obtain ⟨c', hc, hw⟩ := (h.note (.store .update key.kind key.ns key.name)).update hk hj hv
  refine ⟨c', ?_, hw.of_note⟩
  refine hserve.trans ?_
  simp only [hc, hw.stored, Option.getD_some]
  rfl

/-- What an update comes to that does not name the stored version. -/
theorem handler_update_refused (h : c.Calm facts) {k : Kind} {x : k.Object} {key : ObjectKey} (hk : k.objectKey? x = some key)
    (hv : ∀ j, c.objects.get? key = some j → versionOf j ≠ versionOf (k.encode x)) :
    ∃ refusal, handler (.update k x) c =
      (.error (failure key refusal), c.note (.store .update key.kind key.ns key.name)) := by
  have hserve : handler (.update k x) c = _ := serveObject_eq h hk .update _
  cases hc : (c.note (.store .update key.kind key.ns key.name)).update key (k.encode x) with
  | error refusal =>
    refine ⟨refusal, hserve.trans ?_⟩
    rw [hc]
  | ok c' =>
    obtain ⟨⟨j, hj, hversion⟩, -⟩ := get?_of_update hc
    exact absurd hversion (hv j hj)

/-- What a deletion comes to. -/
theorem handler_delete (h : c.Calm facts) (k : Kind) (ns name : String) :
    ∃ c', handler (.delete k ns name) c = (.ok (), c') ∧ c'.Calm facts ∧ c'.version = c.version ∧
      ∀ other, c'.objects.get? other = if other = k.keyAt ns name then none else c.objects.get? other := by
  have hserve : handler (.delete k ns name) c =
      (.ok (), ((c.note _).delete (k.keyAt ns name)).toOption.getD (c.note _)) := serve_eq h .delete (k.keyAt ns name) _
  exact ⟨_, hserve, (h.note _).delete _⟩

/-- What a new status comes to. -/
theorem handler_updateStatus (h : c.Calm facts) {ingress : ManagementIngress} {key : ObjectKey}
    (hk : Kind.objectKey? .managementIngress ingress = some key) (status : IngressStatus) {j : Json}
    (hj : c.objects.get? key = some j) :
    ∃ c', handler (.updateStatus ingress status) c = (.ok (), c') ∧
      Written facts c key (withMeta "resourceVersion" (toString (c.version + 1)) (j.set "status" (Wire.encode status))) c' := by
  have hserve : handler (.updateStatus ingress status) c = _ := serveObject_eq h (k := .managementIngress) hk .status _
  obtain ⟨c', hc, hw⟩ := (h.note (.store .status key.kind key.ns key.name)).updateStatus hj (Wire.encode status)
  refine ⟨c', ?_, hw.of_note⟩
  refine hserve.trans ?_
  rw [hc]

/-- What a new status of an object that is not there comes to. -/
theorem handler_updateStatus_absent (h : c.Calm facts) {ingress : ManagementIngress} {key : ObjectKey}
    (hk : Kind.objectKey? .managementIngress ingress = some key) (status : IngressStatus) (hn : c.objects.get? key = none) :
    handler (.updateStatus ingress status) c =
      (.error (.notFound key.kind key.name), c.note (.store .status key.kind key.ns key.name)) := by
  have hserve : handler (.updateStatus ingress status) c = _ := serveObject_eq h (k := .managementIngress) hk .status _
  have hc : (c.note (.store .status key.kind key.ns key.name)).updateStatus key (Wire.encode status) = .error .notFound := by
    have hnone : (c.note (.store .status key.kind key.ns key.name)).objects.get? key = none := hn
    rw [Cluster.updateStatus, hnone]
  refine hserve.trans ?_
  rw [hc]
  rfl

/-- What a request to a calm cluster comes to: an object is read as it is stored, a document is written or deleted, or nothing of
this is done and nothing changes. -/
inductive Answers (facts : ClusterFacts) (c : Cluster) : (r : Request) → r.Answer → Cluster → Prop where
  | read {k : Kind} {ns name : String} {c' : Cluster} (same : Unwritten facts c c') :
    Answers facts c (.get k ns name) (k.reading refusal (c.objects.get? (k.keyAt ns name))) c'
  | created {k : Kind} {x : k.Object} {key : ObjectKey} {c' : Cluster} (hk : k.objectKey? x = some key)
    (hn : c.objects.get? key = none)
    (written : Written facts c key (k.encode (created k x s!"uid-{key.name}" (toString (c.version + 1)))) c') :
    Answers facts c (.create k x) (.ok .new) c'
  | present {k : Kind} {x : k.Object} {key : ObjectKey} {j : Json} {c' : Cluster} (hk : k.objectKey? x = some key)
    (hj : c.objects.get? key = some j) (same : Unwritten facts c c') : Answers facts c (.create k x) (.ok .alreadyExists) c'
  | updated {k : Kind} {x : k.Object} {key : ObjectKey} {j : Json} {c' : Cluster} (hk : k.objectKey? x = some key)
    (hj : c.objects.get? key = some j) (hv : versionOf j = versionOf (k.encode x))
    (written : Written facts c key (k.encode (k.withVersion x (toString (c.version + 1)))) c') :
    Answers facts c (.update k x) (Cluster.read k (k.encode (k.withVersion x (toString (c.version + 1))))) c'
  | deleted {k : Kind} {ns name : String} {c' : Cluster} (calm : c'.Calm facts) (version : c'.version = c.version)
    (gone : ∀ other, c'.objects.get? other = if other = k.keyAt ns name then none else c.objects.get? other) :
    Answers facts c (.delete k ns name) (.ok ()) c'
  | reported {ingress : ManagementIngress} {status : IngressStatus} {key : ObjectKey} {j : Json} {c' : Cluster}
    (hk : Kind.objectKey? .managementIngress ingress = some key) (hj : c.objects.get? key = some j)
    (written : Written facts c key
      (withMeta "resourceVersion" (toString (c.version + 1)) (j.set "status" (Wire.encode status))) c') :
    Answers facts c (.updateStatus ingress status) (.ok ()) c'
  | unmoved {r : Request} {answer : r.Answer} {c' : Cluster} (hu : SharedStore.Unmoved ⟨r, answer⟩)
    (same : Unwritten facts c c') : Answers facts c r answer c'

/-- A create is accepted exactly where there is nothing yet. -/
theorem answers_create (h : c.Calm facts) (k : Kind) (x : k.Object) :
    Answers facts c (.create k x) (handler (.create k x) c).1 (handler (.create k x) c).2 := by
  cases hk : k.objectKey? x with
  | none =>
    obtain ⟨e, hc⟩ : ∃ e, handler (.create k x) c = (.error e, c) := serveObject_none hk .create _
    rw [hc]
    exact .unmoved trivial h.unwritten
  | some key =>
    obtain ⟨hn, c', hc, hw⟩ | ⟨j, hj, hc⟩ := handler_create h hk
    · rw [hc]
      exact .created hk hn hw
    · rw [hc]
      exact .present hk hj (h.unwritten_note _)

/-- An update is accepted exactly if it names the version that is stored. -/
theorem answers_update (h : c.Calm facts) (k : Kind) (x : k.Object) :
    Answers facts c (.update k x) (handler (.update k x) c).1 (handler (.update k x) c).2 := by
  cases hk : k.objectKey? x with
  | none =>
    obtain ⟨e, hc⟩ : ∃ e, handler (.update k x) c = (.error e, c) := serveObject_none hk .update _
    rw [hc]
    exact .unmoved trivial h.unwritten
  | some key =>
    by_cases hv : ∃ j, c.objects.get? key = some j ∧ versionOf j = versionOf (k.encode x)
    · obtain ⟨j, hj, hv⟩ := hv
      obtain ⟨c', hc, hw⟩ := handler_update h hk hj hv
      rw [hc]
      exact .updated hk hj hv hw
    · obtain ⟨refusal, hc⟩ := handler_update_refused h hk fun j hj hv' => hv ⟨j, hj, hv'⟩
      rw [hc]
      exact .unmoved trivial (h.unwritten_note _)

/-- A status is accepted exactly if its object is there. -/
theorem answers_updateStatus (h : c.Calm facts) (ingress : ManagementIngress) (status : IngressStatus) :
    Answers facts c (.updateStatus ingress status) (handler (.updateStatus ingress status) c).1
      (handler (.updateStatus ingress status) c).2 := by
  cases hk : Kind.objectKey? .managementIngress ingress with
  | none =>
    obtain ⟨e, hc⟩ : ∃ e, handler (.updateStatus ingress status) c = (.error e, c) :=
      serveObject_none (k := .managementIngress) hk .status _
    rw [hc]
    exact .unmoved trivial h.unwritten
  | some key =>
    cases hj : c.objects.get? key with
    | none =>
      rw [handler_updateStatus_absent h hk status hj]
      exact .unmoved trivial (h.unwritten_note _)
    | some j =>
      obtain ⟨c', hc, hw⟩ := handler_updateStatus h hk status hj
      rw [hc]
      exact .reported hk hj hw

/-- What every request to a calm cluster comes to. -/
theorem answers (h : c.Calm facts) (r : Request) : Answers facts c r (handler r c).1 (handler r c).2 := by
  cases r with
  | get k ns name =>
    have hserve : handler (.get k ns name) c = (_, c.note _) := serve_eq h .get (k.keyAt ns name) _
    rw [handler_get h, hserve]
    exact .read (h.unwritten_note _)
  | list k ns labels =>
    have hserve : handler (.list k ns labels) c = (_, c.note _) := serve_eq h .list ⟨k.name, ns, labels⟩ _
    rw [hserve]
    exact .unmoved trivial (h.unwritten_note _)
  | create k x => exact answers_create h k x
  | update k x => exact answers_update h k x
  | delete k ns name =>
    obtain ⟨c', hc, hcalm, hversion, hgone⟩ := handler_delete h k ns name
    rw [hc]
    exact .deleted hcalm hversion hgone
  | updateStatus ingress status => exact answers_updateStatus h ingress status
  | baseDomain | clusterDomain | apiServer => exact .unmoved trivial (h.unwritten_note _)
  | now => exact .unmoved trivial h.unwritten
  | sleep millis => exact .unmoved trivial ⟨h.pass millis, rfl, rfl⟩
  | publish ingress e => exact .unmoved trivial (h.unwritten_publish ingress e)

/-- It is left calm, with no other object changed than that which the request names. -/
theorem Answers.calm {r : Request} {answer : r.Answer} {c' : Cluster} (ha : Answers facts c r answer c') :
    c'.Calm facts ∧ ∀ key, r.target? ≠ some key → c'.objects.get? key = c.objects.get? key := by
  cases ha with
  | read same | present _ _ same | unmoved _ same => exact ⟨same.calm, fun key _ => congrArg (·.get? key) same.objects⟩
  | created hk _ written | updated hk _ _ written | reported hk _ written =>
    exact ⟨written.calm, fun key hkey => written.frame key fun he => hkey (he ▸ hk)⟩
  | deleted calm _ gone =>
    refine ⟨calm, fun key hkey => (gone key).trans (if_neg ?_)⟩
    rintro rfl
    exact hkey rfl

/-- A request to a calm cluster leaves it calm, with no other object changed than that which the request names. -/
theorem handler_calm (h : c.Calm facts) (r : Request) :
    (handler r c).2.Calm facts ∧ ∀ key, r.target? ≠ some key → (handler r c).2.objects.get? key = c.objects.get? key :=
  (answers h r).calm

/-! ### The store -/

/-- Direct access to calm clusters is a store. -/
def store (facts : ClusterFacts) : ObjectStore handler where
  Holds := Calm facts
  stored c key := c.objects.get? key
  refusal := refusal
  holds r c h := (handler_calm h r).1
  frame r c key h ht := (handler_calm h r).2 key ht
  placed c k ns name j x h hj hx := by
    obtain ⟨hns, hname, -⟩ := (h.filed _ j hj).of_decode? hx
    exact ⟨hns, hname⟩
  get c k ns name h := handler_get h k ns name
  list c d k ns labels h h' hd := by
    have hwithin : c.objects.within k.name ns = d.objects.within k.name ns :=
      SortedMap.ext_get? fun name => hd (k.keyAt ns name) rfl
    rw [handler_list h, handler_list h', list, list, hwithin]
  create_absent c k x key h hk hn := by
    obtain ⟨-, c', hc, hw⟩ | ⟨j, hj, -⟩ := handler_create h hk
    · rw [hc]
      exact ⟨rfl, _, completes_created k x _ _, hw.stored⟩
    · rw [hn] at hj
      cases hj
  create_present c k x key j h hk hj := by
    obtain ⟨hn, -⟩ | ⟨j', hj', hc⟩ := handler_create h hk
    · rw [hn] at hj
      cases hj
    · rw [hc]
      exact ⟨rfl, hj⟩
  update c k x key j live h hm hk hj hx hv := by
    obtain ⟨-, -, version, hlive, hversion⟩ := (h.filed key j hj).of_decode? hx
    have hsame : versionOf j = versionOf (k.encode x) := by
      rw [hversion, versionOf_encode, ← hv, hlive]
      rfl
    obtain ⟨c', hc, hw⟩ := handler_update h hk hj hsame
    rw [hc]
    refine ⟨⟨k.withVersion x (toString (c.version + 1)), ?_⟩, _, hw.stored⟩
    simp only [read, Kind.decode?_encode hm]
  delete c k ns name h := by
    obtain ⟨c', hc, -, -, hframe⟩ := handler_delete h k ns name
    rw [hc]
    exact ⟨rfl, (hframe _).trans (if_pos rfl)⟩
  updateStatus c ingress status key j live h hk hj hx hs := by
    obtain ⟨c', hc, hw⟩ := handler_updateStatus h hk status hj
    obtain ⟨members, ms, _, rfl, hm, -⟩ := (h.filed key j hj).members
    rw [hc]
    exact ⟨rfl, _, _, hw.stored, decode?_reported hx hm hs _⟩

/-- The facts about a calm cluster are told at all times. -/
theorem steady_store (facts : ClusterFacts) : (store facts).Steady where
  baseDomain h h' := by
    simp only [handler, tell, h.facts, h'.facts]
  clusterDomain h h' := by
    simp only [handler, tell, h.facts, h'.facts]
  apiServer h h' := by
    simp only [handler, tell, h.facts, h'.facts]

end Direct

end

/-! ### A small cluster -/

namespace Small

/-- A custom resource that names an image and takes the certificate of its route as it comes. -/
def ingress : ManagementIngress where
  metadata := { name := some "default", ns := some "ns", resourceVersion := some "1", uid := some "u" }
  spec := { image := { repository := "icr.io/op", tag := "1" }, ignoreRouteCert := true }

/-- The secret that the cluster's own certificate authority has issued. -/
def secret : Secret where
  metadata := { name := some Names.serviceSecret, ns := some "ns", resourceVersion := some "2" }
  data := some (.ofList [("tls.crt", ⟨[1]⟩), ("ca.crt", ⟨[2]⟩)])

/-- A cluster that holds these two and nothing else. -/
def cluster : Cluster where
  objects := ((∅ : Objects).put (Kind.managementIngress.keyAt "ns" "default") (Kind.encode .managementIngress ingress)).put
    (Kind.secret.keyAt "ns" Names.serviceSecret) (Kind.encode .secret secret)
  version := 2
  now := { (default : Instant) with seconds := 1700000000 }

/-- What a pass over the small cluster depends on: there are neither routes nor certificates. -/
def setup : Setup := { flavor := .cncf "example.com", certificatesServed := false }

/-- Nothing happens in the small cluster on its own. -/
theorem calm : cluster.Calm {} := by
  have hsecret : Filed (Kind.secret.keyAt "ns" Names.serviceSecret) (Kind.encode .secret secret) :=
    filed_encode rfl rfl rfl
  have hingress : Filed (Kind.managementIngress.keyAt "ns" "default") (Kind.encode .managementIngress ingress) :=
    filed_encode rfl rfl rfl
  have hempty : Calm {} { now := cluster.now } := ⟨rfl, rfl, rfl, rfl, nofun⟩
  exact (hempty.put hingress 1 {}).put hsecret 2 {}

end Small

/-! ### A cluster whose console route leads elsewhere -/

namespace Rerouted

/-- A console route that leads elsewhere, with a weight. -/
def route : Route where
  metadata := { name := some Names.consoleRoute, ns := some "ns", resourceVersion := some "3" }
  spec := { host := "old.example.com", target := { kind := "Service", name := "other", weight := some 50 } }

/-- What is known about a cluster that serves routes. -/
def facts : ClusterFacts where
  baseDomain := some "apps.example.com"
  clusterDomain := some "cluster.local"
  apiServer := some ⟨"api.example.com", "6443"⟩

/-- The small cluster with that route. -/
def cluster : Cluster :=
  { Small.cluster with
    objects := Small.cluster.objects.put (Kind.route.keyAt "ns" Names.consoleRoute) (Kind.encode .route route)
    version := 3
    facts := facts }

theorem calm : cluster.Calm facts := by
  have hroute : Filed (Kind.route.keyAt "ns" Names.consoleRoute) (Kind.encode .route route) := filed_encode rfl rfl rfl
  exact Small.calm.put hroute 3 facts

end Rerouted

end IngressOperator.Cluster
