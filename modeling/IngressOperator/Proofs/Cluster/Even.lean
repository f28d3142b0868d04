import IngressOperator.Proofs.Cluster.Direct
import IngressOperator.Proofs.Pass.Level

/-!
# Direct access is even

The clock of a calm cluster moves only while time is let pass, an object that is created is completed by what it is alone, and a
status is put into a document whatever else is in it. Direct access to calm clusters therefore treats alike what is the same but for
what is passed over.

## Main statements

* `Cluster.Direct.even_store`: direct access to calm clusters that show the same time is even.
* `Cluster.Direct.confined_store`: it lists the objects of one namespace.
-/

namespace IngressOperator

/-! ### Members of documents -/

namespace Entries

variable {κ α : Type} [Ord κ] [Std.TransOrd κ] {k k' : κ} {a b : α} {l : List (κ × α)}

/-- What is put under a key last stands. -/
theorem insert_insert_self : insert k a (insert k b l) = insert k a l := by
  induction l with
  | nil => simp [insert]
  | cons e l ih =>
    obtain ⟨k', a'⟩ := e
    cases hk : compare k k' with
    | lt => simp [insert, hk]
    | eq => simp [insert, hk]
    | gt => simp [insert, hk, ih]

/-- It does not matter in which order values are put under different keys. -/
theorem insert_comm_of_lt (hlt : compare k k' = .lt) : insert k a (insert k' b l) = insert k' b (insert k a l) := by
  have hgt : compare k' k = .gt := Std.OrientedCmp.gt_of_lt hlt
  induction l with
  | nil => simp [insert, hlt, hgt]
  | cons e l ih =>
    obtain ⟨m, c⟩ := e
    cases hm : compare k' m with
    | lt =>
      have hk : compare k m = .lt := Std.TransCmp.lt_trans hlt hm
      simp [insert, hm, hk, hlt, hgt]
    | eq =>
      have hk : compare k m = .lt := Std.TransCmp.lt_of_lt_of_eq hlt hm
      simp [insert, hm, hk, hlt, hgt]
    | gt =>
      cases hk : compare k m with
      | lt => simp [insert, hm, hk, hgt]
      | eq => simp [insert, hm, hk, hgt]
      | gt => simp [insert, hm, hk, ih]

end Entries

theorem Json.set_set_self (j : Json) (name : String) (value value' : Json) : (j.set name value').set name value = j.set name value := by
  simp only [set, members?, Option.getD_some, Entries.insert_insert_self]

theorem Json.get?_set_metadata (j status : Json) : (j.set "status" status).get? "metadata" = j.get? "metadata" := by
  cases j with
  | obj members => exact Json.get?_set_of_ne (by decide)
  | _ => simp [set, get?, members?, Entries.find?_insert]

namespace Cluster

/-- A version that is put into a document replaces the one that is there. -/
theorem withMeta_withMeta (name value value' : String) (j : Json) : withMeta name value (withMeta name value' j) = withMeta name value j := by
  simp only [withMeta, Json.get?_set_self, Option.getD_some, Json.set_set_self]

/-- Version and status are put into different members of a document. -/
theorem withMeta_set_status (name value : String) (j status : Json) :
    withMeta name value (j.set "status" status) = (withMeta name value j).set "status" status := by
  have hlt : compare "metadata" "status" = .lt := by decide
  simp only [withMeta, Json.get?_set_metadata]
  simp only [Json.set, Json.members?, Option.getD_some, Entries.insert_comm_of_lt hlt]

/-- Documents that are the same but for their versions are so with a new status, as whichever versions. -/
theorem sameButVersion_reported {j j' : Json} (hs : SameButVersion (some j) (some j')) (status : Json) (version version' : String) :
    SameButVersion (some (withMeta "resourceVersion" version (j.set "status" status)))
      (some (withMeta "resourceVersion" version' (j'.set "status" status))) := by
  have hj := Option.some.inj hs
  simp only [SameButVersion, Option.map_some, withMeta_withMeta, withMeta_set_status, hj]

/-! ### Objects that are created -/

/-- Whether a service has an address depends on its specification alone. -/
theorem path?_spec_congr {x y : Service} (hs : x.spec = y.spec) (name : String) :
    (Kind.encode .service x).path? ["spec", name] = (Kind.encode .service y).path? ["spec", name] := by
  have hget (z : Service) : (Kind.encode .service z).get? "spec" = z.spec.map Wire.encode := by
    refine (Json.get?_record _ _).trans ?_
    simp
  simp only [Json.path?, hget, hs]

/-- Objects that are the same but for what is passed over are completed alike, unless addresses are passed over. -/
theorem same_provided {b : Blur} (hb : b.given = false) {k : Kind} {x y : k.Object} (hs : b.Same k x y) :
    b.Same k (provided k x) (provided k y) := by
  cases k with
  | service =>
    have hcontent (z : Service) : b.content .service z = z := by
      simp only [Blur.content, hb, Bool.false_eq_true, if_false]
    have hspec : x.spec = y.spec := by
      have hobject := hs.content {}
      rw [hcontent, hcontent] at hobject
      have hspec := congrArg (fun z : Service => z.spec) hobject
      exact hspec
    have haddressed : b.Same .service (addressed x serviceAddress) (addressed y serviceAddress) := by
      have hobject := congrArg (fun z : Service => addressed z serviceAddress) hs
      simp only [Blur.object, hcontent] at hobject
      simp only [Blur.Same, Blur.object, hcontent]
      exact hobject
    simp only [provided, path?_spec_congr hspec "clusterIP"]
    split
    · exact haddressed
    · exact hs
  | _ => exact hs

/-- So are they when they are created, as whichever versions. -/
theorem same_created {b : Blur} (hb : b.given = false) {k : Kind} {x y : k.Object} (hs : b.Same k x y)
    (uid version version' : String) : b.Same k (created k x uid version) (created k y uid version') := by
  have hidentity := congrArg (fun m : Meta => { m with uid := if b.identity then none else some uid }) hs.metadata
  exact ((same_provided hb hs).withMetadata hidentity).withVersion version version'

/-! ### The clock -/

namespace Direct

variable {facts : ClusterFacts} {c d : Cluster}

theorem now_of_create {key : ObjectKey} {object : Json} {c' : Cluster} (hc : c.create key object = .ok c') : c'.now = c.now := by
  grind [create, write]

theorem now_of_update {key : ObjectKey} {object : Json} {c' : Cluster} (hc : c.update key object = .ok c') : c'.now = c.now := by
  grind [update, write]

theorem now_of_delete {key : ObjectKey} {c' : Cluster} (hc : c.delete key = .ok c') : c'.now = c.now := by
  grind [delete]

theorem now_of_updateStatus {key : ObjectKey} {status : Json} {c' : Cluster} (hc : c.updateStatus key status = .ok c') :
    c'.now = c.now := by
  grind [updateStatus, write]

/-- Of the requests to a calm cluster none but that to sleep takes time. -/
theorem now_handler (h : c.Calm facts) {r : Request} (hr : ∀ millis, r ≠ .sleep millis) : (handler r c).2.now = c.now := by
  have hserve {α : Type} {verb : Verb} {key : ObjectKey} {act : Cluster → Except Failure α × Cluster}
      (hact : ∀ c, (act c).2.now = c.now) : (serve verb key act c).2.now = c.now := by
    rw [serve_eq h verb key act]
    exact hact _
  have hobject {α : Type} {k : Kind} {x : k.Object} {verb : Verb} {act : ObjectKey → Cluster → Except Failure α × Cluster}
      (hact : ∀ key c, (act key c).2.now = c.now) : (serveObject verb (keyOf k x) act c).2.now = c.now := by
    cases hk : k.objectKey? x with
    | none =>
      obtain ⟨e, he⟩ := serveObject_none hk verb act
      rw [he]
    | some key =>
      rw [serveObject_eq h hk verb act]
      exact hact key _
  cases r with
  | get k ns name => exact hserve fun _ => rfl
  | list k ns labels => exact hserve fun _ => rfl
  | create k x =>
    refine hobject fun key c => ?_
    split
    · next hc => exact now_of_create hc
    · rfl
  | update k x =>
    refine hobject fun key c => ?_
    split
    · next hc => exact now_of_update hc
    · rfl
  | delete k ns name =>
    refine hserve fun c => ?_
    cases hc : c.delete (k.keyAt ns name) with
    | error e => exact congrArg (fun r : Except Refusal Cluster => (r.toOption.getD c).now) hc
    | ok c' => exact (congrArg (fun r : Except Refusal Cluster => (r.toOption.getD c).now) hc).trans (now_of_delete hc)
  | updateStatus ingress status =>
    refine hobject fun key c => ?_
    split
    · next hc => exact now_of_updateStatus hc
    · rfl
  | sleep millis => exact absurd rfl (hr millis)
  | publish ingress e =>
    change (c.publish ingress e).now = c.now
    unfold Cluster.publish
    dsimp only
    rw [h.receive]
    rfl
  | _ => rfl

/-- Requests that are alike leave calm clusters that show the same time so. -/
theorem now_alike {blur : ObjectKey → Blur} {r r' : Request} (hr : Request.Alike blur r r') (h : c.Calm facts) (h' : d.Calm facts)
    (hn : c.now = d.now) : (handler r c).2.now = (handler r' d).2.now := by
  cases hr with
  | same =>
    by_cases hsleep : ∃ millis, r = .sleep millis
    · obtain ⟨millis, rfl⟩ := hsleep
      exact congrArg (·.plus millis) hn
    · rw [now_handler h fun millis he => hsleep ⟨millis, he⟩, now_handler h' fun millis he => hsleep ⟨millis, he⟩, hn]
  | create | update => exact (now_handler h (by simp)).trans (hn.trans (now_handler h' (by simp)).symm)

/-! ### Reports -/

/-- A report about a custom resource that is the same but for its version is answered alike, and leaves such. -/
theorem reported_alike (h : c.Calm facts) (h' : d.Calm facts) {ingress : ManagementIngress} {status : IngressStatus}
    (hs : ∀ key, Kind.objectKey? .managementIngress ingress = some key → SameButVersion (c.objects.get? key) (d.objects.get? key)) :
    (handler (.updateStatus ingress status) c).1 = (handler (.updateStatus ingress status) d).1 ∧
      ∀ key, Kind.objectKey? .managementIngress ingress = some key →
        SameButVersion ((handler (.updateStatus ingress status) c).2.objects.get? key)
          ((handler (.updateStatus ingress status) d).2.objects.get? key) := by
  cases hk : Kind.objectKey? .managementIngress ingress with
  | none =>
    obtain ⟨e, he⟩ := exists_keyOf_eq_error (k := Kind.managementIngress) hk
    refine ⟨?_, nofun⟩
    simp only [handler, serveObject, he]
  | some key =>
    have hkey := hs key hk
    suffices hone : (handler (.updateStatus ingress status) c).1 = (handler (.updateStatus ingress status) d).1 ∧
        SameButVersion ((handler (.updateStatus ingress status) c).2.objects.get? key)
          ((handler (.updateStatus ingress status) d).2.objects.get? key) from
      ⟨hone.1, fun other hother => Option.some.inj hother ▸ hone.2⟩
    cases hj : c.objects.get? key with
    | none =>
      have hj' : d.objects.get? key = none := by
        rw [hj] at hkey
        exact Option.map_eq_none_iff.1 hkey.symm
      rw [handler_updateStatus_absent h hk status hj, handler_updateStatus_absent h' hk status hj']
      exact ⟨rfl, hkey⟩
    | some j =>
      obtain ⟨j', hj', -⟩ := Option.map_eq_some_iff.1 (show (d.objects.get? key).map _ = some _ from (hj ▸ hkey).symm)
      obtain ⟨c', hc, hw⟩ := handler_updateStatus h hk status hj
      obtain ⟨d', hd, hw'⟩ := handler_updateStatus h' hk status hj'
      rw [hj, hj'] at hkey
      rw [hc, hd, hw.stored, hw'.stored]
      exact ⟨rfl, sameButVersion_reported hkey _ _ _⟩

/-! ### The store -/

/-- An object that is created is what the server keeps of it. -/
theorem eq_created (h : c.Calm facts) {k : Kind} (hm : k ≠ .managementIngress) {x y : k.Object} {key : ObjectKey}
    (hk : k.objectKey? x = some key) (hn : c.objects.get? key = none)
    (hy : (handler (.create k x) c).2.objects.get? key = some (k.encode y)) :
    ∃ version, y = created k x s!"uid-{key.name}" version := by
  obtain ⟨-, c', hc, hw⟩ | ⟨j, hj, -⟩ := handler_create h hk
  · rw [hc] at hy
    have hdoc := congrArg k.decode? (Option.some.inj (hy.symm.trans hw.stored))
    rw [Kind.decode?_encode hm, Kind.decode?_encode hm] at hdoc
    exact ⟨_, Option.some.inj hdoc⟩
  · rw [hn] at hj
    cases hj

/-- Direct access to calm clusters that show the same time is even, if nothing that only the server gives is passed over but
identities. -/
theorem even_store (facts : ClusterFacts) {blur : ObjectKey → Blur} (hb : ∀ key, (blur key).given = false) :
    (store facts).Even blur fun c d => c.now = d.now where
  around hr h h' hn := now_alike hr h h' hn
  discovers {r _ _} h h' hr _ := by
    cases r with
    | baseDomain => exact (steady_store facts).baseDomain h h'
    | clusterDomain => exact (steady_store facts).clusterDomain h h'
    | apiServer => exact (steady_store facts).apiServer h h'
    | _ => exact absurd hr id
  now _ _ hn := hn
  created {k x y x' y' key c d} hm h h' _ hk hs hnone hnone' hdoc hdoc' _ _ := by
    obtain ⟨version, rfl⟩ := eq_created h hm hk hnone hdoc
    obtain ⟨version', rfl⟩ := eq_created h' hm (hs.objectKey?.symm.trans hk) hnone' hdoc'
    exact same_created (hb key) hs _ _ _
  reported h h' _ hs := reported_alike h h' hs

/-- It lists the objects of one namespace. -/
theorem confined_store (facts : ClusterFacts) : (store facts).Confined := by
  intro c d k ns labels h h' hd
  have hwithin : c.objects.within k.name ns = d.objects.within k.name ns :=
    SortedMap.ext_get? fun name => hd (k.keyAt ns name) rfl rfl
  change (handler (.list k ns labels) c).1 = (handler (.list k ns labels) d).1
  rw [handler_list h, handler_list h', list, list, hwithin]

end Direct

end Cluster

end IngressOperator
