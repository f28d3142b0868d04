import IngressOperator.Cluster.Basic
import IngressOperator.Proofs.Store.Contract
import IngressOperator.Proofs.Wire.Resources

/-!
# Documents that the server edits

The server edits the metadata of an object and completes a service, both in the JSON form. On an object that was written the edit
is one of the object itself; on any other it leaves what is read besides.

## Main statements

* `Cluster.withVersion_encode`, `Cluster.withIdentity_encode`: an edit of the metadata of a written object.
* `Cluster.created_encode`, `Cluster.completes_created`: an object that is created is kept as it was written but for what only the
  server gives.
* `Cluster.Filed.of_decode?`: the object that is read from a document has the key and the version of the document.
* `Cluster.decode?_reported`: a status that replaced another is read back, with the rest of the object as it was.
-/

namespace IngressOperator

open Wire

/-! ### Members that are put -/

namespace Json

/-- A record into which a member is put is the record with that field. -/
theorem set_record {fields fields' : List (String × Option Json)} {name : String} {value : Json}
    (h : ∀ n, field? n fields' = if n = name then some value else field? n fields) :
    (record fields).set name value = record fields' := by
  refine congrArg obj (Entries.ext_find? sorted_recordMembers.insert sorted_recordMembers fun n => ?_)
  rw [Entries.find?_insert]
  simp only [members?_record, Option.getD_some, find?_recordMembers, h, Std.LawfulEqCmp.compare_eq_iff_eq]

theorem get?_record (fields : List (String × Option Json)) (name : String) : (record fields).get? name = field? name fields :=
  find?_recordMembers

/-- What is reached through a member of an object. -/
theorem path?_eq_some {j value : Json} {name name' : String} (h : j.path? [name, name'] = some value) :
    ∃ members ms, j = .obj members ∧ Entries.find? name members = some (.obj ms) ∧ Entries.find? name' ms = some value := by
  obtain ⟨j', hj, h⟩ := Option.bind_eq_some_iff.1 h
  obtain ⟨members, hm, hf⟩ := Option.bind_eq_some_iff.1 hj
  obtain ⟨j'', hj', h⟩ := Option.bind_eq_some_iff.1 h
  cases h
  obtain ⟨ms, hms, hf'⟩ := Option.bind_eq_some_iff.1 hj'
  cases j with
  | obj _ =>
    cases hm
    cases j' with
    | obj _ =>
      cases hms
      exact ⟨_, _, rfl, hf, hf'⟩
    | _ => cases hms
  | _ => cases hm

/-- What is reached through a member of an object, member by member. -/
theorem path?_obj {members ms : Members} {name : String} (h : Entries.find? name members = some (.obj ms)) (name' : String) :
    (obj members).path? [name, name'] = Entries.find? name' ms := by
  simp only [path?, get?, members?, Option.bind_some, h]
  cases Entries.find? name' ms <;> rfl

end Json

theorem required?_insert_of_ne {α : Type} [Wire α] {ms : Json.Members} {name name' : String} {j : Json} (h : name ≠ name') :
    (required? (Entries.insert name' j ms) name : Option α) = required? ms name := by
  rw [required?, Entries.find?_insert, if_neg fun hc => h (Std.LawfulEqCmp.eq_of_compare hc), required?]

theorem optional?_insert_of_ne {α : Type} [Wire α] {ms : Json.Members} {name name' : String} {j : Json} (h : name ≠ name') :
    (optional? (Entries.insert name' j ms) name : Option (Option α)) = optional? ms name := by
  rw [optional?, Entries.find?_insert, if_neg fun hc => h (Std.LawfulEqCmp.eq_of_compare hc), optional?]

theorem optional?_insert_self {α : Type} [Wire α] {ms : Json.Members} {name : String} {j : Json} :
    (optional? (Entries.insert name j ms) name : Option (Option α)) = ofOptional? (some j) := by
  rw [optional?, Entries.find?_insert, if_pos Std.ReflCmp.compare_self]
  rfl

/-! ### Metadata -/

namespace Meta

theorem set_uid (m : Meta) (uid : String) : (encode m).set "uid" (.str uid) = encode { m with uid := some uid } := by
  refine Json.set_record fun n => ?_
  by_cases hn : n = "uid"
  · subst hn
    simp [encode]
  · simp [hn]

theorem set_resourceVersion (m : Meta) (version : String) :
    (encode m).set "resourceVersion" (.str version) = encode { m with resourceVersion := some version } := by
  refine Json.set_record fun n => ?_
  by_cases hn : n = "resourceVersion"
  · subst hn
    simp [encode]
  · simp [hn]

/-- Metadata are read member by member. -/
theorem decode?_eq_some {ms : Json.Members} {m : Meta} :
    decode? (.obj ms) = some m ↔
      optional? ms "annotations" = some m.annotations ∧ optional? ms "creationTimestamp" = some m.creationTimestamp ∧
      optional? ms "deletionGracePeriodSeconds" = some m.deletionGracePeriodSeconds ∧
      optional? ms "deletionTimestamp" = some m.deletionTimestamp ∧ optional? ms "finalizers" = some m.finalizers ∧
      optional? ms "generateName" = some m.generateName ∧ optional? ms "generation" = some m.generation ∧
      optional? ms "labels" = some m.labels ∧ optional? ms "managedFields" = some m.managedFields ∧
      optional? ms "name" = some m.name ∧ optional? ms "namespace" = some m.ns ∧
      optional? ms "ownerReferences" = some m.ownerReferences ∧
      optional? ms "resourceVersion" = some m.resourceVersion ∧ optional? ms "selfLink" = some m.selfLink ∧
      optional? ms "uid" = some m.uid := by
  simp only [decode?, ↓bind_eq_some]
  constructor
  · rintro ⟨_, hms, _, h1, _, h2, _, h3, _, h4, _, h5, _, h6, _, h7, _, h8, _, h9, _, h10, _, h11, _, h12, _, h13, _, h14, _, h15,
      hm⟩
    cases hms
    cases hm
    exact ⟨h1, h2, h3, h4, h5, h6, h7, h8, h9, h10, h11, h12, h13, h14, h15⟩
  · rintro ⟨h1, h2, h3, h4, h5, h6, h7, h8, h9, h10, h11, h12, h13, h14, h15⟩
    exact ⟨ms, rfl, _, h1, _, h2, _, h3, _, h4, _, h5, _, h6, _, h7, _, h8, _, h9, _, h10, _, h11, _, h12, _, h13, _, h14, _, h15,
      rfl⟩

/-- What identifies an object is read from the members of its metadata. -/
theorem of_decode? {ms : Json.Members} {m : Meta} (h : decode? (.obj ms) = some m) :
    optional? ms "name" = some m.name ∧ optional? ms "namespace" = some m.ns ∧
      optional? ms "resourceVersion" = some m.resourceVersion := by
  obtain ⟨-, -, -, -, -, -, -, -, -, hname, hns, -, hversion, -, -⟩ := decode?_eq_some.1 h
  exact ⟨hname, hns, hversion⟩

/-- A version that is put into metadata is read from them, with the rest as it was. -/
theorem decode?_insert_version {ms : Json.Members} {m : Meta} (h : decode? (.obj ms) = some m) (version : String) :
    decode? (.obj (Entries.insert "resourceVersion" (.str version) ms)) = some { m with resourceVersion := some version } := by
  rw [decode?_eq_some] at h ⊢
  obtain ⟨h1, h2, h3, h4, h5, h6, h7, h8, h9, h10, h11, h12, -, h14, h15⟩ := h
  have hversion : (optional? (Entries.insert "resourceVersion" (.str version) ms) "resourceVersion" : Option (Option String)) =
      some (some version) :=
    optional?_insert_self
  simp only [optional?_insert_of_ne, ne_eq, String.reduceEq, not_false_eq_true, and_self, h1, h2, h3, h4, h5, h6, h7, h8, h9, h10,
    h11, h12, h14, h15, hversion]

end Meta

namespace Kind

theorem get?_metadata (k : Kind) (x : k.Object) : (k.encode x).get? "metadata" = some (Wire.encode (k.metadata x)) := by
  cases k with
  | _ =>
    refine (Json.get?_record _ _).trans ?_
    simp [metadata]

theorem set_metadata (k : Kind) (x : k.Object) (m : Meta) :
    (k.encode x).set "metadata" (Wire.encode m) = k.encode (k.withMetadata x m) := by
  cases k with
  | _ =>
    refine Json.set_record fun n => ?_
    by_cases hn : n = "metadata"
    · subst hn
      simp [withMetadata]
    · simp [withMetadata, hn]

/-- The metadata of an object that is read from a JSON object are read from its member. -/
theorem decode?_metadata {k : Kind} {members ms : Json.Members} {x : k.Object} (h : k.decode? (.obj members) = some x)
    (hm : Entries.find? "metadata" members = some (.obj ms)) : Wire.decode? (.obj ms) = some (k.metadata x) := by
  have hr : (required? members "metadata" : Option Meta) = Wire.decode? (.obj ms) := by
    rw [required?, hm]
    rfl
  have hl : (lenient? members "metadata" : Option Meta) = Wire.decode? (.obj ms) := by
    rw [lenient?, hm]
  cases k with
  | certificate | route =>
    simp only [Kind.decode?, Wire.decode?, Option.bind_eq_bind, Option.bind_eq_some_iff] at h
    obtain ⟨_, ho, m, hx, _, -, h⟩ := h
    cases ho
    cases h
    exact hr.symm.trans hx
  | managementIngress =>
    simp only [Kind.decode?, Wire.decode?, Option.bind_eq_bind, Option.bind_eq_some_iff] at h
    obtain ⟨_, ho, m, hx, _, -, _, -, h⟩ := h
    cases ho
    cases h
    exact hr.symm.trans hx
  | configMap =>
    simp only [Kind.decode?, Wire.decode?, Option.bind_eq_bind, Option.bind_eq_some_iff] at h
    obtain ⟨_, ho, _, -, _, -, m, hx, _, -, _, -, _, -, h⟩ := h
    cases ho
    cases h
    exact hl.symm.trans hx
  | secret =>
    simp only [Kind.decode?, Wire.decode?, Option.bind_eq_bind, Option.bind_eq_some_iff] at h
    obtain ⟨_, ho, _, -, _, -, m, hx, _, -, _, -, _, -, _, -, h⟩ := h
    cases ho
    cases h
    exact hl.symm.trans hx
  | service | deployment | pod =>
    simp only [Kind.decode?, Wire.decode?, Option.bind_eq_bind, Option.bind_eq_some_iff] at h
    obtain ⟨_, ho, _, -, _, -, m, hx, _, -, _, -, h⟩ := h
    cases ho
    cases h
    exact hl.symm.trans hx

end Kind

namespace Cluster

/-- A written object gets the next version. -/
theorem withVersion_encode (k : Kind) (x : k.Object) (version : String) :
    withMeta "resourceVersion" version (k.encode x) = k.encode (k.withVersion x version) := by
  rw [withMeta, Kind.get?_metadata, Option.getD_some, Meta.set_resourceVersion, Kind.set_metadata]
  rfl

/-- A written object gets an identity. -/
theorem withIdentity_encode (k : Kind) (x : k.Object) (uid : String) :
    withMeta "uid" uid (k.encode x) = k.encode (k.withMetadata x { k.metadata x with uid := some uid }) := by
  rw [withMeta, Kind.get?_metadata, Option.getD_some, Meta.set_uid, Kind.set_metadata]

/-! ### Services -/

/-- The service with an address. -/
def addressed (x : Service) (address : String) : Service :=
  { x with spec := some { x.spec.getD {} with clusterIP := some address } }

/-- A written service gets an address. -/
theorem set_address (x : Service) (address : String) :
    (Kind.encode .service x).set "spec"
        ((((Kind.encode .service x).get? "spec").getD .null).set "clusterIP" (.str address)) =
      Kind.encode .service (addressed x address) := by
  have hspec : (((Kind.encode .service x).get? "spec").getD .null).set "clusterIP" (.str address) =
      encode { x.spec.getD {} with clusterIP := some address } := by
    have hget : (Kind.encode .service x).get? "spec" = x.spec.map encode := by
      refine (Json.get?_record _ _).trans ?_
      simp
    rw [hget]
    cases x.spec with
    | none => rfl
    | some spec =>
      refine Json.set_record fun n => ?_
      by_cases hn : n = "clusterIP"
      · subst hn
        simp [encode]
      · simp [hn]
  rw [hspec]
  refine Json.set_record fun n => ?_
  by_cases hn : n = "spec"
  · subst hn
    simp [addressed]
  · simp [addressed, hn]

/-! ### Objects that are created -/

/-- The object as the server completes it when it is created. -/
def provided (k : Kind) (x : k.Object) : k.Object :=
  match k, x with
  | .service, x => if ((Kind.encode .service x).path? ["spec", "clusterIP"]).isNone then addressed x serviceAddress else x
  | _, x => x

/-- The object that the server keeps when one is created: completed, with an identity and a version. -/
def created (k : Kind) (x : k.Object) (uid version : String) : k.Object :=
  k.withVersion (k.withMetadata (provided k x) { k.metadata x with uid := some uid }) version

theorem metadata_provided (k : Kind) (x : k.Object) : k.metadata (provided k x) = k.metadata x := by
  cases k with
  | service =>
    simp only [provided]
    split <;> rfl
  | _ => rfl

theorem metadata_created (k : Kind) (x : k.Object) (uid version : String) :
    k.metadata (created k x uid version) = { k.metadata x with uid := some uid, resourceVersion := some version } := by
  simp only [created, Kind.withVersion, Kind.metadata_withMetadata]

/-- An object that is created is kept as it was written but for what only the server gives. -/
theorem completes_created (k : Kind) (x : k.Object) (uid version : String) : k.Completes x (created k x uid version) := by
  cases k with
  | service =>
    simp only [Kind.Completes, created, provided]
    split <;> rfl
  | _ => rfl

/-- What the server completes of a written object is the object that it completes. -/
theorem completed_encode (k : Kind) (x : k.Object) : completed k.name (k.encode x) = k.encode (provided k x) := by
  cases k with
  | service =>
    simp only [completed, provided]
    split
    · next hnone =>
      rw [if_pos (Bool.and_eq_true_iff.1 hnone).2]
      exact set_address x serviceAddress
    · next hsome => rw [if_neg fun hnone => hsome (Bool.and_eq_true_iff.2 ⟨rfl, hnone⟩)]
  | _ => exact if_neg fun hname => absurd (Bool.and_eq_true_iff.1 hname).1 (by decide)

/-- What the server keeps of a written object is the object that it keeps. -/
theorem created_encode (k : Kind) (x : k.Object) (uid version : String) :
    withMeta "resourceVersion" version (withMeta "uid" uid (completed k.name (k.encode x))) = k.encode (created k x uid version) := by
  rw [completed_encode, withIdentity_encode, withVersion_encode, metadata_provided]
  rfl

/-! ### Status -/

/-- A document into which a status is put, as the next version. -/
theorem withVersion_reported {members ms : Json.Members} (hm : Entries.find? "metadata" members = some (.obj ms)) (status : Json)
    (version : String) :
    withMeta "resourceVersion" version ((Json.obj members).set "status" status) =
      .obj (Entries.insert "metadata" (.obj (Entries.insert "resourceVersion" (.str version) ms))
        (Entries.insert "status" status members)) := by
  have hmeta : Entries.find? "metadata" (Entries.insert "status" status members) = some (.obj ms) := by
    rw [Entries.find?_insert, if_neg (by decide), hm]
  simp only [withMeta, Json.set, Json.get?, Json.members?, Option.getD_some, Option.bind_some, hmeta]

/-- A status that replaced another is read back, with the rest of the object as it was. -/
theorem decode?_reported {members ms : Json.Members} {live : ManagementIngress}
    (h : Kind.decode? .managementIngress (.obj members) = some live)
    (hm : Entries.find? "metadata" members = some (.obj ms)) {status : IngressStatus}
    (hs : decode? (encode status) = some status) (version : String) :
    Kind.decode? .managementIngress (withMeta "resourceVersion" version ((Json.obj members).set "status" (encode status))) =
      some { Kind.withVersion .managementIngress live version with status := some status } := by
  have hread := Kind.decode?_metadata h hm
  have hversion := Meta.decode?_insert_version hread version
  rw [withVersion_reported hm]
  simp only [Kind.decode?, decode?, Option.bind_eq_bind, Option.bind_eq_some_iff] at h
  obtain ⟨_, ho, m, -, spec, hspec, _, -, hlive⟩ := h
  cases ho
  cases hlive
  generalize hmembers : Entries.insert "metadata" (Json.obj (Entries.insert "resourceVersion" (.str version) ms))
    (Entries.insert "status" (encode status) members) = members'
  have hm' : (required? members' "metadata" : Option Meta) = some { m with resourceVersion := some version } := by
    rw [← hmembers, required?, Entries.find?_insert, if_pos Std.ReflCmp.compare_self]
    exact hversion
  have hspec' : (required? members' "spec" : Option IngressSpec) = some spec := by
    rw [← hmembers, required?_insert_of_ne (by decide), required?_insert_of_ne (by decide), hspec]
  have hs' : (optional? members' "status" : Option (Option IngressStatus)) = some (some status) := by
    rw [← hmembers, optional?_insert_of_ne (by decide), optional?_insert_self]
    exact congrArg (Option.map some) hs
  simp only [Kind.decode?, decode?, positional?, Option.bind_eq_bind, Option.bind_some]
  rw [hm', hspec', hs']
  rfl

/-! ### Documents that are filed -/

/-- Whether a document says that it belongs under a key, and of which version it is. -/
structure Filed (key : ObjectKey) (j : Json) : Prop where
  ns : j.path? ["metadata", "namespace"] = some (.str key.ns)
  name : j.path? ["metadata", "name"] = some (.str key.name)
  version : ∃ version, versionOf j = some (.str version)

/-- What is filed, member by member. -/
theorem Filed.members {key : ObjectKey} {j : Json} (h : Filed key j) :
    ∃ members ms version, j = .obj members ∧ Entries.find? "metadata" members = some (.obj ms) ∧
      Entries.find? "namespace" ms = some (.str key.ns) ∧ Entries.find? "name" ms = some (.str key.name) ∧
        Entries.find? "resourceVersion" ms = some (.str version) := by
  obtain ⟨members, ms, rfl, hm, hns⟩ := Json.path?_eq_some h.ns
  obtain ⟨version, hv⟩ := h.version
  have hname := h.name
  rw [Json.path?_obj hm] at hname
  rw [versionOf, Json.path?_obj hm] at hv
  exact ⟨members, ms, version, rfl, hm, hns, hname, hv⟩

/-- The object that is read from what is filed has the namespace and the name of the key, and the version of the document. -/
theorem Filed.of_decode? {key : ObjectKey} {j : Json} (h : Filed key j) {k : Kind} {x : k.Object} (hx : k.decode? j = some x) :
    (k.metadata x).ns = some key.ns ∧ (k.metadata x).name = some key.name ∧
      ∃ version, k.version x = some version ∧ versionOf j = some (.str version) := by
  obtain ⟨members, ms, version, rfl, hm, hns, hname, hv⟩ := h.members
  obtain ⟨h1, h2, h3⟩ := Meta.of_decode? (Kind.decode?_metadata hx hm)
  rw [Wire.optional?, hname] at h1
  rw [Wire.optional?, hns] at h2
  rw [Wire.optional?, hv] at h3
  refine ⟨(Option.some.inj h2).symm, (Option.some.inj h1).symm, version, (Option.some.inj h3).symm, ?_⟩
  rw [versionOf, Json.path?_obj hm, hv]

/-- What a written object says in its metadata. -/
theorem path?_encode (k : Kind) (x : k.Object) (name : String) :
    (k.encode x).path? ["metadata", name] = (Wire.encode (k.metadata x)).get? name := by
  rw [Json.path?, Kind.get?_metadata, Option.bind_some, Json.path?]
  cases Json.get? name (Wire.encode (k.metadata x)) <;> rfl

theorem versionOf_encode (k : Kind) (x : k.Object) : versionOf (k.encode x) = (k.version x).map .str := by
  rw [versionOf, path?_encode]
  refine (Json.get?_record _ _).trans ?_
  simp [Kind.version]
  rfl

/-- A written object of a version is filed under its key. -/
theorem filed_encode {k : Kind} {x : k.Object} {key : ObjectKey} {version : String}
    (hns : (k.metadata x).ns = some key.ns) (hname : (k.metadata x).name = some key.name)
    (hv : k.version x = some version) : Filed key (k.encode x) := by
  refine ⟨?_, ?_, version, ?_⟩
  · rw [path?_encode]
    refine (Json.get?_record _ _).trans ?_
    simp [hns]
    rfl
  · rw [path?_encode]
    refine (Json.get?_record _ _).trans ?_
    simp [hname]
    rfl
  · rw [versionOf_encode, hv]
    rfl

/-- What is filed stays so when its status is replaced. -/
theorem Filed.reported {key : ObjectKey} {j : Json} (h : Filed key j) (status : Json) (version : String) :
    Filed key (withMeta "resourceVersion" version (j.set "status" status)) := by
  obtain ⟨members, ms, _, rfl, hm, hns, hname, -⟩ := h.members
  rw [withVersion_reported hm]
  have hmeta : Entries.find? "metadata" (Entries.insert "metadata" (.obj (Entries.insert "resourceVersion" (.str version) ms))
      (Entries.insert "status" status members)) = some (.obj (Entries.insert "resourceVersion" (.str version) ms)) := by
    rw [Entries.find?_insert, if_pos Std.ReflCmp.compare_self]
  refine ⟨?_, ?_, version, ?_⟩
  · rw [Json.path?_obj hmeta, Entries.find?_insert, if_neg (by decide), hns]
  · rw [Json.path?_obj hmeta, Entries.find?_insert, if_neg (by decide), hname]
  · rw [versionOf, Json.path?_obj hmeta, Entries.find?_insert, if_pos Std.ReflCmp.compare_self]

end Cluster

end IngressOperator
