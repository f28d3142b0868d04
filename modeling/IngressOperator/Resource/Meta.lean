import IngressOperator.Resource.Carried
import IngressOperator.Time.Rfc3339

/-!
# Metadata

The parts that objects of every kind share: metadata, owners and label selectors. A member of theirs that must be there is read
leniently: absent or null, it has its default.
-/

namespace IngressOperator

open Wire

instance : Wire Instant where
  encode t := .str (Rfc3339.encode t)
  decode? j := j.str?.bind Rfc3339.decode?

/-- A point in time known to the second: it is read without its fraction. -/
structure Stamp where
  instant : Instant
  /-- A stamp has no fraction. -/
  whole : instant.truncated = instant
  inCalendar : instant.InCalendar
deriving DecidableEq

instance : Inhabited Stamp := ⟨default, rfl, by decide⟩

/-- The stamp of an instant. -/
def Stamp.ofInstant? (t : Instant) : Option Stamp :=
  if h : t.truncated.InCalendar then some ⟨t.truncated, t.truncated_truncated, h⟩ else none

instance : Wire Stamp where
  encode t := encode t.instant
  decode? j := (decode? j : Option Instant).bind Stamp.ofInstant?

/-- A number of a port or its name; likewise any count or share given by a number or a text. -/
inductive IntOrString where
  | int (value : Int32)
  | string (value : String)
deriving DecidableEq

instance : Inhabited IntOrString := ⟨.int 0⟩

instance : Wire IntOrString where
  encode
    | .int value => encode value
    | .string value => encode value
  decode?
    | .str value => some (.string value)
    | j => (decode? j).map .int

/-- The object on whose account another one exists. -/
structure OwnerReference where
  apiVersion : String := ""
  blockOwnerDeletion : Option Bool := none
  controller : Option Bool := none
  kind : String := ""
  name : String := ""
  uid : String := ""
deriving DecidableEq, Inhabited

instance : Wire OwnerReference where
  encode x := .record [
    always "apiVersion" x.apiVersion, present "blockOwnerDeletion" x.blockOwnerDeletion,
    present "controller" x.controller, always "kind" x.kind, always "name" x.name, always "uid" x.uid]
  decode? j := do
    let ms ← j.members?
    pure {
      apiVersion := ← lenient? ms "apiVersion", blockOwnerDeletion := ← optional? ms "blockOwnerDeletion",
      controller := ← optional? ms "controller", kind := ← lenient? ms "kind", name := ← lenient? ms "name",
      uid := ← lenient? ms "uid" }

/-- The fields that a manager of an object has set. The server tells them as objects of objects; here any JSON value is taken whose
numbers are integers. -/
structure FieldSet where
  json : Json
  ne_null : json ≠ .null
  regular : json.isRegular = true
deriving DecidableEq

instance : Inhabited FieldSet := ⟨.obj [], nofun, rfl⟩

instance : Wire FieldSet where
  encode s := s.json
  decode? j := if h : j ≠ .null ∧ j.isRegular = true then some ⟨j, h.1, h.2⟩ else none

/-- Which fields of an object one manager has set, and when. -/
structure ManagedFields where
  apiVersion : Option String := none
  fieldsType : Option String := none
  fieldsV1 : Option FieldSet := none
  manager : Option String := none
  operation : Option String := none
  subresource : Option String := none
  time : Option Stamp := none
deriving DecidableEq, Inhabited

instance : Wire ManagedFields where
  encode x := .record [
    present "apiVersion" x.apiVersion, present "fieldsType" x.fieldsType, present "fieldsV1" x.fieldsV1,
    present "manager" x.manager, present "operation" x.operation, present "subresource" x.subresource,
    present "time" x.time]
  decode? j := do
    let ms ← j.members?
    pure {
      apiVersion := ← optional? ms "apiVersion", fieldsType := ← optional? ms "fieldsType",
      fieldsV1 := ← optional? ms "fieldsV1", manager := ← optional? ms "manager", operation := ← optional? ms "operation",
      subresource := ← optional? ms "subresource", time := ← optional? ms "time" }

/-- What every object carries besides its content: its name, its labels and what the server keeps about it. -/
structure Meta where
  annotations : Option (Dict String) := none
  creationTimestamp : Option Stamp := none
  deletionGracePeriodSeconds : Option Int64 := none
  deletionTimestamp : Option Stamp := none
  finalizers : Option (List String) := none
  generateName : Option String := none
  generation : Option Int64 := none
  labels : Option (Dict String) := none
  managedFields : Option (List ManagedFields) := none
  name : Option String := none
  ns : Option String := none
  ownerReferences : Option (List OwnerReference) := none
  resourceVersion : Option String := none
  selfLink : Option String := none
  uid : Option String := none
deriving DecidableEq, Inhabited

instance : Wire Meta where
  encode x := .record [
    present "annotations" x.annotations, present "creationTimestamp" x.creationTimestamp,
    present "deletionGracePeriodSeconds" x.deletionGracePeriodSeconds, present "deletionTimestamp" x.deletionTimestamp,
    present "finalizers" x.finalizers, present "generateName" x.generateName, present "generation" x.generation,
    present "labels" x.labels, present "managedFields" x.managedFields, present "name" x.name, present "namespace" x.ns,
    present "ownerReferences" x.ownerReferences, present "resourceVersion" x.resourceVersion, present "selfLink" x.selfLink,
    present "uid" x.uid]
  decode? j := do
    let ms ← j.members?
    pure {
      annotations := ← optional? ms "annotations", creationTimestamp := ← optional? ms "creationTimestamp",
      deletionGracePeriodSeconds := ← optional? ms "deletionGracePeriodSeconds",
      deletionTimestamp := ← optional? ms "deletionTimestamp", finalizers := ← optional? ms "finalizers",
      generateName := ← optional? ms "generateName", generation := ← optional? ms "generation",
      labels := ← optional? ms "labels", managedFields := ← optional? ms "managedFields", name := ← optional? ms "name",
      ns := ← optional? ms "namespace", ownerReferences := ← optional? ms "ownerReferences",
      resourceVersion := ← optional? ms "resourceVersion", selfLink := ← optional? ms "selfLink",
      uid := ← optional? ms "uid" }

/-- The name that messages show: the name, else the beginning of a name to be generated, else nothing. -/
def Meta.shownName (m : Meta) : String := (m.name <|> m.generateName).getD ""

/-- A condition on one label. -/
structure SelectorRequirement where
  key : String := ""
  operator : String := ""
  values : Option (List String) := none
deriving DecidableEq, Inhabited

instance : Wire SelectorRequirement where
  encode x := .record [always "key" x.key, always "operator" x.operator, present "values" x.values]
  decode? j := do
    let ms ← j.members?
    pure { key := ← lenient? ms "key", operator := ← lenient? ms "operator", values := ← optional? ms "values" }

/-- Which objects a controller takes for its own, by their labels. -/
structure LabelSelector where
  matchExpressions : Option (List SelectorRequirement) := none
  matchLabels : Option (Dict String) := none
deriving DecidableEq, Inhabited

instance : Wire LabelSelector where
  encode x := .record [present "matchExpressions" x.matchExpressions, present "matchLabels" x.matchLabels]
  decode? j := do
    let ms ← j.members?
    pure { matchExpressions := ← optional? ms "matchExpressions", matchLabels := ← optional? ms "matchLabels" }

end IngressOperator
