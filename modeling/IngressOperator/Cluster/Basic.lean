import IngressOperator.Cluster.Fault
import IngressOperator.Cluster.Objects
import IngressOperator.Proc

/-!
# Clusters

A cluster keeps objects, counts the writes and notes every call that reaches it. Each write takes the next number of the counter
for the version of its object, and only the version that is stored can be replaced. Objects may arrive later, names may be taken
although nothing is stored under them, and calls may be made to fail.

## Main statements

* `Cluster.get?_write`: a write touches the object of its key alone, and so does a deletion (`Cluster.get?_of_delete`).
* `Cluster.get?_of_update`: an object is replaced only if it is still the version that was read.
-/

namespace IngressOperator

/-! ### Calls -/

/-- A fact about the cluster that a pass may ask for. -/
inductive Fact where
  | baseDomain
  | clusterDomain
  | apiServer
deriving DecidableEq, Inhabited

/-- The name of a fact. -/
def Fact.name : Fact → String
  | baseDomain => "base_domain"
  | clusterDomain => "cluster_domain"
  | apiServer => "api_server"

/-- The name of a type of events. -/
def EventType.name : EventType → String
  | normal => "Normal"
  | warning => "Warning"

/-- A call that reached the cluster. -/
inductive Call where
  /-- A call of the store; a list has the labels for a name. -/
  | store (verb : Verb) (kind ns name : String)
  | fact (what : Fact)
  | http (method path query : String)
  /-- An event of an object that was sent for the given time. -/
  | event (method ns : String) (event : Event) (object : String) (count : Nat)
deriving DecidableEq

/-- The call in words. -/
def Call.text : Call → String
  | store verb kind ns name => s!"{verb.name} {kind} {ns}/{name}"
  | fact what => s!"discover {what.name}"
  | http method path query => if query.isEmpty then s!"{method} {path}" else s!"{method} {path}?{query}"
  | event method ns e object count =>
    s!"event {method} {ns} {e.type.name} {e.reason} {e.action} [{e.note}] {object} x{count}"

/-! ### The cluster -/

/-- What is known about a cluster without looking into its objects. -/
structure ClusterFacts where
  baseDomain : Option String := none
  clusterDomain : Option String := none
  apiServer : Option ApiAddress := none
deriving DecidableEq, Inhabited

/-- An object to be put into the cluster from outside. -/
structure Seed where
  key : ObjectKey
  object : Json
  /-- Whether the object keeps the identity and the version that it has. -/
  keepsMeta : Bool := false
deriving DecidableEq

/-- A cluster. -/
structure Cluster where
  objects : Objects := ∅
  /-- The number of writes. -/
  version : Nat := 0
  now : Instant := default
  /-- Names that cannot be given although nothing is stored under them. -/
  taken : List ObjectKey := []
  /-- Objects that come at a time. -/
  arrivals : List (Instant × Seed) := []
  faults : List Fault := []
  facts : ClusterFacts := {}
  /-- The events that were sent, with the number of times. -/
  events : List (Event × Nat) := []
  /-- The calls, newest first. -/
  calls : List Call := []

instance : Inhabited Cluster := ⟨{}⟩

namespace Cluster

/-! ### Writing -/

/-- Changes the metadata of an object. -/
def withMeta (name value : String) (object : Json) : Json :=
  object.set "metadata" (((object.get? "metadata").getD .null).set name (.str value))

/-- The version of an object. -/
def versionOf (object : Json) : Option Json := object.path? ["metadata", "resourceVersion"]

/-- Stores an object as the next version. -/
def write (c : Cluster) (key : ObjectKey) (object : Json) : Cluster :=
  { c with
    objects := c.objects.put key (withMeta "resourceVersion" (toString (c.version + 1)) object)
    version := c.version + 1 }

/-- Gives an object the identity of its name. -/
def identified (key : ObjectKey) (object : Json) : Json := withMeta "uid" s!"uid-{key.name}" object

/-- Puts an object into the cluster from outside. -/
def seed (c : Cluster) (s : Seed) : Cluster :=
  if s.keepsMeta then { c with objects := c.objects.put s.key s.object } else c.write s.key (identified s.key s.object)

/-- Puts the objects into the cluster whose time has come. -/
def arrive (c : Cluster) : Cluster :=
  let (due, later) := c.arrivals.partition fun a => a.1.notAfter c.now
  (due.map (·.2)).foldl seed { c with arrivals := later }

/-! ### The server -/

/-- The address that a service gets. -/
def serviceAddress : String := "10.0.0.10"

/-- An object as the server completes it when it is created: a service gets an address unless it has one. -/
def completed (kind : String) (object : Json) : Json :=
  if kind == Kind.service.name && (object.path? ["spec", "clusterIP"]).isNone then
    object.set "spec" (((object.get? "spec").getD .null).set "clusterIP" (.str serviceAddress))
  else object

/-- Creates an object unless its name is taken. -/
def create (c : Cluster) (key : ObjectKey) (object : Json) : Except Refusal Cluster :=
  if (c.objects.get? key).isSome || c.taken.contains key then .error .alreadyExists
  else .ok (c.write key (identified key (completed key.kind object)))

/-- Replaces an object of the same version. -/
def update (c : Cluster) (key : ObjectKey) (object : Json) : Except Refusal Cluster :=
  match c.objects.get? key with
  | none => .error .notFound
  | some stored => if versionOf stored = versionOf object then .ok (c.write key object) else .error .modified

/-- Deletes an object. -/
def delete (c : Cluster) (key : ObjectKey) : Except Refusal Cluster :=
  if (c.objects.get? key).isSome then .ok { c with objects := c.objects.erase key } else .error .notFound

/-- Replaces the status of an object. -/
def updateStatus (c : Cluster) (key : ObjectKey) (status : Json) : Except Refusal Cluster :=
  match c.objects.get? key with
  | none => .error .notFound
  | some stored => .ok (c.write key (stored.set "status" status))

/-- The labels that a selector asks for, with their values. -/
def selected (selector : String) : List (String × String) :=
  ((Text.splitAll ',' selector.toList).filter fun term => !term.isEmpty).map fun term =>
    match Text.splitFirst? '=' term with
    | some (label, value) => (String.ofList label, String.ofList value)
    | none => (String.ofList term, "")

/-- Whether an object carries the labels that a selector asks for. -/
def carries (selector : String) (object : Json) : Bool :=
  (selected selector).all fun term => object.path? ["metadata", "labels", term.1] == some (.str term.2)

/-- The objects of a namespace that carry certain labels, by name. -/
def list (c : Cluster) (kind ns selector : String) : List Json :=
  ((c.objects.within kind ns).toList.map (·.2)).filter (carries selector)

/-! ### Calls -/

/-- Notes a call. -/
def note (c : Cluster) (call : Call) : Cluster := { c with calls := call :: c.calls }

/-- Notes a call of the store, lets in what has arrived, and says which fault makes the call fail. -/
def receive (c : Cluster) (call : Call) (verb : Verb) (kind name : String) : Option Fault × Cluster :=
  let c := (c.note call).arrive
  let (struck, faults) := Fault.strike verb kind name c.faults
  (struck, { c with faults := faults })

/-- Lets time pass. -/
def pass (c : Cluster) (millis : Nat) : Cluster := { c with now := c.now.plus millis }

/-! ### Events -/

/-- Whether two events are of one kind: one that repeats another is counted with it. -/
def repeats (a b : Event) : Bool := a.type == b.type && a.action == b.action && a.reason == b.reason

/-- Sends an event, or, if one of its kind was sent before, that one with a higher count. An event that does not get through is
not counted. -/
def publish (c : Cluster) (ingress : ManagementIngress) (e : Event) : Cluster :=
  let ns := ingress.metadata.ns.getD "default"
  let name := ingress.metadata.name.getD ""
  let object := s!"{ManagementIngress.kind}/{name}"
  let (method, sent, count) :=
    match c.events.find? fun earlier => repeats earlier.1 e with
    | some (first, count) => ("PATCH", first, count + 1)
    | none => ("POST", e, 1)
  match c.receive (.event method ns sent object count) .event "Event" "" with
  | (some _, c) => c
  | (none, c) => { c with events := (sent, count) :: c.events.filter fun earlier => !repeats earlier.1 e }

/-- Forgets which events were sent. -/
def forgetEvents (c : Cluster) : Cluster := { c with events := [] }

/-! ### What a write changes -/

/-- A write is seen under its key and nowhere else. -/
theorem get?_write {c : Cluster} {key k : ObjectKey} {object : Json} :
    (c.write key object).objects.get? k =
      if k = key then some (withMeta "resourceVersion" (toString (c.version + 1)) object) else c.objects.get? k :=
  Objects.get?_put

/-- A write gives its object the next version. -/
theorem versionOf_withMeta {version : String} {object : Json} :
    versionOf (withMeta "resourceVersion" version object) = some (.str version) := by
  simp [versionOf, withMeta, Json.path?]

/-- An object is replaced only if it is still the version that was read, and nothing else changes. -/
theorem get?_of_update {c c' : Cluster} {key : ObjectKey} {object : Json} (h : c.update key object = .ok c') :
    (∃ stored, c.objects.get? key = some stored ∧ versionOf stored = versionOf object) ∧
      ∀ k, k ≠ key → c'.objects.get? k = c.objects.get? k := by
  unfold update at h
  split at h
  · cases h
  · next stored hs =>
    split at h
    · next hv =>
      cases h
      exact ⟨⟨stored, hs, hv⟩, fun k hk => by simp [get?_write, hk]⟩
    · cases h

/-- What is deleted is gone, and nothing else changes. -/
theorem get?_of_delete {c c' : Cluster} {key : ObjectKey} (h : c.delete key = .ok c') (k : ObjectKey) :
    c'.objects.get? k = if k = key then none else c.objects.get? k := by
  unfold delete at h
  split at h
  · cases h
    exact Objects.get?_erase
  · cases h

end Cluster

end IngressOperator
