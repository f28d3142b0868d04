import IngressOperator.Drift.Object
import IngressOperator.Proc

/-!
# Keeping an object

An object is kept by trying to create it. If there is one of its name, the live object is read and brought to the desired one
where its tracked fields differ; an object without owners gets the custom resource for one. Nothing is written where nothing
differs.
-/

namespace IngressOperator

/-- What keeping an object came to. -/
inductive Outcome where
  | created
  | updated
  | unchanged
  /-- The object is only to exist, and it did. -/
  | existing
deriving DecidableEq, Inhabited

namespace Outcome

/-- The name of an outcome. -/
def name : Outcome → String
  | created => "Created"
  | updated => "Updated"
  | unchanged => "Unchanged"
  | existing => "Existing"

/-- Whether something was written. -/
def mutated : Outcome → Bool
  | created | updated => true
  | unchanged | existing => false

end Outcome

/-- What was done to one object. -/
structure Synced where
  kind : Kind
  name : String
  outcome : Outcome
deriving DecidableEq

/-- What was done, in words. -/
def Synced.text (s : Synced) : String := s!"{s.kind.name} '{s.name}' {s.outcome.name}"

namespace Kind

/-- The owners of an object. -/
def owners (k : Kind) (x : k.Object) : List OwnerReference := (k.metadata x).ownerReferences.getD []

/-- The object with other owners. -/
def withOwners (k : Kind) (x : k.Object) (refs : List OwnerReference) : k.Object :=
  k.withMetadata x { k.metadata x with ownerReferences := some refs }

end Kind

/-- The custom resource as an owner; it must have a name and an identity. -/
def ManagementIngress.ownerReference? (i : ManagementIngress) : Option OwnerReference := do
  let name ← i.metadata.name
  let uid ← i.metadata.uid
  pure { apiVersion := apiVersion, kind := kind, name := name, uid := uid, controller := some true }

/-- The desired object with the custom resource as its only owner, if that can be one. -/
def owned (owner : ManagementIngress) (k : Kind) (desired : k.Object) : k.Object :=
  match owner.ownerReference? with
  | some ref => k.withOwners desired [ref]
  | none => desired

/-- Whether a live object is to take over the owners of the desired one: it has none, and the other has. -/
def adopts (k : Kind) (live desired : k.Object) : Bool := (k.owners live).isEmpty && !(k.owners desired).isEmpty

/-- The live object, with the owners of the desired one if it takes them over. -/
def adopted (k : Kind) (live desired : k.Object) : k.Object :=
  if adopts k live desired then k.withOwners live (k.owners desired) else live

/-- Creates an object, or reads the one that has its name; `none` if it was created. -/
def createOrGet (k : Kind) (desired : k.Object) : Action (Option k.Object) := do
  let (ns, name) ← k.key desired
  match ← Action.create k desired with
  | .new => pure none
  | .alreadyExists =>
    match ← Action.get k ns name with
    | some live => pure (some live)
    | none => throw (.notFound k.name name)

/-- Keeps an object: creates it, or brings the live one to it. -/
def ensure (owner : ManagementIngress) (k : OwnedKind) (desired : k.kind.Object) : Action Synced := do
  let desired := owned owner k.kind desired
  let name := (k.kind.metadata desired).name.getD ""
  match ← createOrGet k.kind desired with
  | none => pure ⟨k.kind, name, .created⟩
  | some live =>
    let drift := Drift.object k live desired
    if !drift.changed && !adopts k.kind drift.merged desired then pure ⟨k.kind, name, .unchanged⟩
    else do
      let _ ← Action.update k.kind (adopted k.kind drift.merged desired)
      pure ⟨k.kind, name, .updated⟩

/-- Creates an object unless there is one of its name, which at most takes over its owners. -/
def ensureCreated (owner : ManagementIngress) (k : Kind) (desired : k.Object) : Action Synced := do
  let desired := owned owner k desired
  let name := (k.metadata desired).name.getD ""
  match ← createOrGet k desired with
  | none => pure ⟨k, name, .created⟩
  | some live =>
    if !adopts k live desired then pure ⟨k, name, .existing⟩
    else do
      let _ ← Action.update k (adopted k live desired)
      pure ⟨k, name, .updated⟩

end IngressOperator
