import IngressOperator.Failure
import IngressOperator.Status.Condition

/-!
# Reporting

What the operator writes into the status of a custom resource: a mark for every kind of objects that a step kept or failed to
keep, the state of the operand, and its pods by how they fare.
-/

namespace IngressOperator

/-- The conditions that a failed step may leave. -/
def ConditionType.failures : List ConditionType := [.resourceFailedOnCreation, .waitingResource, .discoveringClusterInfo]

/-- The condition that a failure leaves. -/
def Failure.condition : Failure → ConditionType
  | .timeout _ _ => .waitingResource
  | .discovery _ => .discoveringClusterInfo
  | _ => .resourceFailedOnCreation

namespace IngressStatus

/-- The conditions reported for a kind. -/
def conditionsOf (s : IngressStatus) (kind : String) : List Condition := (s.conditions.get? kind).getD []

/-- Reports that the objects of a kind are as they should be. -/
def markReady (s : IngressStatus) (kind : String) (now : Instant) : IngressStatus :=
  let ready := (Condition.set ⟨.ready, .true, now, "Reconciled", ""⟩ (s.conditionsOf kind)).1
  let conditions := ConditionType.failures.foldl (fun cs t => (Condition.remove t cs).1) ready
  { s with conditions := s.conditions.insert kind conditions }

/-- Reports that the objects of a kind could not be kept as they should be. -/
def markFailed (s : IngressStatus) (kind : String) (failure : ConditionType) (message : String) (now : Instant) :
    IngressStatus :=
  let notReady := (Condition.set ⟨.ready, .false, now, failure.name, ""⟩ (s.conditionsOf kind)).1
  let conditions := (Condition.set ⟨failure, .true, now, "ReconcileFailed", message⟩ notReady).1
  { s with conditions := s.conditions.insert kind conditions }

/-- Reports how far the operand has come. -/
def withOperand (s : IngressStatus) (status : OperandStatus) (message : String) : IngressStatus :=
  { s with operandState := ⟨status, message⟩ }

end IngressStatus

/-! ### Pods -/

/-- The groups into which pods are sorted. -/
inductive PodGroup where
  | ready
  | failed
  | notReady
deriving DecidableEq

namespace Pod

/-- The name of a pod. -/
def name (p : Pod) : String := p.metadata.shownName

/-- Whether a pod has containers and all of them are ready. -/
def containersReady (p : Pod) : Bool :=
  match p.status.bind (·.containerStatuses) with
  | none => false
  | some cs => !cs.isEmpty && cs.all (·.ready)

/-- The group of a pod: it is ready if it runs and its containers are ready. -/
def group (p : Pod) : PodGroup :=
  match (p.status.bind (·.phase)).getD "" with
  | "Running" => if p.containersReady then .ready else .notReady
  | "Failed" => .failed
  | _ => .notReady

/-- The names of the pods of a group, in order. -/
def namesOf (pods : List Pod) (g : PodGroup) : List String :=
  ((pods.filter fun p => p.group == g).map name).mergeSort fun a b => a ≤ b

end Pod

/-- Reports the pods of the operand. -/
def IngressStatus.withPods (s : IngressStatus) (pods : List Pod) : IngressStatus :=
  { s with podState := ⟨Pod.namesOf pods .ready, Pod.namesOf pods .notReady, Pod.namesOf pods .failed⟩ }

end IngressOperator
