import IngressOperator.Resource.Pod

/-!
# Deployments

The workload that keeps the pods of the operand running.
-/

namespace IngressOperator

open Wire

/-- The pods that a workload starts. -/
structure PodTemplate where
  metadata : Option Meta := none
  spec : Option PodSpec := none
deriving DecidableEq, Inhabited

instance : Wire PodTemplate where
  encode x := .record [present "metadata" x.metadata, present "spec" x.spec]
  decode? j := do
    let ms ← j.members?
    pure { metadata := ← optional? ms "metadata", spec := ← optional? ms "spec" }

/-- How many pods may be missing or in excess while pods are replaced. -/
structure RollingUpdate where
  maxSurge : Option IntOrString := none
  maxUnavailable : Option IntOrString := none
deriving DecidableEq, Inhabited

instance : Wire RollingUpdate where
  encode x := .record [present "maxSurge" x.maxSurge, present "maxUnavailable" x.maxUnavailable]
  decode? j := do
    let ms ← j.members?
    pure { maxSurge := ← optional? ms "maxSurge", maxUnavailable := ← optional? ms "maxUnavailable" }

/-- How pods are replaced. -/
structure DeploymentStrategy where
  rollingUpdate : Option RollingUpdate := none
  type : Option String := none
deriving DecidableEq, Inhabited

instance : Wire DeploymentStrategy where
  encode x := .record [present "rollingUpdate" x.rollingUpdate, present "type" x.type]
  decode? j := do
    let ms ← j.members?
    pure { rollingUpdate := ← optional? ms "rollingUpdate", type := ← optional? ms "type" }

/-- How many pods of which template a deployment runs. -/
structure DeploymentSpec where
  minReadySeconds : Option Int32 := none
  paused : Option Bool := none
  progressDeadlineSeconds : Option Int32 := none
  replicas : Option Int32 := none
  revisionHistoryLimit : Option Int32 := none
  selector : LabelSelector := default
  strategy : Option DeploymentStrategy := none
  template : PodTemplate := default
deriving DecidableEq, Inhabited

instance : Wire DeploymentSpec where
  encode x := .record [
    present "minReadySeconds" x.minReadySeconds, present "paused" x.paused,
    present "progressDeadlineSeconds" x.progressDeadlineSeconds, present "replicas" x.replicas,
    present "revisionHistoryLimit" x.revisionHistoryLimit, always "selector" x.selector,
    present "strategy" x.strategy, always "template" x.template]
  decode? j := do
    let ms ← j.members?
    pure {
      minReadySeconds := ← optional? ms "minReadySeconds", paused := ← optional? ms "paused",
      progressDeadlineSeconds := ← optional? ms "progressDeadlineSeconds", replicas := ← optional? ms "replicas",
      revisionHistoryLimit := ← optional? ms "revisionHistoryLimit", selector := ← lenient? ms "selector",
      strategy := ← optional? ms "strategy", template := ← lenient? ms "template" }

/-- Something that is or is not true of a deployment. -/
abbrev DeploymentCondition := Carried [
  .optional "lastTransitionTime" Stamp, .optional "lastUpdateTime" Stamp, .optional "message" String,
  .optional "reason" String, .always "status" String, .always "type" String]

/-- How many pods of a deployment run. -/
structure DeploymentStatus where
  availableReplicas : Option Int32 := none
  collisionCount : Option Int32 := none
  conditions : Option (List DeploymentCondition) := none
  observedGeneration : Option Int64 := none
  readyReplicas : Option Int32 := none
  replicas : Option Int32 := none
  terminatingReplicas : Option Int32 := none
  unavailableReplicas : Option Int32 := none
  updatedReplicas : Option Int32 := none
deriving DecidableEq, Inhabited

instance : Wire DeploymentStatus where
  encode x := .record [
    present "availableReplicas" x.availableReplicas, present "collisionCount" x.collisionCount,
    present "conditions" x.conditions, present "observedGeneration" x.observedGeneration,
    present "readyReplicas" x.readyReplicas, present "replicas" x.replicas,
    present "terminatingReplicas" x.terminatingReplicas, present "unavailableReplicas" x.unavailableReplicas,
    present "updatedReplicas" x.updatedReplicas]
  decode? j := do
    let ms ← j.members?
    pure {
      availableReplicas := ← optional? ms "availableReplicas", collisionCount := ← optional? ms "collisionCount",
      conditions := ← optional? ms "conditions", observedGeneration := ← optional? ms "observedGeneration",
      readyReplicas := ← optional? ms "readyReplicas", replicas := ← optional? ms "replicas",
      terminatingReplicas := ← optional? ms "terminatingReplicas",
      unavailableReplicas := ← optional? ms "unavailableReplicas", updatedReplicas := ← optional? ms "updatedReplicas" }

/-- A deployment. -/
structure Deployment where
  metadata : Meta := {}
  spec : Option DeploymentSpec := none
  status : Option DeploymentStatus := none
deriving DecidableEq, Inhabited

instance : Wire Deployment where
  encode x := .record [always "apiVersion" "apps/v1", always "kind" "Deployment", always "metadata" x.metadata,
    present "spec" x.spec, present "status" x.status]
  decode? j := do
    let ms ← j.members?
    fixed? ms "apiVersion" "apps/v1"
    fixed? ms "kind" "Deployment"
    pure { metadata := ← lenient? ms "metadata", spec := ← optional? ms "spec", status := ← optional? ms "status" }

end IngressOperator
