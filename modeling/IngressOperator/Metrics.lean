import IngressOperator.Failure

/-!
# Metrics

How often the operator reconciled, for which custom resources, and how often it failed for which cause.
-/

namespace IngressOperator

/-- A family of counts, as it is published. -/
structure MetricFamily where
  help : String
  /-- The counts by their labels, in the order of the labels' names. -/
  series : Dict Nat
deriving DecidableEq

/-- The metrics of the operator. -/
structure Metrics where
  /-- Whether the metrics are published. -/
  registered : Bool := false
  reconciliations : Nat := 0
  /-- The passes that were timed, by custom resource. -/
  timed : Dict Nat := ∅
  /-- The failures by custom resource and cause. -/
  failures : Dict (Dict Nat) := ∅
deriving DecidableEq

instance : Inhabited Metrics := ⟨{}⟩

namespace Metrics

/-- Adds one to a count. -/
def increment (counts : Dict Nat) (key : String) : Dict Nat := counts.insert key ((counts.get? key).getD 0 + 1)

/-- Publishes the metrics; this can be done once. -/
def register (m : Metrics) : Except Failure Metrics :=
  if m.registered then .error (.metrics "Duplicate metrics collector registration attempted")
  else .ok { m with registered := true }

/-- Counts and times a call of the controller. -/
def measure (m : Metrics) (instanceName : String) : Metrics :=
  { m with reconciliations := m.reconciliations + 1, timed := increment m.timed instanceName }

/-- Counts a failure. -/
def countFailure (m : Metrics) (instanceName : String) (cause : PassFailure) : Metrics :=
  { m with
    failures := m.failures.insert instanceName (increment ((m.failures.get? instanceName).getD ∅) cause.label) }

/-- The published families that have a count. -/
def families (m : Metrics) : Dict MetricFamily :=
  if m.registered then
    let durations : Dict Nat := .ofList (m.timed.toList.map fun e => (s!"instance={e.1}", e.2))
    let errors : Dict Nat := .ofList (m.failures.toList.flatMap fun e =>
      e.2.toList.map fun f => (s!"error={f.1},instance={e.1}", f.2))
    let all := [
      ("management_ingress_reconcile_duration_seconds",
        (⟨"The duration of reconcile to complete in seconds", durations⟩ : MetricFamily)),
      ("management_ingress_reconcile_errors_total", ⟨"reconciliation errors", errors⟩),
      ("management_ingress_reconciliations_total", ⟨"reconciliations", .ofList [("", m.reconciliations)]⟩)]
    .ofList (all.filter fun f => !f.2.series.isEmpty)
  else ∅

end Metrics

end IngressOperator
