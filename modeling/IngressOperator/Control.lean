import IngressOperator.Metrics
import IngressOperator.Pass

/-!
# The controller

What happens when a custom resource has changed: unless it is being deleted or not managed, a pass is run, and what it did is
told in events: one for every object that was written, or one for the failure.
-/

namespace IngressOperator

/-- When a custom resource is looked at again. -/
inductive Next where
  | awaitChange
  | requeue (seconds : Nat)
deriving DecidableEq

/-- When it is, in words. -/
def Next.text : Next → String
  | awaitChange => "await_change"
  | requeue seconds => s!"requeue {seconds}s"

/-- The event of an object that was written. -/
def Synced.event? (s : Synced) : Option Event :=
  match s.outcome with
  | .created =>
    some ⟨.normal, s!"Created{s.kind.name}", "Create", s!"Successfully created {s.kind.name} '{s.name}'"⟩
  | .updated =>
    some ⟨.normal, s!"Updated{s.kind.name}", "Update", s!"Successfully updated {s.kind.name} '{s.name}'"⟩
  | .unchanged | .existing => none

/-- The event of a pass that failed. -/
def PassFailure.event (cause : PassFailure) : Event := ⟨.warning, "ReconcileFailed", "Reconciling", cause.message⟩

namespace Control

/-- What the controller keeps between two calls. -/
structure State where
  metrics : Metrics := {}
  /-- When it was called last. -/
  lastCall : Option Instant := none
deriving DecidableEq

instance : Inhabited State := ⟨{}⟩

/-- Publishes events one after the other. -/
def publishAll (ingress : ManagementIngress) : List Event → Proc Unit
  | [] => pure ()
  | e :: es => do
    Proc.request (.publish ingress e)
    publishAll ingress es

/-- Runs a pass and tells what it did. -/
def serve (setup : Setup) (ingress : ManagementIngress) : Proc (Except PassFailure Next) := do
  match ← Pass.run setup ingress with
  | .ok (.completed synced) =>
    publishAll ingress (synced.filterMap Synced.event?)
    pure (.ok .awaitChange)
  | .ok (.requeue seconds) => pure (.ok (.requeue seconds))
  | .error cause =>
    publishAll ingress [cause.event]
    pure (.error cause)

/-- Serves a custom resource that has changed. -/
def reconcile (setup : Setup) (state : State) (ingress : ManagementIngress) :
    Proc (State × Except PassFailure Next) := do
  let now ← Proc.request .now
  let state := { metrics := state.metrics.measure ingress.metadata.shownName, lastCall := some now }
  if ingress.isDeleting || !ingress.isManaged then pure (state, .ok .awaitChange)
  else do
    let result ← serve setup ingress
    pure (state, result)

end Control

end IngressOperator
