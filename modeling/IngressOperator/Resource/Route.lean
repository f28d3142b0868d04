import IngressOperator.Resource.Meta
import IngressOperator.Resource.Unmodelled

/-!
# Routes

The route that leads from a host name of the cluster's router to a service. The operator knows the part of its specification
that it writes; all other members are kept.
-/

namespace IngressOperator

open Wire

/-- What a route leads to. -/
structure RouteTarget where
  kind : String := ""
  name : String := ""
  weight : Option Int32 := none
deriving DecidableEq, Inhabited

instance : Wire RouteTarget where
  encode x := .record [always "kind" x.kind, always "name" x.name, present "weight" x.weight]
  decode? j := do
    let ms ← positional? ["kind", "name", "weight"] j
    pure { kind := ← required? ms "kind", name := ← required? ms "name", weight := ← optional? ms "weight" }

/-- The port of the service that a route leads to. -/
structure RoutePort where
  targetPort : IntOrString
deriving DecidableEq, Inhabited

instance : Wire RoutePort where
  encode x := .record [always "targetPort" x.targetPort]
  decode? j := do
    let ms ← positional? ["targetPort"] j
    pure { targetPort := ← required? ms "targetPort" }

/-- Where the encryption of a route ends, and with which certificates. -/
structure RouteTls where
  termination : String := ""
  certificate : String := ""
  key : String := ""
  caCertificate : String := ""
  destinationCaCertificate : String := ""
  insecureEdgeTerminationPolicy : Option String := none
deriving DecidableEq, Inhabited

instance : Wire RouteTls where
  encode x := .record [
    always "termination" x.termination, text "certificate" x.certificate, text "key" x.key,
    text "caCertificate" x.caCertificate, text "destinationCaCertificate" x.destinationCaCertificate,
    present "insecureEdgeTerminationPolicy" x.insecureEdgeTerminationPolicy]
  decode? j := do
    let ms ← positional? ["termination", "certificate", "key", "caCertificate", "destinationCaCertificate",
      "insecureEdgeTerminationPolicy"] j
    pure {
      termination := ← required? ms "termination", certificate := ← defaulted? ms "certificate",
      key := ← defaulted? ms "key", caCertificate := ← defaulted? ms "caCertificate",
      destinationCaCertificate := ← defaulted? ms "destinationCaCertificate",
      insecureEdgeTerminationPolicy := ← optional? ms "insecureEdgeTerminationPolicy" }

/-- The names of the fields of a route's specification. -/
def RouteSpec.fields : List String := ["host", "to", "port", "tls", "wildcardPolicy"]

/-- The specification of a route. -/
structure RouteSpec where
  host : String := ""
  target : RouteTarget := {}
  port : Option RoutePort := none
  tls : Option RouteTls := none
  wildcardPolicy : Option String := none
  extra : Unmodelled RouteSpec.fields := ∅
deriving DecidableEq, Inhabited

instance : Wire RouteSpec where
  encode x := x.extra.fill [
    text "host" x.host, always "to" x.target, present "port" x.port, present "tls" x.tls,
    present "wildcardPolicy" x.wildcardPolicy]
  decode? j := do
    let ms ← j.members?
    pure {
      host := ← defaulted? ms "host", target := ← required? ms "to", port := ← optional? ms "port",
      tls := ← optional? ms "tls", wildcardPolicy := ← optional? ms "wildcardPolicy",
      extra := .ofMembers RouteSpec.fields ms }

/-- A route. -/
structure Route where
  metadata : Meta := {}
  spec : RouteSpec := {}
deriving DecidableEq, Inhabited

instance : Wire Route where
  encode x := .record [always "apiVersion" "route.openshift.io/v1", always "kind" "Route", always "metadata" x.metadata,
    always "spec" x.spec]
  decode? j := do
    let ms ← positional? ["metadata", "spec"] j
    pure { metadata := ← required? ms "metadata", spec := ← required? ms "spec" }

end IngressOperator
