import IngressOperator.Desired.Config
import IngressOperator.Resource.Route
import IngressOperator.Resource.Service
import IngressOperator.Text.Utf8

/-!
# Desired service and routes
-/

namespace IngressOperator.Desired

/-- The service in front of the operand. -/
def service (ns : String) : Service :=
  { metadata := ownedMeta ns Names.service
    spec := some {
      selector := some (.ofList [("component", Names.app)])
      ports := some [{ name := some "https", port := 443, protocol := some "TCP", targetPort := some (.string "https") }] } }

/-- The certificates with which a route encrypts anew what it has decrypted. -/
structure TlsMaterial where
  certificate : String := ""
  key : String := ""
  caCertificate : String := ""
  destinationCaCertificate : String := ""
deriving DecidableEq, Inhabited

namespace TlsMaterial

/-- The material in the secrets of the route and of the service. -/
def ofSecrets (routeSecret serviceSecret : Secret) : TlsMaterial :=
  { certificate := Utf8.decode (routeSecret.value "tls.crt")
    key := Utf8.decode (routeSecret.value "tls.key")
    caCertificate := Utf8.decode (routeSecret.value caKey)
    destinationCaCertificate := Utf8.decode (serviceSecret.value caKey) }

/-- Whether no part is missing. -/
def isComplete (m : TlsMaterial) : Bool :=
  !m.certificate.isEmpty && !m.key.isEmpty && !m.caCertificate.isEmpty && !m.destinationCaCertificate.isEmpty

end TlsMaterial

/-- The encryption of a route: anew, given all material for it, and else left to the service. -/
def routeTls (material : Option TlsMaterial) : RouteTls :=
  match material.filter TlsMaterial.isComplete with
  | some m =>
    { termination := "reencrypt", certificate := m.certificate, key := m.key, caCertificate := m.caCertificate,
      destinationCaCertificate := m.destinationCaCertificate, insecureEdgeTerminationPolicy := some "Redirect" }
  | none => { termination := "passthrough", insecureEdgeTerminationPolicy := some "Redirect" }

/-- A route to the https port of a service. -/
def route (ns name service host : String) (material : Option TlsMaterial) : Route :=
  { metadata := ownedMeta ns name
    spec := {
      host := host
      target := { kind := "Service", name := service }
      port := some ⟨.string "https"⟩
      tls := some (routeTls material) } }

end IngressOperator.Desired
