import IngressOperator.Resource.Meta
import IngressOperator.Resource.Unmodelled

/-!
# Certificates

The request for a certificate that is issued into a secret. The operator knows the part of its specification that it writes;
all other members are kept.
-/

namespace IngressOperator

open Wire

/-- Who issues a certificate. -/
structure IssuerRef where
  name : String := ""
  kind : Option String := none
  group : Option String := none
deriving DecidableEq, Inhabited

instance : Wire IssuerRef where
  encode x := .record [always "name" x.name, present "kind" x.kind, present "group" x.group]
  decode? j := do
    let ms ← positional? ["name", "kind", "group"] j
    pure { name := ← required? ms "name", kind := ← optional? ms "kind", group := ← optional? ms "group" }

/-- The names of the fields of a certificate's specification. -/
def CertificateSpec.fields : List String :=
  ["commonName", "duration", "renewBefore", "secretName", "issuerRef", "dnsNames", "ipAddresses", "usages"]

/-- The specification of a certificate. -/
structure CertificateSpec where
  commonName : Option String := none
  duration : Option String := none
  renewBefore : Option String := none
  secretName : String := ""
  issuerRef : IssuerRef := {}
  dnsNames : List String := []
  ipAddresses : List String := []
  usages : List String := []
  extra : Unmodelled CertificateSpec.fields := ∅
deriving DecidableEq, Inhabited

instance : Wire CertificateSpec where
  encode x := x.extra.fill [
    present "commonName" x.commonName, present "duration" x.duration, present "renewBefore" x.renewBefore,
    always "secretName" x.secretName, always "issuerRef" x.issuerRef, items "dnsNames" x.dnsNames,
    items "ipAddresses" x.ipAddresses, items "usages" x.usages]
  decode? j := do
    let ms ← j.members?
    pure {
      commonName := ← optional? ms "commonName", duration := ← optional? ms "duration",
      renewBefore := ← optional? ms "renewBefore", secretName := ← required? ms "secretName",
      issuerRef := ← required? ms "issuerRef", dnsNames := ← defaulted? ms "dnsNames",
      ipAddresses := ← defaulted? ms "ipAddresses", usages := ← defaulted? ms "usages",
      extra := .ofMembers CertificateSpec.fields ms }

/-- A certificate. -/
structure Certificate where
  metadata : Meta := {}
  spec : CertificateSpec := {}
deriving DecidableEq, Inhabited

instance : Wire Certificate where
  encode x := .record [always "apiVersion" "cert-manager.io/v1", always "kind" "Certificate", always "metadata" x.metadata,
    always "spec" x.spec]
  decode? j := do
    let ms ← positional? ["metadata", "spec"] j
    pure { metadata := ← required? ms "metadata", spec := ← required? ms "spec" }

end IngressOperator
