import IngressOperator.Names
import IngressOperator.Resource.Certificate
import IngressOperator.Resource.Ingress

/-!
# Desired certificates
-/

namespace IngressOperator.Desired

/-- The metadata of an owned object. -/
def ownedMeta (ns name : String) : Meta := { name := some name, ns := some ns, labels := some Names.labels }

/-- The names of the service within the cluster, followed by those that a user adds. -/
def serviceDnsNames (ns : String) (extra : List String) : List String :=
  [Names.service, s!"{Names.service}.{ns}", s!"{Names.service}.{ns}.svc"] ++ extra

/-- The issuer of certificates: the namespace's, else the cluster's, else a default one; an issuer without a name counts as
none. -/
def issuerFor (cert : CertSpec) : CertIssuer :=
  (([cert.namespacedIssuer, cert.issuer].filterMap id).find? fun i => !i.name.isEmpty).getD ⟨Names.defaultIssuer, .issuer⟩

/-- A certificate that is issued into a secret. -/
def certificate (ns name secret : String) (dnsNames ipAddresses : List String) (issuer : CertIssuer) : Certificate :=
  { metadata := ownedMeta ns name
    spec := {
      commonName := some Names.app
      duration := some "8760h"
      renewBefore := some "24h"
      secretName := secret
      issuerRef := { name := issuer.name, kind := some issuer.kind.name, group := some "cert-manager.io" }
      dnsNames := dnsNames
      ipAddresses := ipAddresses
      usages := ["digital signature", "key encipherment", "server auth"] } }

/-- The certificate of the service. -/
def serviceCertificate (ns : String) (cert : CertSpec) : Certificate :=
  certificate ns Names.serviceCert Names.serviceSecret (serviceDnsNames ns cert.dnsNames) cert.ipAddresses (issuerFor cert)

/-- The certificate of the console route. -/
def routeCertificate (ns host : String) (cert : CertSpec) : Certificate :=
  certificate ns Names.routeCert Names.routeSecret [host] [] (issuerFor cert)

end IngressOperator.Desired
