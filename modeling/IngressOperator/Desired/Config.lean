import IngressOperator.Desired.Certificate
import IngressOperator.Desired.Host
import IngressOperator.Resource.Config
import IngressOperator.Settings

/-!
# Desired config maps and secrets
-/

namespace IngressOperator

/-- The address of the API server as it is reached from outside. -/
structure ApiAddress where
  host : String
  port : String
deriving DecidableEq, Inhabited

namespace Desired

/-- A config map of the given texts. -/
def configMap (ns name : String) (data : Dict String) : ConfigMap :=
  { metadata := ownedMeta ns name, data := some data }

/-- Where the ingress is. -/
def bindInfo (host : String) : Dict String := .ofList [
  ("MANAGEMENT_INGRESS_ROUTE_HOST", host), ("MANAGEMENT_INGRESS_SERVICE_NAME", Names.service)]

/-- What every kind of cluster tells about itself. -/
def commonClusterInfo (settings : Settings) (ns address : String) : Dict String := .ofList [
  ("cluster_address", address),
  ("cluster_ca_domain", address),
  ("cluster_endpoint", s!"https://{Names.service}.{ns}.svc:443"),
  ("cluster_name", settings.clusterName),
  ("cluster_router_http_port", toString settings.routeHttpPort.toNat),
  ("cluster_router_https_port", toString settings.routeHttpsPort.toNat),
  ("version", settings.version),
  ("proxy_ingress_http_port", "80"),
  ("proxy_ingress_https_port", "443")]

/-- What a cluster with routes tells about itself. -/
def standardClusterInfo (settings : Settings) (ns host base : String) (api : ApiAddress) (proxyHost : String) : Dict String :=
  (commonClusterInfo settings ns host).insertMany [
    ("openshift_router_base_domain", base), ("cluster_kube_apiserver_host", api.host),
    ("cluster_kube_apiserver_port", api.port), ("proxy_address", proxyHost)]

/-- What a cluster without routes tells about itself; the port of its domain is told apart. -/
def plainClusterInfo (settings : Settings) (ns domain : String) : Dict String :=
  let (host, port) := Host.split domain
  let address := Host.plainConsole host
  let info := (commonClusterInfo settings ns address).insert "proxy_address" address
  match port with
  | some port => info.insert "cluster_node_port" port
  | none => info

/-- The key of the authority's certificate. -/
def caKey : String := "ca.crt"

/-- The secret with the authority that other components trust. -/
def clusterCa (ns : String) (ca : List UInt8) : Secret :=
  { metadata := ownedMeta ns Names.clusterCa, data := some (.ofList [(caKey, ⟨ca⟩)]) }

end Desired

end IngressOperator
