import IngressOperator.SortedMap

/-!
# Names

The names of the objects that the operator writes and reads, and the labels and annotations that they carry.
-/

namespace IngressOperator.Names

/-! ### Owned objects -/

/-- The operand: the name of its deployment and the value of its labels. -/
def app : String := "management-ingress"

/-- The service in front of the operand. -/
def service : String := "icp-management-ingress"

/-- The configuration that the operand reads when it starts. -/
def config : String := "management-ingress-config"

/-- The config map that tells other components where the ingress is. -/
def bindInfo : String := "management-ingress-info"

/-- The config map that describes the cluster. -/
def clusterInfo : String := "ibmcloud-cluster-info"

/-- The secret with the authority that other components trust. -/
def clusterCa : String := "ibmcloud-cluster-ca-cert"

/-- The certificate of the service. -/
def serviceCert : String := "management-ingress-cert"

/-- The secret into which the service's certificate is issued. -/
def serviceSecret : String := "icp-management-ingress-tls-secret"

/-- The certificate of the console route. -/
def routeCert : String := "route-cert"

/-- The secret into which the route's certificate is issued. -/
def routeSecret : String := "route-tls-secret"

/-- The route of the console, and the first label of its host. -/
def consoleRoute : String := "cp-console"

/-- The route of the proxy, and the first label of its host. -/
def proxyRoute : String := "cp-proxy"

/-- The service behind the proxy route. -/
def proxyService : String := "nginx-ingress-controller"

/-! ### Other names -/

/-- The account under which the operand runs. -/
def serviceAccount : String := "management-ingress"

/-- A service whose names the operand accepts besides its own. -/
def iamTokenService : String := "iam-token-service"

/-- The issuer of certificates when a user names none. -/
def defaultIssuer : String := "cs-ca-issuer"

/-- The config map with the namespaces that the operand watches. -/
def namespaceScope : String := "namespace-scope"

/-- The config map of the identity provider. -/
def platformAuth : String := "platform-auth-idp"

/-- The secret with the credentials for the identity provider. -/
def platformCredentials : String := "platform-oidc-credentials"

/-- The config map that says what kind of cluster this is. -/
def platformConfig : String := "ibm-cpp-config"

/-- The namespace of the console. -/
def consoleNamespace : String := "openshift-console"

/-- The config map of the console. -/
def consoleConfig : String := "console-config"

/-- The namespace of the operator of the cluster's router. -/
def routerNamespace : String := "openshift-ingress-operator"

/-- The resource that describes the cluster's router, or its name service. -/
def clusterDefault : String := "default"

/-- The in-cluster domain of a cluster without routes. -/
def plainClusterDomain : String := "cluster.local"

/-- By this name the operator writes status and reports events. -/
def fieldManager : String := "management-ingress-operator"

/-! ### Labels and annotations -/

/-- The label that says which operator manages an object. -/
def managedByLabel : String := "app.kubernetes.io/managed-by"

/-- The annotation of the pod template that changes with the configuration. -/
def configUpdated : String := "management-ingress.operator.k8s.io/config-updated"

/-- The labels of every owned object. -/
def labels : Dict String := .ofList [
  ("app", app), ("component", app), ("app.kubernetes.io/component", app), ("app.kubernetes.io/name", app),
  ("app.kubernetes.io/instance", service), (managedByLabel, "ibm-management-ingress-operator")]

/-- The annotations by which the operand is metered. -/
def annotations : Dict String := .ofList [
  ("productName", "IBM Cloud Platform Common Services"), ("productID", "068a62892a1e4db39641342e592daa25"),
  ("productMetric", "FREE")]

end IngressOperator.Names
