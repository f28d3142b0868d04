import IngressOperator.Resource.Certificate
import IngressOperator.Resource.Config
import IngressOperator.Resource.Deployment
import IngressOperator.Resource.Ingress
import IngressOperator.Resource.Route
import IngressOperator.Resource.Service

/-!
# Kinds

The kinds of objects that the operator reads or writes. `Kind.Object` gives for every kind the type of its objects, and the
rest of the module says what they have in common: a name and metadata, by which an object is found.
-/

namespace IngressOperator

/-- The kinds of objects that the operator reads or writes. -/
inductive Kind where
  | certificate
  | service
  | configMap
  | route
  | secret
  | deployment
  | pod
  | managementIngress
deriving DecidableEq, Inhabited

namespace Kind

/-- The objects of a kind. -/
abbrev Object : Kind → Type
  | certificate => Certificate
  | service => Service
  | configMap => ConfigMap
  | route => Route
  | secret => Secret
  | deployment => Deployment
  | pod => Pod
  | managementIngress => ManagementIngress

/-- The name of a kind. -/
def name : Kind → String
  | certificate => "Certificate"
  | service => "Service"
  | configMap => "ConfigMap"
  | route => "Route"
  | secret => "Secret"
  | deployment => "Deployment"
  | pod => "Pod"
  | managementIngress => ManagementIngress.kind

/-- All kinds. -/
def all : List Kind := [certificate, service, configMap, route, secret, deployment, pod, managementIngress]

/-- The kind of a name. -/
def ofName? (s : String) : Option Kind := all.find? fun k => k.name == s

/-- The metadata of an object. -/
def metadata : (k : Kind) → k.Object → Meta
  | certificate, x => Certificate.metadata x
  | service, x => Service.metadata x
  | configMap, x => ConfigMap.metadata x
  | route, x => Route.metadata x
  | secret, x => Secret.metadata x
  | deployment, x => Deployment.metadata x
  | pod, x => Pod.metadata x
  | managementIngress, x => ManagementIngress.metadata x

/-- The object with other metadata. -/
def withMetadata : (k : Kind) → k.Object → Meta → k.Object
  | certificate, x, m => ({ x with metadata := m } : Certificate)
  | service, x, m => ({ x with metadata := m } : Service)
  | configMap, x, m => ({ x with metadata := m } : ConfigMap)
  | route, x, m => ({ x with metadata := m } : Route)
  | secret, x, m => ({ x with metadata := m } : Secret)
  | deployment, x, m => ({ x with metadata := m } : Deployment)
  | pod, x, m => ({ x with metadata := m } : Pod)
  | managementIngress, x, m => ({ x with metadata := m } : ManagementIngress)

/-- The JSON form of an object. -/
def encode : (k : Kind) → k.Object → Json
  | certificate, x => Wire.encode (α := Certificate) x
  | service, x => Wire.encode (α := Service) x
  | configMap, x => Wire.encode (α := ConfigMap) x
  | route, x => Wire.encode (α := Route) x
  | secret, x => Wire.encode (α := Secret) x
  | deployment, x => Wire.encode (α := Deployment) x
  | pod, x => Wire.encode (α := Pod) x
  | managementIngress, x => Wire.encode (α := ManagementIngress) x

/-- The object of a kind that a JSON value stands for. -/
def decode? : (k : Kind) → Json → Option k.Object
  | certificate, j => Wire.decode? (α := Certificate) j
  | service, j => Wire.decode? (α := Service) j
  | configMap, j => Wire.decode? (α := ConfigMap) j
  | route, j => Wire.decode? (α := Route) j
  | secret, j => Wire.decode? (α := Secret) j
  | deployment, j => Wire.decode? (α := Deployment) j
  | pod, j => Wire.decode? (α := Pod) j
  | managementIngress, j => Wire.decode? (α := ManagementIngress) j

instance : (k : Kind) → DecidableEq k.Object
  | certificate => inferInstanceAs (DecidableEq Certificate)
  | service => inferInstanceAs (DecidableEq Service)
  | configMap => inferInstanceAs (DecidableEq ConfigMap)
  | route => inferInstanceAs (DecidableEq Route)
  | secret => inferInstanceAs (DecidableEq Secret)
  | deployment => inferInstanceAs (DecidableEq Deployment)
  | pod => inferInstanceAs (DecidableEq Pod)
  | managementIngress => inferInstanceAs (DecidableEq ManagementIngress)

@[simp] theorem metadata_withMetadata (k : Kind) (x : k.Object) (m : Meta) : k.metadata (k.withMetadata x m) = m := by
  cases k <;> rfl

theorem withMetadata_metadata (k : Kind) (x : k.Object) : k.withMetadata x (k.metadata x) = x := by
  cases k <;> rfl

end Kind

/-! ### Owned kinds -/

/-- The kinds of objects that the operator keeps as they should be; conditions are reported by these. -/
inductive OwnedKind where
  | certificate
  | service
  | configMap
  | route
  | secret
  | deployment
deriving DecidableEq, Inhabited

namespace OwnedKind

/-- The kind of the objects. -/
def kind : OwnedKind → Kind
  | certificate => .certificate
  | service => .service
  | configMap => .configMap
  | route => .route
  | secret => .secret
  | deployment => .deployment

/-- The name of the kind. -/
def name (k : OwnedKind) : String := k.kind.name

/-- The name of the kind as metrics show it. -/
def label : OwnedKind → String
  | certificate => "certificate"
  | service => "service"
  | configMap => "configmap"
  | route => "route"
  | secret => "secret"
  | deployment => "deployment"

/-- All owned kinds. -/
def all : List OwnedKind := [certificate, service, configMap, route, secret, deployment]

/-- The owned kind of a name. -/
def ofName? (s : String) : Option OwnedKind := all.find? fun k => k.name == s

end OwnedKind

end IngressOperator
