import IngressOperator.Resource.Kind
import IngressOperator.Text.Quoted

/-!
# Failures

What can go wrong, as causes. A `Failure` ends one operation; a `PassFailure` ends a pass and says which step it was. Each has
a message, which the status and the events of a custom resource show, and a label, by which metrics count it.
-/

namespace IngressOperator

/-- How the API server describes the failure of a request. -/
structure ApiAnswer where
  status : String := ""
  message : String := ""
  reason : String := ""
  code : Nat := 0
deriving DecidableEq, Inhabited

/-- The answer in words: message and reason, and all parts once more. -/
def ApiAnswer.text (a : ApiAnswer) : String :=
  s!"ApiError: {a.message}: {a.reason} (ErrorResponse \x7b status: {Quoted.quote a.status}, message: {Quoted.quote a.message}, "
    ++ s!"reason: {Quoted.quote a.reason}, code: {a.code} \x7d)"

/-- Metadata that an operation needs and an object lacks. -/
inductive MissingMetadata where
  | namespaceOf (kind name : String)
  | nameOf (kind : String)
  | stated (text : String)
deriving DecidableEq

/-- The missing metadata in words. -/
def MissingMetadata.text : MissingMetadata → String
  | namespaceOf kind name => s!"{kind} '{name}' has no namespace"
  | nameOf kind => s!"{kind} has no name"
  | stated text => text

/-- A value with which an operation cannot be carried out. -/
inductive BadArgument where
  /-- No image for the operand is named anywhere. -/
  | noOperandImage
  /-- The cluster is said to be without routes, but its domain is not given. -/
  | noDomainName
  /-- A wait that the clock cannot measure. -/
  | endlessWait
  /-- The object to be replaced is not the one that was read. -/
  | staleVersion (kind name : String)
  | stated (text : String)
deriving DecidableEq

/-- The bad argument in words. -/
def BadArgument.text : BadArgument → String
  | noOperandImage => "no operand image in spec.image or ICP_MANAGEMENT_INGRESS_IMAGE"
  | noDomainName => "'ibm-cpp-config' selects cncf but has no domain_name"
  | endlessWait => "wait timeout out of range: Source duration value is out of range for the target type"
  | staleVersion kind name => s!"{kind} '{name}' was modified, stale resourceVersion"
  | stated text => text

/-- The object from which a fact about the cluster is read. -/
inductive FactSource where
  | ingressController
  | dns
  | consoleConfig
deriving DecidableEq

/-- The source in words. -/
def FactSource.text : FactSource → String
  | ingressController => "ingresscontroller openshift-ingress-operator/default"
  | dns => "dns.operator.openshift.io/default"
  | consoleConfig => "openshift-console/console-config"

/-- Why a fact about the cluster could not be found. -/
inductive Undiscovered where
  | baseDomain
  | clusterDomain
  | apiServer
  /-- The source could not be read. -/
  | unreadable (source : FactSource) (answer : ApiAnswer)
  | noRouterDomain
  | noClusterDomain
  | noConsoleConfig
  | badConsoleConfig
  | badConsoleUrl (url : String)
  | stated (text : String)
deriving DecidableEq

/-- The key of the console's configuration. -/
def consoleConfigKey : String := "console-config.yaml"

/-- The reason in words. -/
def Undiscovered.text : Undiscovered → String
  | baseDomain => "route base domain not found"
  | clusterDomain => "cluster domain not found"
  | apiServer => "console api server not found"
  | unreadable source answer => s!"unable to read {source.text}: {answer.text}"
  | noRouterDomain => s!"{FactSource.ingressController.text} reports no router domain"
  | noClusterDomain => s!"{FactSource.dns.text} reports no cluster domain"
  | noConsoleConfig => s!"{FactSource.consoleConfig.text} has no {consoleConfigKey}"
  | badConsoleConfig => s!"unable to parse {consoleConfigKey}"
  | badConsoleUrl url => s!"console masterPublicURL '{url}' is not of the form https://host:port"
  | stated text => text

/-- Why an operation failed. -/
inductive Failure where
  /-- A text is not the JSON form of what it should be. -/
  | malformed (text : String)
  /-- The API server refused a request. -/
  | api (answer : ApiAnswer)
  | metadataMissing (what : MissingMetadata)
  | invalidArgument (what : BadArgument)
  /-- An object that was said to exist could not be read. -/
  | notFound (kind name : String)
  /-- What was waited for did not come within the given milliseconds. -/
  | timeout (what : String) (waited : Nat)
  | discovery (what : Undiscovered)
  | metrics (text : String)
deriving DecidableEq

namespace Failure

/-- The failure in words. -/
def message : Failure → String
  | malformed text => s!"JsonSerializationError: {text}"
  | api answer => s!"Kube Error: {answer.text}"
  | metadataMissing what => s!"MetadataMissing: {what.text}"
  | invalidArgument what => s!"InvalidArgument: {what.text}"
  | notFound kind name => s!"NotFound: {kind} '{name}' reported as existing but could not be read"
  | timeout what waited => s!"Timeout: gave up waiting for {what} after {waited / 1000}s"
  | discovery what => s!"DiscoveryError: {what.text}"
  | metrics text => s!"MetricsError: {text}"

/-- The name by which metrics count the failure. -/
def label : Failure → String
  | malformed _ => "json_serialization"
  | api _ => "kube"
  | metadataMissing _ => "metadata_missing"
  | invalidArgument _ => "invalid_argument"
  | notFound _ _ => "not_found"
  | timeout _ _ => "timeout"
  | discovery _ => "discovery"
  | metrics _ => "metrics"

end Failure

/-- The namespace and the name of an object; it must have both. -/
def Kind.key (k : Kind) (x : k.Object) : Except Failure (String × String) :=
  let m := k.metadata x
  match m.ns, m.name with
  | none, _ => .error (.metadataMissing (.namespaceOf k.name m.shownName))
  | some _, none => .error (.metadataMissing (.nameOf k.name))
  | some ns, some name => .ok (ns, name)

/-- Why a pass failed: in general, or in the step that keeps one kind of objects. -/
inductive PassFailure where
  | plain (cause : Failure)
  | step (kind : OwnedKind) (instanceName : String) (cause : Failure)
deriving DecidableEq

namespace PassFailure

/-- The failure in words. -/
def message : PassFailure → String
  | plain cause => s!"Standard Error: {cause.message}"
  | step kind instanceName cause => s!"unable to create or update {kind.name} for '{instanceName}': {cause.message}"

/-- The name by which metrics count the failure. -/
def label : PassFailure → String
  | plain cause => cause.label
  | step kind _ cause => s!"{kind.label}_{cause.label}"

end PassFailure

end IngressOperator
