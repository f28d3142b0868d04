import IngressOperator.Cluster.Direct
import IngressOperator.Console
import IngressOperator.Text.FormEncoded

/-!
# Access over HTTP

Programs run on a cluster through its API server. Every request is an HTTP request for a resource; what the server refuses comes
back as an answer with a code, and some of these answers mean no failure to the caller: what is not found is absent, what cannot
be created because it exists does exist, and what cannot be deleted because it is gone is gone. Facts about the cluster are read
from the objects that publish them.
-/

namespace IngressOperator.Cluster.Http

/-! ### Paths -/

/-- The path of the group and version of a kind. -/
def groupPath : Kind → String
  | .configMap | .secret | .service | .pod => "/api/v1"
  | .deployment => "/apis/apps/v1"
  | .route => "/apis/route.openshift.io/v1"
  | .certificate => "/apis/cert-manager.io/v1"
  | .managementIngress => s!"/apis/{ManagementIngress.apiVersion}"

/-- The name of the objects of a kind in paths. -/
def plural : Kind → String
  | .configMap => "configmaps"
  | .secret => "secrets"
  | .service => "services"
  | .pod => "pods"
  | .deployment => "deployments"
  | .route => "routes"
  | .certificate => "certificates"
  | .managementIngress => "managementingresses"

/-- The path of the objects of a kind in a namespace. -/
def collection (kind : Kind) (ns : String) : String := s!"{groupPath kind}/namespaces/{ns}/{plural kind}"

/-- The path of an object. -/
def path (kind : Kind) (ns name : String) : String := s!"{collection kind ns}/{name}"

/-- The path of the resources of the cluster's own operators. -/
def platformPath : String := "/apis/operator.openshift.io/v1"

/-- What is asked of a list of objects. -/
def listQuery (labels : String) : String := s!"labelSelector={FormEncoded.encode labels}"

/-- How a status is written: by this operator, whoever wrote it before. -/
def statusQuery : String := s!"force=true&fieldManager={Names.fieldManager}"

/-! ### Requests -/

/-- Serves an HTTP request for an object unless a fault makes it fail. -/
def serve {α : Type} (verb : Verb) (call : Call) (key : ObjectKey) (act : Cluster → Except ApiAnswer α × Cluster)
    (c : Cluster) : Except ApiAnswer α × Cluster :=
  match c.receive call verb key.kind key.name with
  | (some fault, c) => (.error fault.answer, c)
  | (none, c) => act c

/-- What a write comes to. -/
def written (key : ObjectKey) (c : Cluster) : Except Refusal Cluster → Except ApiAnswer Unit × Cluster
  | .ok c => (.ok (), c)
  | .error refusal => (.error (refusal.answer key.kind key.name), c)

/-- Reads the object of a key. -/
def fetch (path : String) (key : ObjectKey) : Cluster → Except ApiAnswer Json × Cluster :=
  serve .get (.http "GET" path "") key fun c =>
    match c.objects.get? key with
    | some object => (.ok object, c)
    | none => (.error (Refusal.notFound.answer key.kind key.name), c)

/-- Lists the objects of a namespace that carry certain labels. -/
def fetchAll (kind : Kind) (ns labels : String) : Cluster → Except ApiAnswer (List Json) × Cluster :=
  serve .list (.http "GET" (collection kind ns) (listQuery labels)) ⟨kind.name, ns, ""⟩ fun c =>
    (.ok (c.list kind.name ns labels), c)

/-- Creates an object. -/
def post (kind : Kind) (key : ObjectKey) (object : Json) : Cluster → Except ApiAnswer Unit × Cluster :=
  serve .create (.http "POST" (collection kind key.ns) "") key fun c => written key c (c.create key object)

/-- Replaces an object. -/
def put (kind : Kind) (key : ObjectKey) (object : Json) : Cluster → Except ApiAnswer Unit × Cluster :=
  serve .update (.http "PUT" (path kind key.ns key.name) "") key fun c => written key c (c.update key object)

/-- Deletes an object. -/
def delete (kind : Kind) (key : ObjectKey) : Cluster → Except ApiAnswer Unit × Cluster :=
  serve .delete (.http "DELETE" (path kind key.ns key.name) "") key fun c => written key c (c.delete key)

/-- Replaces the status of an object. -/
def patchStatus (kind : Kind) (key : ObjectKey) (status : Json) : Cluster → Except ApiAnswer Unit × Cluster :=
  serve .status (.http "PATCH" s!"{path kind key.ns key.name}/status" statusQuery) key fun c =>
    written key c (c.updateStatus key status)

/-! ### Facts -/

/-- A text that an object publishes in its status. -/
def published (source : FactSource) (member : String) (missing : Undiscovered) (found : Except ApiAnswer Json) :
    Except Failure String :=
  match found with
  | .error answer => .error (.discovery (.unreadable source answer))
  | .ok object =>
    match ((object.path? ["status", member]).bind Json.str?).filter fun s => !s.isEmpty with
    | some text => .ok text
    | none => .error (.discovery missing)

/-- The domain under which the router publishes routes. -/
def baseDomain (c : Cluster) : Except Failure String × Cluster :=
  let (found, c) := fetch s!"{platformPath}/namespaces/{Names.routerNamespace}/ingresscontrollers/{Names.clusterDefault}"
    ⟨"IngressController", Names.routerNamespace, Names.clusterDefault⟩ c
  (published .ingressController "domain" .noRouterDomain found, c)

/-- The domain of names within the cluster. -/
def clusterDomain (c : Cluster) : Except Failure String × Cluster :=
  let (found, c) := fetch s!"{platformPath}/dnses/{Names.clusterDefault}" ⟨"DNS", "", Names.clusterDefault⟩ c
  (published .dns "clusterDomain" .noClusterDomain found, c)

/-- The address of the API server in the configuration of the console. -/
def consoleAddress (config : ConfigMap) : Except Failure ApiAddress :=
  match (config.data.getD ∅).get? consoleConfigKey with
  | none => .error (.discovery .noConsoleConfig)
  | some text => Console.read text

/-- The address of the API server. -/
def apiServer (c : Cluster) : Except Failure ApiAddress × Cluster :=
  let ns := Names.consoleNamespace
  let (found, c) := fetch (path .configMap ns Names.consoleConfig) ⟨Kind.configMap.name, ns, Names.consoleConfig⟩ c
  let address := match found with
    | .error answer => .error (.discovery (.unreadable .consoleConfig answer))
    | .ok object => read .configMap object >>= consoleAddress
  (address, c)

/-! ### Answers -/

/-- The object that was read, or none if there is none of its name. -/
def found (kind : Kind) : Except ApiAnswer Json → Except Failure (Option kind.Object)
  | .ok object => (read kind object).map some
  | .error answer => if answer.reason = "NotFound" then .ok none else .error (.api answer)

/-- Whether an object was created, or could not be because there is one of its name. -/
def created : Except ApiAnswer Unit → Except Failure Creation
  | .ok () => .ok .new
  | .error answer => if answer.code = 409 then .ok .alreadyExists else .error (.api answer)

/-- That an object is gone. -/
def deleted : Except ApiAnswer Unit → Except Failure Unit
  | .ok () => .ok ()
  | .error answer => if answer.code = 404 then .ok () else .error (.api answer)

/-- Carries out a write of an object that says itself where it belongs. -/
def withKey {α : Type} (key : Except Failure ObjectKey) (act : ObjectKey → Cluster → Except Failure α × Cluster)
    (c : Cluster) : Except Failure α × Cluster :=
  match key with
  | .error missing => (.error missing, c)
  | .ok key => act key c

/-- Answers requests through the API server. -/
def handler : Proc.Handler Cluster
  | .get kind ns name, c =>
    let (answer, c) := fetch (path kind ns name) ⟨kind.name, ns, name⟩ c
    (found kind answer, c)
  | .list kind ns labels, c =>
    let (answer, c) := fetchAll kind ns labels c
    (answer.mapError .api >>= fun objects => objects.mapM (read kind), c)
  | .create kind object, c =>
    withKey (keyOf kind object) (fun key c =>
      let (answer, c) := post kind key (kind.encode object) c
      (created answer, c)) c
  | .update kind object, c =>
    withKey (keyOf kind object) (fun key c =>
      let (answer, c) := put kind key (kind.encode object) c
      (answer.mapError .api >>= fun () => read kind ((c.objects.get? key).getD .null), c)) c
  | .delete kind ns name, c =>
    let (answer, c) := delete kind ⟨kind.name, ns, name⟩ c
    (deleted answer, c)
  | .updateStatus ingress status, c =>
    withKey (keyOf .managementIngress ingress) (fun key c =>
      let (answer, c) := patchStatus .managementIngress key (Wire.encode status) c
      (answer.mapError .api, c)) c
  | .baseDomain, c => baseDomain c
  | .clusterDomain, c => clusterDomain c
  | .apiServer, c => apiServer c
  | .now, c => (c.now, c)
  | .sleep millis, c => ((), c.pass millis)
  | .publish ingress event, c => ((), c.publish ingress event)

end IngressOperator.Cluster.Http
