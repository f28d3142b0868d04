import IngressOperator.Cluster.Basic

/-!
# Direct access

Programs run on a cluster without a network in between: a call of the store is noted by what it does, and what the server refuses
is told as a failure of the store. Facts about the cluster are simply known.
-/

namespace IngressOperator.Cluster

/-- An object of a kind that is stored as it should be. -/
def read (kind : Kind) (object : Json) : Except Failure kind.Object :=
  match kind.decode? object with
  | some x => .ok x
  | none => .error (.malformed "malformed object")

/-- The metadata by which a call of the store finds an object. -/
def keyOf (kind : Kind) (object : kind.Object) : Except Failure ObjectKey :=
  (kind.key object).map fun k => ⟨kind.name, k.1, k.2⟩

namespace Direct

/-- How the store tells a refusal. -/
def failure (key : ObjectKey) : Refusal → Failure
  | .notFound => .notFound key.kind key.name
  | .alreadyExists => .api (Refusal.alreadyExists.answer key.kind key.name)
  | .modified => .invalidArgument (.staleVersion key.kind key.name)

/-- Serves a call of the store unless a fault makes it fail. -/
def serve {α : Type} (verb : Verb) (key : ObjectKey) (act : Cluster → Except Failure α × Cluster) (c : Cluster) :
    Except Failure α × Cluster :=
  match c.receive (.store verb key.kind key.ns key.name) verb key.kind key.name with
  | (some fault, c) => (.error fault.failure, c)
  | (none, c) => act c

/-- Serves a call for an object that says itself where it belongs. -/
def serveObject {α : Type} (verb : Verb) (key : Except Failure ObjectKey)
    (act : ObjectKey → Cluster → Except Failure α × Cluster) (c : Cluster) : Except Failure α × Cluster :=
  match key with
  | .error missing => (.error missing, c)
  | .ok key => serve verb key (act key) c

/-- Tells a fact, if it is known. -/
def tell {α : Type} (what : Fact) (fact : ClusterFacts → Option α) (unknown : Undiscovered) (c : Cluster) :
    Except Failure α × Cluster :=
  let answer := match fact c.facts with
    | some a => .ok a
    | none => .error (.discovery unknown)
  (answer, c.note (.fact what))

/-- Answers requests without a network. -/
def handler : Proc.Handler Cluster
  | .get kind ns name, c =>
    let key : ObjectKey := ⟨kind.name, ns, name⟩
    serve .get key (fun c => ((c.objects.get? key).mapM (read kind), c)) c
  | .list kind ns labels, c =>
    serve .list ⟨kind.name, ns, labels⟩ (fun c => ((c.list kind.name ns labels).mapM (read kind), c)) c
  | .create kind object, c =>
    serveObject .create (keyOf kind object) (fun key c =>
      match c.create key (kind.encode object) with
      | .ok c => (.ok .new, c)
      | .error _ => (.ok .alreadyExists, c)) c
  | .update kind object, c =>
    serveObject .update (keyOf kind object) (fun key c =>
      match c.update key (kind.encode object) with
      | .ok c => (read kind ((c.objects.get? key).getD .null), c)
      | .error refusal => (.error (failure key refusal), c)) c
  | .delete kind ns name, c =>
    let key : ObjectKey := ⟨kind.name, ns, name⟩
    serve .delete key (fun c => (.ok (), (c.delete key).toOption.getD c)) c
  | .updateStatus ingress status, c =>
    serveObject .status (keyOf .managementIngress ingress) (fun key c =>
      match c.updateStatus key (Wire.encode status) with
      | .ok c => (.ok (), c)
      | .error refusal => (.error (failure key refusal), c)) c
  | .baseDomain, c => tell .baseDomain (·.baseDomain) .baseDomain c
  | .clusterDomain, c => tell .clusterDomain (·.clusterDomain) .clusterDomain c
  | .apiServer, c => tell .apiServer (·.apiServer) .apiServer c
  | .now, c => (c.now, c)
  | .sleep millis, c => ((), c.pass millis)
  | .publish ingress event, c => ((), c.publish ingress event)

end Direct

end IngressOperator.Cluster
