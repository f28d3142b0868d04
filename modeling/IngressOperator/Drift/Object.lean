import IngressOperator.Drift.Pod
import IngressOperator.Resource.Kind

/-!
# Drift of objects

For every owned kind, the fields that the operator tracks: where one of them is not as desired, the live object takes it over;
all else stays as the server has it.
-/

namespace IngressOperator.Drift

/-- Brings the replicas and the pods of a deployment to those desired. -/
def deployment (live desired : Deployment) : Drift Deployment :=
  match desired.spec with
  | none => ⟨live, false⟩
  | some want =>
    let spec := live.spec.getD {}
    let replicas := spec.replicas == want.replicas
    match want.template.spec with
    | none => ⟨{ live with spec := some { spec with replicas := want.replicas } }, !replicas⟩
    | some pod =>
      let pod := podSpec (spec.template.spec.getD {}) pod
      { merged :=
          { live with
            spec := some
              { spec with replicas := want.replicas, template := { spec.template with spec := some pod.merged } } }
        changed := !replicas || pod.changed }

/-- Brings the ports and the selector of a service to those desired. -/
def service (live desired : Service) : Drift Service :=
  match desired.spec with
  | none => ⟨live, false⟩
  | some want =>
    let spec := live.spec.getD {}
    let ports := spec.ports == want.ports
    let selector := sameEntries spec.selector want.selector
    { merged :=
        { live with
          spec := some
            { spec with ports := want.ports, selector := keep selector spec.selector want.selector } }
      changed := !(ports && selector) }

/-- Brings the texts of a config map to those desired. -/
def configMap (live desired : ConfigMap) : Drift ConfigMap :=
  let data := sameEntries live.data desired.data
  ⟨{ live with data := keep data live.data desired.data }, !data⟩

/-- Brings the bytes of a secret to those desired. -/
def secret (live desired : Secret) : Drift Secret :=
  let data := sameEntries live.data desired.data
  ⟨{ live with data := keep data live.data desired.data }, !data⟩

/-- Brings host, target, port and encryption of a route to those desired; the weight of a target that stays is kept. -/
def route (live desired : Route) : Drift Route :=
  let want := desired.spec
  let host := live.spec.host == want.host
  let target := live.spec.target.kind == want.target.kind && live.spec.target.name == want.target.name
  let port := live.spec.port == want.port
  let tls := live.spec.tls == want.tls
  { merged :=
      { live with
        spec :=
          { live.spec with
            host := want.host, target := keep target live.spec.target want.target, port := want.port, tls := want.tls } }
    changed := !(host && target && port && tls) }

/-- Brings the specification of a certificate to the desired one, without the members that have no model. -/
def certificate (live desired : Certificate) : Drift Certificate :=
  let want := { desired.spec with extra := live.spec.extra }
  ⟨{ live with spec := want }, live.spec != want⟩

/-- Brings an object of an owned kind to the desired one. -/
def object : (k : OwnedKind) → k.kind.Object → k.kind.Object → Drift k.kind.Object
  | .certificate, live, desired => certificate live desired
  | .service, live, desired => service live desired
  | .configMap, live, desired => configMap live desired
  | .route, live, desired => route live desired
  | .secret, live, desired => secret live desired
  | .deployment, live, desired => deployment live desired

end IngressOperator.Drift
