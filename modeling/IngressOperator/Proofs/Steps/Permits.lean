import IngressOperator.Proofs.Steps.Parts

/-!
# What a pass may ask for

The requests of a pass by a plan are few: it looks, puts objects of its steps' names, deletes the deployment of the operand, and
reports its custom resource. What is allowed of all these is so of every request that a pass makes, on every branch that sensible
answers lead to.

## Main statements

* `Tracked.mem_objects`: what a step brings to a desired form is one of its objects.
* `Pass.Permits.entire`: a pass asks for nothing but what it is permitted.
-/

namespace IngressOperator

/-- The objects that a step of a pass for a custom resource may put: the certificate of the console route only if it is wanted. -/
def Step.objects (ingress : ManagementIngress) (ns : String) (step : Step) : List ObjectKey :=
  (step.targets ns).filter fun key => key != Kind.certificate.keyAt ns Names.routeCert || !ingress.spec.ignoreRouteCert

variable {ingress : ManagementIngress} {ns name : String}

/-- An object that is not the certificate of the console route is put regardless. -/
theorem Step.mem_objects {step : Step} {key : ObjectKey} (hm : key ∈ step.targets ns)
    (hne : key ≠ Kind.certificate.keyAt ns Names.routeCert) : key ∈ step.objects ingress ns := by
  refine List.mem_filter.2 ⟨hm, ?_⟩
  simp [hne]

theorem Step.mem_objects_of_kind {step : Step} {k : Kind} (hm : k.keyAt ns name ∈ step.targets ns) (hk : k ≠ .certificate) :
    k.keyAt ns name ∈ step.objects ingress ns :=
  mem_objects hm fun he => hk (Kind.keyAt_inj.1 he).1

/-- What a step brings to a desired form is one of its objects. -/
theorem Tracked.mem_objects {step : Step} {k : OwnedKind} {desired : k.kind.Object} (hw : Tracked ingress ns step k desired)
    (hk : k.kind.key desired = .ok (ns, name)) : k.kind.keyAt ns name ∈ step.objects ingress ns := by
  have hname := (Kind.key_eq_ok.1 hk).2
  cases hw with
  | routeCertificate hroute host =>
    cases hname
    refine List.mem_filter.2 ⟨.tail _ (.head _), ?_⟩
    simp [hroute]
  | _ =>
    cases hname
    refine Step.mem_objects ?_ ?_
    · simp [Step.targets, OwnedKind.kind]
    · simp [Kind.keyAt_inj, OwnedKind.kind, Names.serviceCert, Names.routeCert]

namespace Pass

/-- Whether a property of requests is one of all that a pass by a plan may make; it may ask what the cluster is like if `discovers`
holds. -/
structure Permits (plan : List Step) (discovers : Prop) (ingress : ManagementIngress) (ns : String) (P : Request → Prop) :
    Prop where
  observe : ∀ r : Request, r.Observes → P r
  discover : discovers → ∀ r : Request, r.Discovers → P r
  put : ∀ {step : Step}, step ∈ plan → ∀ {k : Kind} {x : k.Object} {key : ObjectKey}, key ∈ step.objects ingress ns →
    k.objectKey? x = some key → P (.create k x) ∧ P (.update k x)
  remove : P (.delete .deployment ns Names.app)
  report : ∀ status : IngressStatus, P (.updateStatus ingress status)

namespace Permits

variable {plan : List Step} {discovers : Prop} {P : Request → Prop} (hP : Permits plan discovers ingress ns P)

include hP

/-- Keeping one of its objects is permitted to a step. -/
theorem keeping {step : Step} (hm : step ∈ plan) {k : Kind} {desired : k.Object} {revise : k.Object → Option k.Object}
    {idle : Outcome} (hk : k.key desired = .ok (ns, name)) (hr : Settles k desired revise)
    (ho : k.keyAt ns name ∈ step.objects ingress ns) :
    (IngressOperator.keeping k desired revise idle).run.Asks ObjectStore.Sensible P := by
  have hcreate := (hP.put hm ho (Kind.objectKey?_eq.2 (Kind.key_eq_ok.1 hk))).1
  refine asks_keeping hk hcreate (hP.observe _ trivial) ?_
  intro live x hlive hx
  exact (hP.put hm ho (hr.objectKey? hx hlive)).2

theorem ensure {step : Step} (hm : step ∈ plan) {k : OwnedKind} {desired : k.kind.Object} (hd : Sought ns k desired)
    (hk : k.kind.key desired = .ok (ns, name)) (ho : k.kind.keyAt ns name ∈ step.objects ingress ns) :
    (IngressOperator.ensure ingress k desired).run.Asks ObjectStore.Sensible P := by
  rw [ensure_eq]
  exact hP.keeping hm (key_owned ingress hk) (settles_revision k (changed_owned ingress hd.same)) ho

/-- Replacing the pods of the operand is permitted to the step that keeps its configuration. -/
theorem restart (hm : Step.config ∈ plan) : (Steps.restart ns).run.Asks ObjectStore.Sensible P := by
  refine Steps.asks_restart (hP.observe _ trivial) (hP.observe _ trivial) ?_
  intro d hd now
  have hkey : Kind.objectKey? .deployment (Steps.stamped d now) = some (Kind.deployment.keyAt ns Names.app) := by
    rw [Steps.objectKey?_stamped]
    exact Kind.objectKey?_eq.2 hd
  have ho : Kind.deployment.keyAt ns Names.app ∈ Step.config.objects ingress ns :=
    Step.mem_objects_of_kind (.tail _ (.tail _ (.tail _ (.head _)))) nofun
  exact (hP.put hm ho hkey).2

/-- A pass asks for nothing but what it is permitted. -/
theorem entire : Entire plan discovers ingress ns fun p => p.Asks ObjectStore.Sensible P := by
  have hpeeks : Proc.Peeks discovers fun p => p.Asks ObjectStore.Sensible P := Proc.Asks.peeks hP.observe hP.discover
  refine { hpeeks with ensure := ?_, configuration := ?_, proxyRoute := ?_, legacy := ?_, report := ?_ }
  · intro step k desired hm hw
    obtain ⟨name, hk⟩ := hw.sought.key
    exact hP.ensure hm hw.sought hk (hw.mem_objects hk)
  · intro hm
    refine hpeeks.configMap rfl ?_ fun _ => hP.restart hm
    exact hP.ensure (k := .configMap) hm (sought_configMap rfl rfl) rfl (Step.mem_objects_of_kind (.head _) nofun)
  · intro hm host
    rw [ensureCreated_eq]
    refine hP.keeping hm (key_owned ingress rfl) (settles_adoption .route _) ?_
    exact Step.mem_objects_of_kind (.tail _ (.tail _ (.head _))) nofun
  · exact hpeeks.removeLegacy (Proc.Asks.request hP.remove)
  · intro status
    exact Proc.Asks.request (hP.report status)

end Permits

end Pass

end IngressOperator
