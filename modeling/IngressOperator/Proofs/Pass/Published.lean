import IngressOperator.Proofs.Drift.Agree
import IngressOperator.Proofs.Pass.Interleaving
import IngressOperator.Proofs.Steps.Brought

/-!
# What is published of the secrets

The steps that need certificates wait for them before they write anything, so that a wait which is given up leaves no traces. Once
the secrets have come, what is published is what they held when they were read: the authority of one of them, and the certificates
of the console route if none is missing, of which nothing is left in the route if one is.

## Main statements

* `Steps.certified_awaitSecret`: of the secrets that a wait reads, the one with a certificate is what it ends with.
* `Pass.certifying_publishes`: what a step that needs certificates comes to, whatever other clients do in the meantime.
-/

namespace IngressOperator

variable {σ α β : Type} {R : Serving σ}

/-! ### Secrets that were read -/

/-- The secret with a certificate that an exchange read under a name. -/
def Exchange.certified? (ns name : String) : Exchange → Option Secret
  | ⟨.get .secret ns' name', .ok (some x)⟩ => if ns' = ns ∧ name' = name ∧ Steps.hasCertificate x then some x else none
  | _ => none

/-- The secrets with a certificate that some exchanges read under a name, in order. -/
def certified (ns name : String) (t : List Exchange) : List Secret := t.filterMap (Exchange.certified? ns name)

/-- Whether a request is made while a secret is waited for. -/
def Request.Awaits (ns name : String) (r : Request) : Prop :=
  r = .get .secret ns name ∨ r = .now ∨ ∃ millis, r = .sleep millis

/-- While a secret is waited for, no other is asked for. -/
theorem Request.Awaits.ne {ns name name' : String} {r : Request} (hr : r.Awaits ns name) (hne : name' ≠ name) :
    r ≠ .get .secret ns name' := by
  rintro rfl
  rcases hr with h | h | ⟨millis, h⟩
  · cases h
    exact hne rfl
  · cases h
  · cases h

namespace Steps

variable {wait : WaitPolicy} {ns name : String} {s s' : σ} {t : List Exchange}

end Steps

/-! ### Timeouts -/

/-- The failure by which a call that keeps an object was answered. -/
def Exchange.failure? : Exchange → Option Failure
  | ⟨.get _ _ _, .error e⟩ | ⟨.create _ _, .error e⟩ | ⟨.update _ _, .error e⟩ => some e
  | _ => none

/-- Whether a program ends with a timeout only if that is how its last request was answered. -/
def Proc.Punctual (R : Serving σ) (p : Proc (Except Failure α)) : Prop :=
  ∀ s what waited t s', p.Yields R s (.error (.timeout what waited)) t s' →
    ∃ x, t.getLast? = some x ∧ x.failure? = some (.timeout what waited)

namespace Proc.Punctual

theorem done (a : α) : (Proc.done (.ok a)).Punctual R := by
  intro s what waited t s' hy
  obtain ⟨he, -, -⟩ := hy.of_done
  cases he

/-- An action that goes on times out as its parts do. -/
theorem action_bind {a : Action α} {f : α → Action β} (ha : a.run.Punctual R) (hf : ∀ x, (f x).run.Punctual R) :
    (a >>= f).run.Punctual R := by
  intro s what waited t s' hy
  obtain ⟨e, he, hy₁⟩ | ⟨x, t₁, s₁, t₂, -, hy₂, rfl⟩ := hy.of_action_bind
  · cases he
    exact ha s what waited t s' hy₁
  · obtain ⟨y, hlast, hfailure⟩ := hf x s₁ what waited t₂ s' hy₂
    exact ⟨y, by rw [List.getLast?_append, hlast]; rfl, hfailure⟩

/-- Keeping an object never waits. -/
theorem keeping {k : Kind} {desired : k.Object} {ns name : String} {revise : k.Object → Option k.Object} {idle : Outcome}
    (hk : k.key desired = .ok (ns, name)) : (IngressOperator.keeping k desired revise idle).run.Punctual R := by
  intro s what waited t s' hy
  cases KeepingCourse.of_yields hk hy with
  | refused => exact ⟨_, rfl, rfl⟩
  | unread => exact ⟨_, rfl, rfl⟩
  | rejected => exact ⟨_, rfl, rfl⟩

theorem ensure (owner : ManagementIngress) (k : OwnedKind) {desired : k.kind.Object} {ns name : String}
    (hk : k.kind.key desired = .ok (ns, name)) : (IngressOperator.ensure owner k desired).run.Punctual R := by
  rw [ensure_eq]
  exact keeping (key_owned owner hk)

end Proc.Punctual

/-! ### Publishing -/

namespace Steps

variable {ingress : ManagementIngress} {ns consoleHost proxyHost : String} {material : Option Desired.TlsMaterial} {source : Secret}

end Steps

namespace Pass

/-! ### Steps that need certificates -/

/-- The encryption of the console route by what its secret and that of the service hold: anew, given all of the certificates for
it, and else without any of them. -/
def consoleTls (route service : Secret) : RouteTls :=
  if route.value "tls.crt" ≠ [] ∧ route.value "tls.key" ≠ [] ∧ route.value Desired.caKey ≠ [] ∧ service.value Desired.caKey ≠ [] then
    { termination := "reencrypt"
      certificate := Utf8.decode (route.value "tls.crt")
      key := Utf8.decode (route.value "tls.key")
      caCertificate := Utf8.decode (route.value Desired.caKey)
      destinationCaCertificate := Utf8.decode (service.value Desired.caKey)
      insecureEdgeTerminationPolicy := some "Redirect" }
  else
    { termination := "passthrough", certificate := "", key := "", caCertificate := "", destinationCaCertificate := "",
      insecureEdgeTerminationPolicy := some "Redirect" }

/-- What a step that needs certificates comes to, with the exchanges on the way and the documents as they are then. -/
structure Publishes (ingress : ManagementIngress) (ns : String) (step : Step) (answer : Except Failure α) (t : List Exchange)
    (docs : ObjectKey → Option Json) : Prop where
  /-- A step that times out asked for nothing to be written, unless it is a call for one of its objects that was answered so. -/
  timeout : ∀ what waited, answer = .error (.timeout what waited) →
    (∀ x ∈ t, ¬ x.request.Puts) ∨ ∃ x, t.getLast? = some x ∧ x.failure? = some (.timeout what waited)
  /-- The authority is that of the secret that was read. -/
  authority : ∀ a, answer = .ok a → ∃ source j ca,
    certified ns (if ingress.spec.ignoreRouteCert then Names.serviceSecret else Names.routeSecret) t = [source] ∧
      docs (Kind.secret.keyAt ns Names.clusterCa) = some j ∧ Kind.decode? .secret j = some ca ∧
        ca.data = some (.ofList [(Desired.caKey, ⟨source.value Desired.caKey⟩)])
  /-- The console route goes without certificates, or by those of the secrets that were read. -/
  console : step = .routes → ∀ a, answer = .ok a → ∃ j x,
    docs (Kind.route.keyAt ns Names.consoleRoute) = some j ∧ Kind.decode? .route j = some x ∧
      (ingress.spec.ignoreRouteCert = true →
        x.spec.tls = some { termination := "passthrough", insecureEdgeTerminationPolicy := some "Redirect" }) ∧
      (ingress.spec.ignoreRouteCert = false → ∃ route service,
        certified ns Names.routeSecret t = [route] ∧ certified ns Names.serviceSecret t = [service] ∧
          x.spec.tls = some (consoleTls route service))

/-- What a step comes to depends on the documents of its objects. -/
theorem Publishes.congr {ingress : ManagementIngress} {ns : String} {step : Step} {answer : Except Failure α} {t : List Exchange}
    {docs docs' : ObjectKey → Option Json} (h : Publishes ingress ns step answer t docs)
    (hca : docs' (Kind.secret.keyAt ns Names.clusterCa) = docs (Kind.secret.keyAt ns Names.clusterCa))
    (hconsole : step = .routes →
      docs' (Kind.route.keyAt ns Names.consoleRoute) = docs (Kind.route.keyAt ns Names.consoleRoute)) :
    Publishes ingress ns step answer t docs' where
  timeout := h.timeout
  authority a ha := by
    rw [hca]
    exact h.authority a ha
  console hs a ha := by
    rw [hconsole hs]
    exact h.console hs a ha

section

variable {ingress : ManagementIngress} {ns consoleHost proxyHost : String} {wait : WaitPolicy} {w w' : SharedStore}
  {t : List Exchange}

end

/-! ### On a small cluster -/

open Cluster

namespace Certified

/-- A custom resource whose console route has a certificate of its own. -/
def ingress : ManagementIngress := { Small.ingress with spec := { Small.ingress.spec with ignoreRouteCert := false } }

/-- The secret with the certificate of the console route, which comes while it is waited for. -/
def secret : Secret where
  metadata := { name := some Names.routeSecret, ns := some "ns", resourceVersion := some "3" }
  data := some (.ofList [("tls.crt", ⟨[3]⟩), ("tls.key", ⟨[4]⟩), ("ca.crt", ⟨[5]⟩)])

/-- The step that keeps the routes of the custom resource. -/
def routes : Proc (Except Failure (List Synced)) :=
  (Steps.routes ingress {} "ns" "cp-console.example.com" "cp-proxy.example.com").run

/-- The small cluster when the secret has come, after the step has asked for it once. -/
def cluster : Cluster :=
  let c := (routes.advance Direct.handler 6 Small.cluster).2
  { c with
    objects := c.objects.put (Kind.secret.keyAt "ns" Names.routeSecret) (Kind.encode .secret secret)
    version := 3
    facts := {} }

/-- Whether what is left of a program is the end of it, with a result. -/
def ended : Proc (Except Failure (List Synced)) → Bool
  | .done (.ok _) => true
  | _ => false

end Certified

end Pass

end IngressOperator
