import IngressOperator.Proofs.Cluster.Direct
import IngressOperator.Proofs.Steps.Targets

/-!
# Several instances on one cluster

A custom resource may be told that there are others on its cluster. Where routes are served, the hosts that are made up for it then
carry its namespace, so that no two namespaces share one; where there are none, the host is made of the cluster's domain alone,
whatever the resource is told. No host of a console is ever one of a proxy.

## Main statements

* `Host.underDomain_injective`: hosts under one domain are told apart by their namespaces.
* `Host.console_ne_proxy`: no host of a console is one of a proxy.
* `Pass.instances_apart`: which hosts are found for two instances in different namespaces.
-/

namespace IngressOperator

/-! ### Hosts that are made up -/

namespace Host

/-- A host with a namespace under a domain, as characters. -/
theorem toList_underDomain (label base ns : String) :
    (underDomain label base ns true).toList = label.toList ++ ("-".toList ++ (ns.toList ++ ('.' :: base.toList))) := by
  simp only [underDomain, if_true, String.toList_append, List.append_assoc]
  rfl

/-- Hosts with namespaces under one domain are told apart by these. -/
theorem underDomain_injective (label base : String) : Function.Injective fun ns => underDomain label base ns true := by
  intro ns ns' h
  have hchars := congrArg String.toList h
  simp only [toList_underDomain] at hchars
  have hnames := List.append_cancel_left (List.append_cancel_left hchars)
  exact String.toList_injective (List.append_cancel_right hnames)

/-- A host under a domain begins with its label. -/
theorem underDomain_eq_append (label base ns : String) (many : Bool) : ∃ rest, underDomain label base ns many = label ++ rest := by
  cases many with
  | false => exact ⟨"." ++ base, String.append_assoc⟩
  | true => exact ⟨"-" ++ (ns ++ ("." ++ base)), by simp only [← String.append_assoc]; rfl⟩

/-- What begins with the label of consoles is no host of a proxy. -/
theorem consoleRoute_append_ne_proxy (rest base ns : String) (many : Bool) : Names.consoleRoute ++ rest ≠ proxy base ns many := by
  intro h
  obtain ⟨rest', hproxy⟩ := underDomain_eq_append Names.proxyRoute base ns many
  have hchars := congrArg (fun host => host.toList.take 4) (h.trans hproxy)
  simp [String.toList_append, Names.consoleRoute, Names.proxyRoute] at hchars

theorem console_ne_proxy (base base' ns ns' : String) (many many' : Bool) : console base ns many ≠ proxy base' ns' many' := by
  obtain ⟨rest, hconsole⟩ := underDomain_eq_append Names.consoleRoute base ns many
  rw [console, hconsole]
  exact consoleRoute_append_ne_proxy rest base' ns' many'

theorem plainConsole_ne_proxy (domain base ns : String) (many : Bool) : plainConsole domain ≠ proxy base ns many := by
  have hplain : plainConsole domain = Names.consoleRoute ++ ("." ++ domain) := String.append_assoc
  rw [hplain]
  exact consoleRoute_append_ne_proxy _ base ns many

end Host

namespace Pass

/-! ### Resolution -/

section

variable {σ : Type} {h : Proc.Handler σ} {setup : Setup} {ingress : ManagementIngress} {ns : String} {s : σ}

/-- The host that is found for a custom resource, or the failure to find one. -/
def hostFound (h : Proc.Handler σ) (setup : Setup) (ingress : ManagementIngress) (ns : String) (s : σ) : Except Failure String :=
  (((resolveHost setup ingress ns).run none).run.run h s).1.map Prod.fst

/-- On a cluster without routes the host is made of the cluster's domain. -/
theorem hostFound_cncf {domain : String} (hf : setup.flavor = .cncf domain) (hhost : ingress.spec.routeHost = "") :
    hostFound h setup ingress ns s = .ok (Host.plainConsole domain) := by
  unfold hostFound resolveHost
  rw [hf, hhost]
  rfl

/-- On a cluster with routes the host is made up under the base domain. -/
theorem hostFound_standard {domain : String} (hf : setup.flavor = .standard) (hhost : ingress.spec.routeHost = "")
    (hdomain : (h .baseDomain s).1 = .ok domain) :
    hostFound h setup ingress ns s = .ok (Host.console domain ns ingress.spec.multipleInstancesEnabled) := by
  have hrun : (resolveHost setup ingress ns).run none =
      baseDomain.run none >>= fun found => pure (Host.console found.1 ns ingress.spec.multipleInstancesEnabled, found.2) := by
    unfold resolveHost
    rw [hf, hhost]
    rfl
  rw [hostFound, hrun, ExceptT.run_bind, run_baseDomain_none, Proc.run_bind, Proc.run_ask, hdomain]
  rfl

/-- A host is found for each of two instances in different namespaces that are told of each other and of no host, if they are told
the same domain. The two hosts are different exactly if the cluster serves routes, and neither of them is the host of a proxy of any
instance under any domain. -/
theorem instances_apart (setup : Setup) (ingress ingress' : ManagementIngress) {ns ns' domain : String} {s s' : σ}
    (hns : ns ≠ ns') (hmany : ingress.spec.multipleInstancesEnabled = true) (hmany' : ingress'.spec.multipleInstancesEnabled = true)
    (hhost : ingress.spec.routeHost = "") (hhost' : ingress'.spec.routeHost = "")
    (hdomain : setup.flavor = .standard → (h .baseDomain s).1 = .ok domain ∧ (h .baseDomain s').1 = .ok domain) :
    ∃ host host', hostFound h setup ingress ns s = .ok host ∧ hostFound h setup ingress' ns' s' = .ok host' ∧
      (host ≠ host' ↔ setup.flavor = .standard) ∧
      ∀ base ns₁ many, host ≠ Host.proxy base ns₁ many ∧ host' ≠ Host.proxy base ns₁ many := by
  cases hf : setup.flavor with
  | standard =>
    obtain ⟨hd, hd'⟩ := hdomain hf
    have hfound : hostFound h setup ingress ns s = _ := hostFound_standard hf hhost hd
    have hfound' : hostFound h setup ingress' ns' s' = _ := hostFound_standard hf hhost' hd'
    rw [hmany] at hfound
    rw [hmany'] at hfound'
    refine ⟨_, _, hfound, hfound', ⟨fun _ => rfl, fun _ => ?_⟩, fun base ns₁ many => ⟨?_, ?_⟩⟩
    · exact (Host.underDomain_injective Names.consoleRoute domain).ne hns
    · exact Host.console_ne_proxy _ _ _ _ _ _
    · exact Host.console_ne_proxy _ _ _ _ _ _
  | cncf own =>
    refine ⟨_, _, hostFound_cncf hf hhost, hostFound_cncf hf hhost', ⟨fun hne => absurd rfl hne, nofun⟩, ?_⟩
    exact fun base ns₁ many => ⟨Host.plainConsole_ne_proxy own base ns₁ many, Host.plainConsole_ne_proxy own base ns₁ many⟩

end

namespace Several

/-- An instance in a namespace that is told that there are others. -/
def resource (ns : String) : ManagementIngress where
  metadata := { name := some "default", ns := some ns, uid := some ns }
  spec := { multipleInstancesEnabled := true }

end Several

open Cluster in
/-- On a cluster that serves routes, two instances have different hosts, neither of which is that of a proxy. -/
theorem rerouted_instances_apart :
    ∃ host host', hostFound Direct.handler {} (Several.resource "ns-a") "ns-a" Rerouted.cluster = .ok host ∧
      hostFound Direct.handler {} (Several.resource "ns-b") "ns-b" Rerouted.cluster = .ok host' ∧ host ≠ host' ∧
      ∀ base ns many, host ≠ Host.proxy base ns many ∧ host' ≠ Host.proxy base ns many := by
  have hns : "ns-a" ≠ "ns-b" := by decide
  have hdomain : (Direct.handler .baseDomain Rerouted.cluster).1 = .ok "apps.example.com" := rfl
  obtain ⟨host, host', hfound, hfound', hapart, hproxy⟩ := instances_apart {} (Several.resource "ns-a") (Several.resource "ns-b")
    hns rfl rfl rfl rfl fun _ => ⟨hdomain, hdomain⟩
  exact ⟨host, host', hfound, hfound', hapart.2 rfl, hproxy⟩

open Cluster in
/-- On a cluster without routes, two instances share their host, although they are told of each other. -/
theorem instances_share_host :
    ¬ ∀ (setup : Setup) (ingress ingress' : ManagementIngress) (ns ns' host host' : String) (c : Cluster), ns ≠ ns' →
      ingress.spec.multipleInstancesEnabled = true → ingress'.spec.multipleInstancesEnabled = true →
        ingress.spec.routeHost = "" → ingress'.spec.routeHost = "" →
          hostFound Direct.handler setup ingress ns c = .ok host → hostFound Direct.handler setup ingress' ns' c = .ok host' →
            host ≠ host' := by
  intro hclaim
  have hns : "ns-a" ≠ "ns-b" := by decide
  have hfound (ns : String) : hostFound Direct.handler Small.setup (Several.resource ns) ns Small.cluster =
      .ok (Host.plainConsole "example.com") := hostFound_cncf rfl rfl
  exact hclaim Small.setup _ _ "ns-a" "ns-b" _ _ Small.cluster hns rfl rfl rfl rfl (hfound "ns-a") (hfound "ns-b") rfl

end Pass

end IngressOperator
