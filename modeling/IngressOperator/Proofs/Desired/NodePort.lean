import IngressOperator.Proofs.Pass.Instances
import IngressOperator.Proofs.Pass.OneHost
import IngressOperator.Proofs.Text.Split

/-!
# Ports of nodes

A host may carry a port: digits after its last colon. What stands before it, without a colon, leaves the port where it is. So the
host of the console has the port of the domain under which it is, and without it is the address that the cluster is said to have.

## Main statements

* `Host.split_eq_some_iff`: which host and which port a text is divided into.
* `Pass.node_port_of_domain`: the address and the port that a cluster without routes is said to have.
-/

namespace IngressOperator

/-! ### Hosts that carry a port -/

namespace Host

/-- Whether a text is a host that carries a port: a colon stands between them, and the port is one or more digits. -/
structure CarriesPort (text host port : String) : Prop where
  text : text = host ++ ":" ++ port
  port_ne : port ≠ ""
  port_digits : ∀ c ∈ port.toList, Digits.isDigit c = true

variable {text host port : String}

theorem CarriesPort.toList (h : CarriesPort text host port) : text.toList = host.toList ++ ':' :: port.toList := by
  rw [h.text, String.toList_append, String.toList_append, List.append_assoc]
  rfl

/-- No colon is among digits. -/
theorem CarriesPort.plain (h : CarriesPort text host port) : ':' ∉ port.toList :=
  fun hcolon => absurd (h.port_digits ':' hcolon) (by decide)

/-- A host and its port are what a text is divided into. -/
theorem CarriesPort.split_eq (h : CarriesPort text host port) : split text = (host, some port) := by
  have hport : (!port.toList.isEmpty && port.toList.all Digits.isDigit) = true := by
    rw [Bool.and_eq_true, List.all_eq_true, Bool.not_eq_true', List.isEmpty_eq_false_iff]
    exact ⟨fun hnil => h.port_ne (String.toList_eq_nil_iff.mp hnil), h.port_digits⟩
  rw [split, h.toList, Text.splitLast?_append_cons _ h.plain]
  simp only [hport, if_true, String.ofList_toList]

/-- A text is divided into a host and a port that it carries, or not at all. -/
theorem split_cases (text : String) : (∃ host port, CarriesPort text host port) ∨ split text = (text, none) := by
  unfold split
  split
  · next before after hparts =>
    split
    · next hport =>
      left
      obtain ⟨htext, -⟩ := Text.splitLast?_eq_some_iff.mp hparts
      rw [Bool.and_eq_true, List.all_eq_true, Bool.not_eq_true', List.isEmpty_eq_false_iff] at hport
      refine ⟨String.ofList before, String.ofList after, ?_, ?_, ?_⟩
      · rw [← String.toList_inj, htext]
        simp
      · simpa using hport.1
      · simpa using hport.2
    · exact .inr rfl
  · exact .inr rfl

/-- A text is divided into a host and a port exactly if it is that host and carries that port. -/
theorem split_eq_some_iff : split text = (host, some port) ↔ CarriesPort text host port := by
  refine ⟨fun h => ?_, CarriesPort.split_eq⟩
  rcases split_cases text with ⟨host', port', hcarries⟩ | hnone
  · rw [hcarries.split_eq] at h
    cases h
    exact hcarries
  · rw [hnone] at h
    cases h

/-- A text that carries no port is not divided. -/
theorem split_eq_none (h : ∀ host port, ¬ CarriesPort text host port) : split text = (text, none) :=
  (split_cases text).resolve_left fun ⟨host, port, hcarries⟩ => h host port hcarries

/-- The host of the console carries the port of its domain. -/
theorem split_plainConsole (domain : String) : split (plainConsole domain) = (plainConsole (split domain).1, (split domain).2) := by
  have hname : ':' ∉ (Names.consoleRoute ++ ".").toList := by decide
  exact split_append hname domain

end Host

/-! ### What a cluster without routes is said to be like -/

namespace Desired

/-- The addresses that a cluster without routes is said to have. -/
theorem address_plainClusterInfo (settings : Settings) (ns domain : String) :
    ∀ key ∈ ["cluster_address", "cluster_ca_domain", "proxy_address"],
      (plainClusterInfo settings ns domain).get? key = some (Host.plainConsole (Host.split domain).1) := by
  obtain ⟨haddress, hdomain⟩ := describes_plain settings ns domain ""
  have hproxy : (plainClusterInfo settings ns domain).get? "proxy_address" = some (Host.plainConsole (Host.split domain).1) := by
    unfold plainClusterInfo
    dsimp only
    split
    · rw [SortedMap.get?_insert_of_ne (by decide), SortedMap.get?_insert_self]
    · exact SortedMap.get?_insert_self
  simp [haddress, hdomain, hproxy]

/-- The port that a cluster without routes is said to have is that of its domain. -/
theorem port_plainClusterInfo (settings : Settings) (ns domain : String) :
    (plainClusterInfo settings ns domain).get? "cluster_node_port" = (Host.split domain).2 := by
  unfold plainClusterInfo
  dsimp only
  split
  · next port hport => rw [SortedMap.get?_insert_self, hport]
  · next hnone =>
    rw [hnone, SortedMap.get?_insert_of_ne (by decide)]
    simp [commonClusterInfo, SortedMap.ofList, SortedMap.insertMany, SortedMap.get?_insert_of_ne]

end Desired

namespace Pass

section

variable {σ : Type} {h : Proc.Handler σ} {setup : Setup} {ingress : ManagementIngress} {ns domain : String} {s : σ}

/-- A host that the custom resource names is the one that is found. -/
theorem hostFound_named (hhost : ingress.spec.routeHost ≠ "") : hostFound h setup ingress ns s = .ok ingress.spec.routeHost := by
  have hnamed : (!ingress.spec.routeHost.isEmpty) = true := by simpa using hhost
  unfold hostFound resolveHost
  rw [if_pos hnamed]
  rfl

/-- On a cluster without routes a pass says what the domain says, whatever the host is. -/
theorem run_clusterInfo_cncf (hf : setup.flavor = .cncf domain) (host : String) (base : Option String) :
    ((clusterInfo setup ingress ns host).run base).run.run h s =
      (.ok (Desired.plainClusterInfo setup.settings ns domain, base), s) := by
  unfold clusterInfo
  rw [hf]
  rfl

end

/-- A text is divided into a host and a port exactly if it is that host and carries that port, and is not divided otherwise; what
stands before it, without a colon, stands before the host. So the addresses that a cluster without routes is said to have are the
host of the console under its domain without the port, and it is said to have a port exactly if that host carries it. That host is
the external one unless the custom resource names another; what is said is the same then. -/
theorem node_port_of_domain :
    (∀ text host port, Host.split text = (host, some port) ↔ Host.CarriesPort text host port) ∧
    (∀ text, (∀ host port, ¬ Host.CarriesPort text host port) → Host.split text = (text, none)) ∧
    (∀ before text : String, ':' ∉ before.toList →
      Host.split (before ++ text) = (before ++ (Host.split text).1, (Host.split text).2)) ∧
    (∀ settings ns domain,
      (∀ key ∈ ["cluster_address", "cluster_ca_domain", "proxy_address"],
        (Desired.plainClusterInfo settings ns domain).get? key = some (Host.withoutPort (Host.plainConsole domain))) ∧
      ∀ port, (Desired.plainClusterInfo settings ns domain).get? "cluster_node_port" = some port ↔
        ∃ host, Host.CarriesPort (Host.plainConsole domain) host port) ∧
    ∀ {σ : Type} (h : Proc.Handler σ) (setup : Setup) (ingress : ManagementIngress) (ns domain : String) (s : σ),
      setup.flavor = .cncf domain →
        hostFound h setup ingress ns s =
          .ok (if ingress.spec.routeHost = "" then Host.plainConsole domain else ingress.spec.routeHost) ∧
        ∀ host base, ((clusterInfo setup ingress ns host).run base).run.run h s =
          (.ok (Desired.plainClusterInfo setup.settings ns domain, base), s) := by
  refine ⟨fun _ _ _ => Host.split_eq_some_iff, fun _ => Host.split_eq_none, fun _ text hbefore => Host.split_append hbefore text,
    fun settings ns domain => ⟨?_, fun port => ?_⟩, fun h setup ingress ns domain s hf => ⟨?_, run_clusterInfo_cncf hf⟩⟩
  · rw [Host.withoutPort_plainConsole]
    exact Desired.address_plainClusterInfo settings ns domain
  · rw [Desired.port_plainClusterInfo]
    constructor
    · intro hport
      refine ⟨Host.plainConsole (Host.split domain).1, Host.split_eq_some_iff.mp ?_⟩
      rw [Host.split_plainConsole, hport]
    · rintro ⟨host, hcarries⟩
      exact (congrArg Prod.snd (Host.split_plainConsole domain)).symm.trans (congrArg Prod.snd hcarries.split_eq)
  · split
    · next hhost => exact hostFound_cncf hf hhost
    · next hhost => exact hostFound_named hhost

/-! ### A domain with a port -/

namespace Ported

/-- A cluster without routes whose domain carries a port. -/
def setup : Setup := { flavor := .cncf "example.com:30443" }

/-- A custom resource that names its host, without a port. -/
def named : ManagementIngress := { spec := { routeHost := "console.example.com" } }

end Ported

open Cluster in
/-- Under a domain with a port the console has it too, and the cluster is said to have it. -/
theorem ported_node_port :
    Host.split "cp-console.example.com:30443" = ("cp-console.example.com", some "30443") ∧
      Host.split "cp-console.example.com" = ("cp-console.example.com", none) ∧
      hostFound Direct.handler Ported.setup {} "ns" Small.cluster = .ok "cp-console.example.com:30443" ∧
      (Desired.plainClusterInfo {} "ns" "example.com:30443").get? "cluster_node_port" = some "30443" := by
  obtain ⟨hsome, hnone, hbefore, hinfo, hfound⟩ := node_port_of_domain
  have hport : ∀ c ∈ "30443".toList, Digits.isDigit c = true := List.all_eq_true.mp (by decide)
  have hdomain := (hsome "example.com:30443" "example.com" "30443").mpr ⟨rfl, by decide, hport⟩
  refine ⟨?_, ?_, ?_, ?_⟩
  · rw [show "cp-console.example.com:30443" = "cp-console." ++ "example.com:30443" from rfl, hbefore _ _ (by decide), hdomain]
    rfl
  · refine hnone _ fun host port hcarries => ?_
    have hcolon : ':' ∈ "cp-console.example.com".toList := by
      rw [hcarries.toList]
      simp
    exact absurd hcolon (by decide)
  · exact (hfound Direct.handler Ported.setup {} "ns" "example.com:30443" Small.cluster rfl).1
  · exact ((hinfo {} "ns" "example.com:30443").2 "30443").mpr ⟨"cp-console.example.com", ⟨rfl, by decide, hport⟩⟩

open Cluster in
/-- The port of the domain is told also of a cluster whose external host has none. -/
theorem named_host_without_port :
    ¬ ∀ (setup : Setup) (ingress : ManagementIngress) (ns domain host : String) (c : Cluster), setup.flavor = .cncf domain →
      hostFound Direct.handler setup ingress ns c = .ok host →
        ((∃ port, (Desired.plainClusterInfo setup.settings ns domain).get? "cluster_node_port" = some port) ↔
          ∃ before port, Host.CarriesPort host before port) := by
  intro hclaim
  have hfound : hostFound Direct.handler Ported.setup Ported.named "ns" Small.cluster = .ok "console.example.com" :=
    hostFound_named (by decide)
  have htold : (Desired.plainClusterInfo {} "ns" "example.com:30443").get? "cluster_node_port" = some "30443" := by decide
  have hsame := hclaim Ported.setup Ported.named "ns" _ _ Small.cluster rfl hfound
  obtain ⟨before, port, hcarries⟩ := hsame.mp ⟨"30443", htold⟩
  have hcolon : ':' ∈ "console.example.com".toList := by
    rw [hcarries.toList]
    simp
  exact absurd hcolon (by decide)

end Pass

end IngressOperator
