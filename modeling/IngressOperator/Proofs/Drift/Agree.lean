import IngressOperator.Proofs.Drift.Desired

/-!
# Objects that do not differ

What an object is like that does not differ from a desired one: the fields that are tracked are those that are desired, where an
absent map counts as an empty one and an absent text as an empty text.

## Main statements

* `Drift.route_agrees`, `Drift.certificate_agrees`, …: the tracked fields of an object that does not differ.
* `Drift.env_agrees`: a variable of an environment that does not differ has the value that is desired.
-/

namespace IngressOperator.Drift

/-! ### Data -/

theorem configMap_agrees {live desired : ConfigMap} (h : (configMap live desired).changed = false) :
    live.data.getD ∅ = desired.data.getD ∅ := by
  simpa [configMap, sameEntries] using h

theorem route_agrees {live desired : Route} (h : (route live desired).changed = false) :
    live.spec.host = desired.spec.host ∧ live.spec.tls = desired.spec.tls := by
  simp only [route, Bool.not_eq_false', Bool.and_eq_true, beq_iff_eq] at h
  obtain ⟨⟨⟨hhost, -⟩, -⟩, htls⟩ := h
  exact ⟨hhost, htls⟩

/-- A certificate that does not differ is for the names that are desired. -/
theorem certificate_agrees {live desired : Certificate} (h : (certificate live desired).changed = false) :
    live.spec.dnsNames = desired.spec.dnsNames := by
  have hspec : live.spec = { desired.spec with extra := live.spec.extra } := by simpa [certificate] using h
  rw [hspec]

/-! ### Environments -/

/-- A variable of an environment that does not differ is desired. -/
theorem env_agrees {live desired : List EnvVar} (h : sameEnv live desired = true) {v : EnvVar} (hv : v ∈ live) :
    ∃ d, (desired.find? fun d => d.name == v.name) = some d ∧ v.value.getD "" = d.value.getD "" ∧ v.valueFrom = d.valueFrom := by
  simp only [sameEnv, Bool.and_eq_true, List.all_eq_true] at h
  have hsame := h.2 v hv
  cases hd : desired.find? fun d => d.name == v.name with
  | none =>
    rw [hd] at hsame
    cases hsame
  | some d =>
    rw [hd] at hsame
    simp only [sameValue, Bool.and_eq_true, beq_iff_eq] at hsame
    exact ⟨d, rfl, hsame⟩

/-- A variable that is desired is one of an environment that does not differ. -/
theorem mem_env_of_agrees {live desired : List EnvVar} (h : sameEnv live desired = true) {d : EnvVar} (hd : d ∈ desired) :
    ∃ v ∈ live, v.name = d.name := by
  simp only [sameEnv, sameNames, Bool.and_eq_true, List.all_eq_true, List.any_eq_true, beq_iff_eq] at h
  obtain ⟨v, hv, hname⟩ := h.1.2.2 d hd
  exact ⟨v, hv, hname⟩

/-- A container of a deployment that does not differ has the environment of the desired one of its name, as far as values are
compared. -/
theorem deployment_agrees {live desired : Deployment} {want : DeploymentSpec} {pod : PodSpec} (hspec : desired.spec = some want)
    (hpod : want.template.spec = some pod) (h : (deployment live desired).changed = false) {c d : Container}
    (hc : c ∈ ((live.spec.getD {}).template.spec.getD {}).containers)
    (hd : (pod.containers.find? fun d => d.name == c.name) = some d) : sameEnv (c.env.getD []) (d.env.getD []) = true := by
  simp only [deployment, hspec, hpod, Bool.or_eq_false_iff] at h
  have hcontainers : (containers ((live.spec.getD {}).template.spec.getD {}).containers pod.containers).changed = false := by
    have hall := h.2
    simp only [podSpec, Bool.not_eq_false', Bool.and_eq_true, Bool.not_eq_true'] at hall
    exact hall.1.2
  simp only [containers, List.any_eq_false, Bool.not_eq_true] at hcontainers
  have hone := hcontainers c hc
  rw [containerAmong, hd] at hone
  simp only [container, Bool.not_eq_false', Bool.and_eq_true] at hone
  exact hone.1.2

end IngressOperator.Drift
