import IngressOperator.Proofs.Wire.Carried
import IngressOperator.Resource.Kind

/-!
# Objects that are read back

Every object that the operator reads or writes is read back from its JSON form. Only a status may hold a time that no text can
say; it is read back if all its times lie in the calendar.

## Main statements

* `Kind.decode?_encode`: an object of a kind without such times is read back.
* `Wire.decode?_encode_ingress`: a management ingress is read back if the times of its status lie in the calendar.
-/

namespace IngressOperator

namespace Wire

-- Without these the steps after a step are simplified under its binder, and again for its value.
attribute [local congr] bind_congr_left
attribute [local simp ↓] Option.bind_eq_bind

/-! ### Metadata -/

instance : Lawful OwnerReference where
  decode?_encode x := by
    simp only [encode, decode?]
    simp
  encode_ne_null _ := nofun

instance : Lawful FieldSet where
  decode?_encode s := dif_pos ⟨s.ne_null, s.regular⟩
  encode_ne_null s := s.ne_null

instance : Lawful ManagedFields where
  decode?_encode x := by
    simp only [encode, decode?]
    simp
  encode_ne_null _ := nofun

instance : Lawful Meta where
  decode?_encode x := by
    simp only [encode, decode?]
    simp
  encode_ne_null _ := nofun

instance : Lawful SelectorRequirement where
  decode?_encode x := by
    simp only [encode, decode?]
    simp
  encode_ne_null _ := nofun

instance : Lawful LabelSelector where
  decode?_encode x := by
    simp only [encode, decode?]
    simp
  encode_ne_null _ := nofun

/-! ### Containers -/

instance : Lawful KeyRef where
  decode?_encode x := by
    simp only [encode, decode?]
    simp
  encode_ne_null _ := nofun

instance : Lawful FieldRef where
  decode?_encode x := by
    simp only [encode, decode?]
    simp
  encode_ne_null _ := nofun

instance : Lawful ResourceFieldRef where
  decode?_encode x := by
    simp only [encode, decode?]
    simp
  encode_ne_null _ := nofun

instance : Lawful EnvSource where
  decode?_encode x := by
    simp only [encode, decode?]
    simp
  encode_ne_null _ := nofun

instance : Lawful EnvVar where
  decode?_encode x := by
    simp only [encode, decode?]
    simp
  encode_ne_null _ := nofun

instance : Lawful ResourceClaim where
  decode?_encode x := by
    simp only [encode, decode?]
    simp
  encode_ne_null _ := nofun

instance : Lawful Resources where
  decode?_encode x := by
    simp only [encode, decode?]
    simp
  encode_ne_null _ := nofun

instance : Lawful ContainerPort where
  decode?_encode x := by
    simp only [encode, decode?]
    simp
  encode_ne_null _ := nofun

instance : Lawful VolumeMount where
  decode?_encode x := by
    simp only [encode, decode?]
    simp
  encode_ne_null _ := nofun

instance : Lawful HttpGet where
  decode?_encode x := by
    simp only [encode, decode?]
    simp
  encode_ne_null _ := nofun

instance : Lawful Probe where
  decode?_encode x := by
    simp only [encode, decode?]
    simp
  encode_ne_null _ := nofun

instance : Lawful SecurityContext where
  decode?_encode x := by
    simp only [encode, decode?]
    simp
  encode_ne_null _ := nofun

instance : Lawful Container where
  decode?_encode x := by
    simp only [encode, decode?]
    simp
  encode_ne_null _ := nofun

-- The record has so many members that the search for their instances exceeds the usual size.
set_option synthInstance.maxSize 256 in
instance : Lawful EphemeralContainer := inferInstance

/-! ### Pods -/

instance : Lawful Toleration where
  decode?_encode x := by
    simp only [encode, decode?]
    simp
  encode_ne_null _ := nofun

instance : Lawful KeyToPath where
  decode?_encode x := by
    simp only [encode, decode?]
    simp
  encode_ne_null _ := nofun

instance : Lawful SecretVolume where
  decode?_encode x := by
    simp only [encode, decode?]
    simp
  encode_ne_null _ := nofun

instance : Lawful ConfigMapVolume where
  decode?_encode x := by
    simp only [encode, decode?]
    simp
  encode_ne_null _ := nofun

instance : Lawful HostPathVolume where
  decode?_encode x := by
    simp only [encode, decode?]
    simp
  encode_ne_null _ := nofun

instance : Lawful EmptyDirVolume where
  decode?_encode x := by
    simp only [encode, decode?]
    simp
  encode_ne_null _ := nofun

instance : Lawful Volume where
  decode?_encode x := by
    simp only [encode, decode?]
    simp
  encode_ne_null _ := nofun

instance : Lawful PodAffinityTerm where
  decode?_encode x := by
    simp only [encode, decode?]
    simp
  encode_ne_null _ := nofun

instance : Lawful WeightedPodAffinityTerm where
  decode?_encode x := by
    simp only [encode, decode?]
    simp
  encode_ne_null _ := nofun

instance : Lawful PodAffinity where
  decode?_encode x := by
    simp only [encode, decode?]
    simp
  encode_ne_null _ := nofun

instance : Lawful Affinity where
  decode?_encode x := by
    simp only [encode, decode?]
    simp
  encode_ne_null _ := nofun

instance : Lawful TopologySpread where
  decode?_encode x := by
    simp only [encode, decode?]
    simp
  encode_ne_null _ := nofun

instance : Lawful PodSpec where
  decode?_encode x := by
    simp only [encode, decode?]
    simp
  encode_ne_null _ := nofun

instance : Lawful ContainerStatus where
  decode?_encode x := by
    simp only [encode, decode?]
    simp
  encode_ne_null _ := nofun

instance : Lawful PodStatus where
  decode?_encode x := by
    simp only [encode, decode?]
    simp
  encode_ne_null _ := nofun

instance : Lawful Pod where
  decode?_encode x := by
    simp only [encode, decode?]
    simp
  encode_ne_null _ := nofun

/-! ### Deployments -/

instance : Lawful PodTemplate where
  decode?_encode x := by
    simp only [encode, decode?]
    simp
  encode_ne_null _ := nofun

instance : Lawful RollingUpdate where
  decode?_encode x := by
    simp only [encode, decode?]
    simp
  encode_ne_null _ := nofun

instance : Lawful DeploymentStrategy where
  decode?_encode x := by
    simp only [encode, decode?]
    simp
  encode_ne_null _ := nofun

instance : Lawful DeploymentSpec where
  decode?_encode x := by
    simp only [encode, decode?]
    simp
  encode_ne_null _ := nofun

instance : Lawful DeploymentStatus where
  decode?_encode x := by
    simp only [encode, decode?]
    simp
  encode_ne_null _ := nofun

instance : Lawful Deployment where
  decode?_encode x := by
    simp only [encode, decode?]
    simp
  encode_ne_null _ := nofun

/-! ### Services -/

instance : Lawful ServicePort where
  decode?_encode x := by
    simp only [encode, decode?]
    simp
  encode_ne_null _ := nofun

instance : Lawful ServiceSpec where
  decode?_encode x := by
    simp only [encode, decode?]
    simp
  encode_ne_null _ := nofun

instance : Lawful LoadBalancerIngress where
  decode?_encode x := by
    simp only [encode, decode?]
    simp
  encode_ne_null _ := nofun

instance : Lawful LoadBalancerStatus where
  decode?_encode x := by
    simp only [encode, decode?]
    simp
  encode_ne_null _ := nofun

instance : Lawful ServiceStatus where
  decode?_encode x := by
    simp only [encode, decode?]
    simp
  encode_ne_null _ := nofun

instance : Lawful Service where
  decode?_encode x := by
    simp only [encode, decode?]
    simp
  encode_ne_null _ := nofun

/-! ### Config maps and secrets -/

instance : Lawful ConfigMap where
  decode?_encode x := by
    simp only [encode, decode?]
    simp
  encode_ne_null _ := nofun

instance : Lawful Secret where
  decode?_encode x := by
    simp only [encode, decode?]
    simp
  encode_ne_null _ := nofun

/-! ### Certificates -/

instance : Lawful IssuerRef where
  decode?_encode x := by
    simp only [encode, decode?]
    simp
  encode_ne_null _ := nofun

theorem CertificateSpec.mem_fields {name : String} :
    name ∈ CertificateSpec.fields ↔ name = "commonName" ∨ name = "duration" ∨ name = "renewBefore" ∨ name = "secretName" ∨
      name = "issuerRef" ∨ name = "dnsNames" ∨ name = "ipAddresses" ∨ name = "usages" := by
  simp [CertificateSpec.fields]

instance : Lawful CertificateSpec where
  decode?_encode x := by
    simp only [encode, decode?]
    simp only [members?_fill, Option.bind_eq_bind, Option.bind_some]
    rw [ofMembers_fill]
    · simp [CertificateSpec.mem_fields]
    · intro name h
      simp only [CertificateSpec.mem_fields, not_or] at h
      simp [h]
  encode_ne_null _ := nofun

instance : Lawful Certificate where
  decode?_encode x := by
    simp only [encode, decode?]
    simp
  encode_ne_null _ := nofun

/-! ### Routes -/

instance : Lawful RouteTarget where
  decode?_encode x := by
    simp only [encode, decode?]
    simp
  encode_ne_null _ := nofun

instance : Lawful RoutePort where
  decode?_encode x := by
    simp only [encode, decode?]
    simp
  encode_ne_null _ := nofun

instance : Lawful RouteTls where
  decode?_encode x := by
    simp only [encode, decode?]
    simp
  encode_ne_null _ := nofun

theorem RouteSpec.mem_fields {name : String} :
    name ∈ RouteSpec.fields ↔ name = "host" ∨ name = "to" ∨ name = "port" ∨ name = "tls" ∨
      name = "wildcardPolicy" := by
  simp [RouteSpec.fields]

instance : Lawful RouteSpec where
  decode?_encode x := by
    simp only [encode, decode?]
    simp only [members?_fill, Option.bind_eq_bind, Option.bind_some]
    rw [ofMembers_fill]
    · simp [RouteSpec.mem_fields]
    · intro name h
      simp only [RouteSpec.mem_fields, not_or] at h
      simp [h]
  encode_ne_null _ := nofun

instance : Lawful Route where
  decode?_encode x := by
    simp only [encode, decode?]
    simp
  encode_ne_null _ := nofun

/-! ### The management ingress -/

instance : Lawful ManagementState where
  decode?_encode x := by cases x <;> rfl
  encode_ne_null x := by cases x <;> nofun

instance : Lawful OperandImage where
  decode?_encode x := by
    simp only [encode, decode?]
    simp
  encode_ne_null _ := nofun

instance : Lawful IssuerKind where
  decode?_encode x := by cases x <;> rfl
  encode_ne_null x := by cases x <;> nofun

instance : Lawful CertIssuer where
  decode?_encode x := by
    simp only [encode, decode?]
    simp
  encode_ne_null _ := nofun

instance : Lawful CertSpec where
  decode?_encode x := by
    simp only [encode, decode?]
    simp
  encode_ne_null _ := nofun

instance : Lawful IngressSpec where
  decode?_encode x := by
    simp only [encode, decode?]
    simp
  encode_ne_null _ := nofun

instance : Lawful ConditionType where
  decode?_encode x := by cases x <;> rfl
  encode_ne_null x := by cases x <;> nofun

instance : Lawful ConditionStatus where
  decode?_encode x := by cases x <;> rfl
  encode_ne_null x := by cases x <;> nofun

instance : Lawful PodState where
  decode?_encode x := by
    simp only [encode, decode?]
    simp
  encode_ne_null _ := nofun

instance : Lawful OperandStatus where
  decode?_encode x := by cases x <;> rfl
  encode_ne_null x := by cases x <;> nofun

instance : Lawful OperandState where
  decode?_encode x := by
    simp only [encode, decode?]
    simp
  encode_ne_null _ := nofun

/-! ### Status -/

/-- An instant of the calendar is read back. -/
theorem ofRequired?_encode_instant {t : Instant} (h : t.InCalendar) : ofRequired? (some (encode t)) = some t := by
  simp [ofRequired?, encode, decode?, Json.str?, Rfc3339.decode?_encode h]

/-- A condition is read back if the time of its last change lies in the calendar. -/
theorem decode?_encode_condition {c : Condition} (h : c.lastTransitionTime.InCalendar) : decode? (encode c) = some c := by
  simp only [encode, decode?]
  simp [ofRequired?_encode_instant h]

end Wire

/-- Whether all times of a status lie in the calendar. -/
def IngressStatus.InCalendar (s : IngressStatus) : Prop :=
  ∀ e ∈ s.conditions.toList, ∀ c ∈ e.2, c.lastTransitionTime.InCalendar

namespace Wire

/-- A status is read back if its times lie in the calendar. -/
theorem decode?_encode_status {s : IngressStatus} (h : s.InCalendar) : decode? (encode s) = some s := by
  have hc : ofDefaulted? (if s.conditions.isEmpty then none else some (encode s.conditions)) = some s.conditions :=
    ofDefaulted?_unless (decode?_encode_dict fun e he => decode?_encode_list fun c hc => decode?_encode_condition (h e he c hc))
      fun hn => SortedMap.ext_toList (List.isEmpty_iff.1 hn)
  simp only [encode, decode?]
  simp [hc]

/-- A management ingress is read back if the times of its status lie in the calendar. -/
theorem decode?_encode_ingress {i : ManagementIngress} (h : ∀ s, i.status = some s → s.InCalendar) :
    decode? (encode i) = some i := by
  have hs : ofOptional? (i.status.map encode) = some i.status :=
    ofOptional?_map_of (fun s hs => decode?_encode_status (h s hs)) fun _ => nofun
  simp only [encode, decode?]
  simp [hs]

/-- An instant that is read lies in the calendar. -/
theorem inCalendar_of_decode?_instant {j : Json} {t : Instant} (h : decode? j = some t) : t.InCalendar := by
  obtain ⟨s, -, hs⟩ := Option.bind_eq_some_iff.1 h
  simp only [Rfc3339.decode?, Option.bind_eq_bind, Option.bind_eq_some_iff] at hs
  obtain ⟨⟨date, cs⟩, -, hs⟩ := hs
  dsimp only at hs
  split at hs
  · split at hs
    · simp only [Option.bind_eq_some_iff] at hs
      obtain ⟨⟨second, nanos, cs'⟩, -, hs⟩ := hs
      dsimp only at hs
      obtain ⟨⟨offset, cs''⟩, -, hs⟩ := hs
      dsimp only at hs
      split at hs
      · next hc =>
        cases hs
        exact hc.2
      · cases hs
    · cases hs
  · cases hs

/-- The time of a condition that is read lies in the calendar. -/
theorem inCalendar_of_decode?_condition {j : Json} {c : Condition} (h : decode? j = some c) :
    c.lastTransitionTime.InCalendar := by
  simp only [decode?, Option.bind_eq_bind, Option.bind_eq_some_iff] at h
  obtain ⟨ms, -, _, -, _, -, t, ht, _, -, _, -, hc⟩ := h
  cases hc
  obtain ⟨j', -, hj'⟩ := Option.bind_eq_some_iff.1 ht
  exact inCalendar_of_decode?_instant hj'

/-- The times of a status that is read lie in the calendar. -/
theorem inCalendar_of_decode?_status {j : Json} {s : IngressStatus} (h : decode? j = some s) : s.InCalendar := by
  simp only [decode?, Option.bind_eq_bind, Option.bind_eq_some_iff] at h
  obtain ⟨ms, -, conditions, hc, _, -, _, -, _, -, hs⟩ := h
  cases hs
  intro e he c hce
  unfold defaulted? at hc
  split at hc
  · cases hc
    cases he
  · obtain ⟨je, hje⟩ := exists_of_decode?_dict hc he
    obtain ⟨jc, hjc⟩ := exists_of_decode?_list hje hce
    exact inCalendar_of_decode?_condition hjc

/-- The times of a management ingress that is read lie in the calendar. -/
theorem inCalendar_of_decode?_ingress {j : Json} {i : ManagementIngress} (h : decode? j = some i) {s : IngressStatus}
    (hs : i.status = some s) : s.InCalendar := by
  simp only [decode?, Option.bind_eq_bind, Option.bind_eq_some_iff] at h
  obtain ⟨ms, -, _, -, _, -, status, ht, hi⟩ := h
  cases hi
  cases hs
  unfold optional? at ht
  split at ht
  · cases ht
  · cases ht
  · obtain ⟨s', hs', he⟩ := Option.map_eq_some_iff.1 ht
    cases he
    exact inCalendar_of_decode?_status hs'
end Wire

/-- An object of any kind that has no times in its status is read back. -/
theorem Kind.decode?_encode {k : Kind} (h : k ≠ .managementIngress) (x : k.Object) : k.decode? (k.encode x) = some x := by
  cases k with
  | managementIngress => exact absurd rfl h
  | _ => exact Wire.decode?_encode x

end IngressOperator
