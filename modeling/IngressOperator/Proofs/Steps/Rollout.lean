import IngressOperator.Proofs.Cluster.Direct
import IngressOperator.Proofs.Drift.Agree
import IngressOperator.Proofs.Pass.Restart

/-!
# When the pods of the operand are replaced

The operand reads a config map when it starts, so keeping this map goes on to replace the operand's pods if the map that was there
is written. It is written if its data are not the desired ones, but also if it had no owners and takes them over. On a store whose
calls do not fail, these are the only cases in which keeping a config map writes a deployment; what it writes then notes a time on
the pods and changes nothing else.

## Main statements

* `replaced_iff`: an object is replaced exactly if there is one that differs from the desired one or takes over its owners.
* `Steps.goes_restart`: a deployment that is there is replaced by one that notes the time.
* `Steps.rolls_out_iff`: when keeping a config map writes a deployment, and what it writes.
-/

namespace IngressOperator

/-! ### Writes of a kind -/

/-- The kind of the object that a request may change. -/
def Request.changes? : Request → Option Kind
  | .create k _ | .update k _ | .delete k _ _ => some k
  | .updateStatus _ _ => some .managementIngress
  | _ => none

/-- Whether an exchange wrote, or tried to write, an object of a kind. -/
def Exchange.WritesKind (k : Kind) (x : Exchange) : Prop := x.Writes ∧ x.request.changes? = some k

section

variable {σ : Type} {h : Proc.Handler σ}

/-- The object of a name that a store keeps, if there is one and it can be read. -/
def ObjectStore.read? (S : ObjectStore h) (s : σ) (k : Kind) (ns name : String) : Option k.Object :=
  (S.stored s (k.keyAt ns name)).bind k.decode?

/-- Keeping an object changes no objects of other kinds. -/
theorem changes?_keeping {j k : Kind} {desired : k.Object} {ns name : String} {revise : k.Object → Option k.Object}
    {idle : Outcome} (hk : k.key desired = .ok (ns, name)) (hne : k ≠ j) :
    (keeping k desired revise idle).run.Asks (fun _ _ => True) fun r => r.changes? ≠ some j :=
  asks_keeping hk (fun he => hne (Option.some.inj he)) nofun fun _ _ he => hne (Option.some.inj he)

/-- An object that has no namespace or no name is not kept, and nothing is asked for. -/
theorem run_keeping_of_key_error {k : Kind} {desired : k.Object} {e : Failure} (hk : k.key desired = .error e)
    (revise : k.Object → Option k.Object) (idle : Outcome) : (keeping k desired revise idle).run = .done (.error e) := by
  unfold keeping createOrGet
  rw [hk]
  rfl

/-- The key of a desired object, or the lack of one, is that of the object with its owner. -/
theorem key_owned_eq (owner : ManagementIngress) (k : Kind) (desired : k.Object) :
    k.key (owned owner k desired) = k.key desired := by
  obtain ⟨refs, ho⟩ := owned_eq owner k desired
  unfold Kind.key
  rw [ho, Kind.metadata_withMetadata]
  rfl

theorem run_ensure_of_key_error (owner : ManagementIngress) (k : OwnedKind) {desired : k.kind.Object} {e : Failure}
    (hk : k.kind.key desired = .error e) : (ensure owner k desired).run = .done (.error e) := by
  rw [ensure_eq]
  exact run_keeping_of_key_error ((key_owned_eq owner k.kind desired).trans hk) _ _

/-- Bringing an object to the desired one changes no objects of other kinds. -/
theorem changes?_ensure (owner : ManagementIngress) (k : OwnedKind) (desired : k.kind.Object) {j : Kind} (hne : k.kind ≠ j) :
    (ensure owner k desired).run.Asks (fun _ _ => True) fun r => r.changes? ≠ some j := by
  cases hk : k.kind.key desired with
  | error e =>
    rw [run_ensure_of_key_error owner k hk]
    trivial
  | ok key =>
    rw [ensure_eq]
    exact changes?_keeping (key_owned owner hk) hne

/-- A config map differs from the desired one exactly if its data do; no data count as empty ones. -/
theorem Drift.configMap_changed_iff {live desired : ConfigMap} :
    (Drift.configMap live desired).changed = true ↔ live.data.getD ∅ ≠ desired.data.getD ∅ := by
  simp [Drift.configMap, sameEntries]

variable (S : ObjectStore h) {s : σ}

/-- An object is replaced exactly if there is one that is revised. -/
theorem replaced_keeping_iff {k : Kind} {desired : k.Object} {ns name : String} {revise : k.Object → Option k.Object}
    {idle : Outcome} (hs : S.Holds s) (hm : k ≠ .managementIngress) (hk : k.key desired = .ok (ns, name))
    (hr : Settles k desired revise) (hidle : idle ≠ .updated) :
    (∃ synced, ((keeping k desired revise idle).run.run h s).1 = .ok synced ∧ synced.outcome = .updated) ↔
      ∃ live, S.read? s k ns name = some live ∧ revise live ≠ none := by
  have hkept := Kept.of_run S idle hs hm hk hr
  unfold ObjectStore.read?
  generalize S.stored s (k.keyAt ns name) = before at hkept ⊢
  generalize ((keeping k desired revise idle).run.run h s).1 = result at hkept ⊢
  generalize S.stored ((keeping k desired revise idle).run.run h s).2 (k.keyAt ns name) = after at hkept
  cases hkept with
  | created y hy => simp
  | refused j hj => simp [hj]
  | left j live hj hw => simp [hj, hw, hidle]
  | written j live x version hj hw => simp [hj, hw]

/-- An object that is brought to the desired one is replaced exactly if there is one that differs from it or takes over its
owners. -/
theorem replaced_iff {owner : ManagementIngress} {k : OwnedKind} {desired : k.kind.Object} {ns name : String} (hs : S.Holds s)
    (hk : k.kind.key desired = .ok (ns, name)) (hd : (Drift.object k desired desired).changed = false) :
    (∃ synced, ((ensure owner k desired).run.run h s).1 = .ok synced ∧ synced.outcome = .updated) ↔
      ∃ live, S.read? s k.kind ns name = some live ∧
        ((Drift.object k live desired).changed = true ∨ adopts k.kind live (owned owner k.kind desired) = true) := by
  have hm : k.kind ≠ .managementIngress := by cases k <;> nofun
  obtain ⟨refs, ho⟩ := owned_eq owner k.kind desired
  rw [ensure_eq, replaced_keeping_iff S hs hm (key_owned owner hk) (settles_revision k (changed_owned owner hd))
    (by decide)]
  refine exists_congr fun live => and_congr_right fun _ => ?_
  have hsame : (Drift.object k live (owned owner k.kind desired)).changed = (Drift.object k live desired).changed := by
    rw [ho, Drift.object_withMetadata]
  rw [ne_eq, revision_eq_none, hsame, Decidable.not_and_iff_not_or_not, Bool.not_eq_false, Bool.not_eq_false]

end

/-! ### Notes of a time -/

/-- The annotations of the pods of a deployment; where any of the structures that they stand in is lacking, there are none. -/
def Deployment.podAnnotations (d : Deployment) : Dict String := (d.template.metadata.getD {}).annotations.getD ∅

/-- Whether a deployment differs from an earlier one in its version and in the note on its pods, and in nothing else: it carries a
certain note, and where the structures that this stands in were lacking, there are empty ones around it. -/
structure Deployment.Noted (before after : Deployment) (note : String) : Prop where
  metadata : ∃ version, after.metadata = { before.metadata with resourceVersion := some version }
  status : after.status = before.status
  spec : after.spec = some { before.spec.getD {} with template := after.template }
  template : after.template = { before.template with
    metadata := some { before.template.metadata.getD {} with annotations := some after.podAnnotations } }
  note : after.podAnnotations.get? Names.configUpdated = some note
  others : ∀ key, key ≠ Names.configUpdated → after.podAnnotations.get? key = before.podAnnotations.get? key

/-- Noting a time changes nothing but the note and the version. -/
theorem noted_stamped (d : Deployment) (now : Instant) (version : String) :
    d.Noted (Kind.withVersion .deployment (Steps.stamped d now) version) (Rfc2822.encode now) where
  metadata := ⟨version, rfl⟩
  status := rfl
  spec := rfl
  template := rfl
  note := SortedMap.get?_insert_self
  others _ hkey := SortedMap.get?_insert_of_ne hkey

namespace Steps

section

variable {σ : Type} {h : Proc.Handler σ} (S : ObjectStore h) {s : σ} {ns : String}

/-- A deployment that is there is replaced by one that notes the time which is read. -/
theorem goes_restart (hs : S.Holds s) {d : Deployment} (hd : S.read? s .deployment ns Names.app = some d) :
    ∃ now y s' version,
      (restart ns).run.Goes h s (.ok [⟨.deployment, Names.app, .updated⟩])
        [⟨.get .deployment ns Names.app, .ok (some d)⟩, ⟨.now, now⟩, ⟨.update .deployment (stamped d now), .ok y⟩] s' ∧
      S.read? s' .deployment ns Names.app = some (Kind.withVersion .deployment (stamped d now) version) := by
  obtain ⟨j, hj, hx⟩ := Option.bind_eq_some_iff.1 hd
  have hget : (h (.get .deployment ns Names.app) s).1 = .ok (some d) := by
    rw [S.get s .deployment ns Names.app hs, hj, Kind.reading, hx]
  have hs₁ := S.holds (.get .deployment ns Names.app) s hs
  have hs₂ := S.holds .now _ hs₁
  have hplaced := Kind.objectKey?_eq.2 (S.placed s .deployment ns Names.app j d hs hj hx)
  generalize hs₁' : (h (.get .deployment ns Names.app) s).2 = s₁ at hs₁ hs₂
  have hj₂ : S.stored (h .now s₁).2 (Kind.deployment.keyAt ns Names.app) = some j := by
    rw [S.stored_of_untargeted hs₁ rfl, ← hs₁', S.stored_of_untargeted hs rfl, hj]
  obtain ⟨⟨y, hy⟩, version, hv⟩ := S.update _ .deployment (stamped d (h .now s₁).1) _ j d hs₂ (by decide) hplaced hj₂ hx rfl
  refine ⟨(h .now s₁).1, y, (h (.update .deployment (stamped d (h .now s₁).1)) (h .now s₁).2).2, version, ⟨?_, ?_⟩, ?_⟩
  · rw [run_restart, Proc.run_ask, hget, hs₁']
    simp only [Proc.run_ask, hy, Proc.run_done]
  · rw [run_restart, Proc.trace_ask, hget, hs₁']
    simp only [Proc.trace_ask, hy, Proc.trace_done]
  · rw [ObjectStore.read?, hv, Option.bind_some, Kind.decode?_encode (k := .deployment) (by decide)]

/-- Where there is none that can be read, nothing is written. -/
theorem quiet_restart (hs : S.Holds s) (hd : S.read? s .deployment ns Names.app = none) : (restart ns).run.Quiet h s := by
  rw [run_restart]
  refine Proc.quiet_ask id ?_
  rw [S.get s .deployment ns Names.app hs]
  unfold ObjectStore.read? at hd
  cases hj : S.stored s (Kind.deployment.keyAt ns Names.app) with
  | none => exact Proc.quiet_done _ _ _
  | some j =>
    rw [hj, Option.bind_some] at hd
    simp only [Kind.reading, hd]
    exact Proc.quiet_done _ _ _

/-- Where there is one, the time that is read is noted on its pods, and no other deployment is written. -/
theorem rolls_restart (hs : S.Holds s) {d : Deployment} (hd : S.read? s .deployment ns Names.app = some d) :
    ∃ d' now, S.read? ((restart ns).run.run h s).2 .deployment ns Names.app = some d' ∧
      (⟨.now, now⟩ : Exchange) ∈ (restart ns).run.trace h s ∧ d.Noted d' (Rfc2822.encode now) ∧
      (∃ x ∈ (restart ns).run.trace h s, x.WritesKind .deployment) ∧
      ∀ x ∈ (restart ns).run.trace h s, x.WritesKind .deployment →
        x.request.target? = some (Kind.deployment.keyAt ns Names.app) := by
  obtain ⟨now, y, s', version, ⟨hrun, htrace⟩, hd'⟩ := goes_restart S hs hd
  obtain ⟨j, hj, hx⟩ := Option.bind_eq_some_iff.1 hd
  have hplaced := Kind.objectKey?_eq.2 (S.placed s .deployment ns Names.app j d hs hj hx)
  rw [hrun, htrace]
  refine ⟨_, now, hd', by simp, noted_stamped d now version, ?_, ?_⟩
  · exact ⟨⟨.update .deployment (stamped d now), .ok y⟩, by simp, trivial, rfl⟩
  · intro x hx hw
    simp only [List.mem_cons, List.not_mem_nil, or_false] at hx
    rcases hx with rfl | rfl | rfl
    · exact absurd hw.1 id
    · exact absurd hw.1 id
    · exact hplaced

/-! ### Keeping a config map -/

variable {ingress : ManagementIngress} {desired : ConfigMap} {name : String}

/-- Keeping a config map that the operand does not read writes no deployment. -/
theorem spares_deployment (ingress : ManagementIngress) (desired : ConfigMap) (s : σ) :
    ∀ x ∈ (configMap ingress desired false).run.trace h s, ¬ x.WritesKind .deployment := by
  have hasks : (configMap ingress desired false).run.Asks (fun _ _ => True) fun r => r.changes? ≠ some .deployment := by
    unfold configMap
    refine Action.asks_bind ?_ fun _ => trivial
    exact changes?_ensure ingress .configMap desired nofun
  intro x hx hw
  exact hasks.all_trace h s x hx hw.2

/-- A config map is replaced exactly if there is one that has other data or takes over its owners. -/
theorem replaced_configMap_iff (ingress : ManagementIngress) (hs : S.Holds s)
    (hk : Kind.configMap.key desired = .ok (ns, name)) :
    (∃ synced, ((ensure ingress .configMap desired).run.run h s).1 = .ok synced ∧ synced.outcome = .updated) ↔
      ∃ live, S.read? s .configMap ns name = some live ∧
        (live.data.getD ∅ ≠ desired.data.getD ∅ ∨ adopts .configMap live (owned ingress .configMap desired) = true) := by
  refine (replaced_iff S (k := .configMap) hs hk (Drift.configMap_self desired)).trans ?_
  exact exists_congr fun live => and_congr_right fun _ => or_congr_left Drift.configMap_changed_iff

/-- Bringing a config map to the desired one leaves every deployment as it was. -/
theorem read?_ensure_configMap (ingress : ManagementIngress) (hs : S.Holds s)
    (hk : Kind.configMap.key desired = .ok (ns, name)) (ns' name' : String) :
    S.read? ((ensure ingress .configMap desired).run.run h s).2 .deployment ns' name' = S.read? s .deployment ns' name' := by
  have hwrites := writesOnly_ensure ingress (k := .configMap) hk (Drift.configMap_self desired)
  have hother : Kind.deployment.keyAt ns' name' ∉ [Kind.configMap.keyAt ns name] := by simp [Kind.keyAt, Kind.name]
  unfold ObjectStore.read?
  rw [S.stored_of_writesOnly hwrites hother hs]

/-- Keeping a config map that the operand reads either replaces the deployment, after it has replaced the map, or writes no
deployment, since there was nothing to replace in the map or the deployment is not there. -/
theorem rolled_or_spared (ingress : ManagementIngress) (hs : S.Holds s) (hk : Kind.configMap.key desired = .ok (ns, name)) :
    let kept := (configMap ingress desired true).run
    let replaces := ∃ live, S.read? s .configMap ns name = some live ∧
      (live.data.getD ∅ ≠ desired.data.getD ∅ ∨ adopts .configMap live (owned ingress .configMap desired) = true)
    (∃ d d' now, replaces ∧ S.read? s .deployment ns Names.app = some d ∧
      S.read? (kept.run h s).2 .deployment ns Names.app = some d' ∧ (⟨.now, now⟩ : Exchange) ∈ kept.trace h s ∧
      d.Noted d' (Rfc2822.encode now) ∧ (∃ x ∈ kept.trace h s, x.WritesKind .deployment) ∧
      ∀ x ∈ kept.trace h s, x.WritesKind .deployment → x.request.target? = some (Kind.deployment.keyAt ns Names.app)) ∨
    (∀ x ∈ kept.trace h s, ¬ x.WritesKind .deployment) ∧ (replaces → S.read? s .deployment ns Names.app = none) := by
  intro kept replaces
  have hreplaces : _ ↔ replaces := replaced_configMap_iff S ingress hs hk
  have hread := read?_ensure_configMap S ingress hs hk ns Names.app
  have hmap : ∀ x ∈ (ensure ingress .configMap desired).run.trace h s, ¬ x.WritesKind .deployment := fun x hx hw =>
    (changes?_ensure ingress .configMap desired (j := .deployment) nofun).all_trace h s x hx hw.2
  have hs₁ := S.holds_run (ensure ingress .configMap desired).run hs
  have hkept : kept = (ensure ingress .configMap desired).run >>= Pass.afterConfiguration ns := Pass.run_configMap hk
  rw [hkept, Proc.trace_bind, Proc.run_bind]
  generalize ((ensure ingress .configMap desired).run.run h s).1 = answer at hreplaces ⊢
  generalize ((ensure ingress .configMap desired).run.run h s).2 = s₁ at hread hs₁ ⊢
  generalize (ensure ingress .configMap desired).run.trace h s = t at hmap ⊢
  rw [← hreplaces]
  -- the map itself is no deployment, so only what comes after it counts
  have hspared {p : Proc (Except Failure (List Synced))} (hq : p.Quiet h s₁) :
      ∀ x ∈ t ++ p.trace h s₁, ¬ x.WritesKind .deployment := by
    intro x hx hw
    rcases List.mem_append.1 hx with hx | hx
    · exact hmap x hx hw
    · exact hq x hx hw.1
  cases answer with
  | error e =>
    refine .inr ⟨hspared (Proc.quiet_done _ _ _), ?_⟩
    rintro ⟨synced, he, -⟩
    cases he
  | ok synced =>
    by_cases ho : synced.outcome = .updated
    · have hafter : Pass.afterConfiguration ns (.ok synced) =
          (restart ns).run >>= fun restarted => .done (restarted.map (synced :: ·)) := by simp [Pass.afterConfiguration, ho]
      rw [hafter, ← hread]
      cases hd : S.read? s₁ .deployment ns Names.app with
      | none => exact .inr ⟨hspared ((quiet_restart S hs₁ hd).bind (Proc.quiet_done _ _ _)), fun _ => rfl⟩
      | some d =>
        obtain ⟨d', now, hd', hnow, hnoted, ⟨x, hx, hw⟩, htarget⟩ := rolls_restart S hs₁ hd
        simp only [Proc.trace_bind, Proc.run_bind, Proc.trace_done, Proc.run_done, List.append_nil]
        refine .inl ⟨d, d', now, ⟨synced, rfl, ho⟩, rfl, hd', List.mem_append_right _ hnow, hnoted, ?_, ?_⟩
        · exact ⟨x, List.mem_append_right _ hx, hw⟩
        · intro x hx hw
          rcases List.mem_append.1 hx with hx | hx
          · exact absurd hw (hmap x hx)
          · exact htarget x hx hw
    · have hafter : Pass.afterConfiguration ns (.ok synced) = .done (.ok [synced]) := by simp [Pass.afterConfiguration, ho]
      rw [hafter]
      refine .inr ⟨hspared (Proc.quiet_done _ _ _), ?_⟩
      rintro ⟨synced', he, ho'⟩
      cases he
      exact absurd ho' ho

/-- When keeping a config map writes a deployment, and what it writes. With a restart it writes one exactly if the map is there
and is written, because its data are not the desired ones or because it had no owners and takes them over, and the deployment of
the operand is there; without a restart it never does. The deployment that is stored then is that of the operand, with the time
that was read noted on its pods. -/
theorem rolls_out_iff (ingress : ManagementIngress) (desired : ConfigMap) (hs : S.Holds s) :
    ((∃ x ∈ (configMap ingress desired true).run.trace h s, x.WritesKind .deployment) ↔
      ∃ ns name live d, Kind.configMap.key desired = .ok (ns, name) ∧ S.read? s .configMap ns name = some live ∧
        (live.data.getD ∅ ≠ desired.data.getD ∅ ∨ adopts .configMap live (owned ingress .configMap desired) = true) ∧
        S.read? s .deployment ns Names.app = some d) ∧
    (∀ x ∈ (configMap ingress desired false).run.trace h s, ¬ x.WritesKind .deployment) ∧
    ∀ x ∈ (configMap ingress desired true).run.trace h s, x.WritesKind .deployment →
      ∃ ns d d' now, desired.metadata.ns = some ns ∧ x.request.target? = some (Kind.deployment.keyAt ns Names.app) ∧
        S.read? s .deployment ns Names.app = some d ∧
        S.read? ((configMap ingress desired true).run.run h s).2 .deployment ns Names.app = some d' ∧
        (⟨.now, now⟩ : Exchange) ∈ (configMap ingress desired true).run.trace h s ∧ d.Noted d' (Rfc2822.encode now) := by
  cases hk : Kind.configMap.key desired with
  | error e =>
    have hrun : (configMap ingress desired true).run = .done (.error e) := by
      unfold configMap
      rw [ExceptT.run_bind, run_ensure_of_key_error ingress .configMap hk]
      rfl
    have hnone {x : Exchange} : x ∉ (configMap ingress desired true).run.trace h s := by
      rw [hrun]
      exact List.not_mem_nil
    refine ⟨⟨?_, ?_⟩, spares_deployment ingress desired s, fun x hx _ => absurd hx hnone⟩
    · rintro ⟨x, hx, -⟩
      exact absurd hx hnone
    · rintro ⟨ns, name, live, d, hkey, -⟩
      cases hkey
  | ok key =>
    obtain ⟨ns, name⟩ := key
    have hns : desired.metadata.ns = some ns := (Kind.key_eq_ok.1 hk).1
    rcases rolled_or_spared S ingress hs hk with hrolled | ⟨hspared, habsent⟩
    · obtain ⟨d, d', now, ⟨live, hlive, hdiffers⟩, hd, hd', hnow, hnoted, hwrites, htarget⟩ := hrolled
      refine ⟨⟨?_, ?_⟩, spares_deployment ingress desired s, ?_⟩
      · exact fun _ => ⟨ns, name, live, d, rfl, hlive, hdiffers, hd⟩
      · exact fun _ => hwrites
      · exact fun x hx hw => ⟨ns, d, d', now, hns, htarget x hx hw, hd, hd', hnow, hnoted⟩
    · refine ⟨⟨?_, ?_⟩, spares_deployment ingress desired s, ?_⟩
      · rintro ⟨x, hx, hw⟩
        exact absurd hw (hspared x hx)
      · rintro ⟨ns', name', live, d, hkey, hlive, hdiffers, hd⟩
        cases hkey
        rw [habsent ⟨live, hlive, hdiffers⟩] at hd
        cases hd
      · exact fun x hx hw => absurd hw (hspared x hx)

end

open Cluster Pass

/-! ### Small clusters -/

/-- What a cluster keeps under a key is what is read there. -/
theorem read?_of_objects (facts : ClusterFacts) (k : Kind) (hk : k ≠ .managementIngress) {c : Cluster} {ns name : String}
    {x : k.Object} (h : c.objects.get? (k.keyAt ns name) = some (k.encode x)) :
    (Direct.store facts).read? c k ns name = some x := by
  have hstored : (Direct.store facts).stored c (k.keyAt ns name) = some (k.encode x) := h
  rw [ObjectStore.read?, hstored, Option.bind_some, Kind.decode?_encode hk]

/-- The small cluster with a config map in the place of the operand's configuration, and with the operand's deployment. -/
def configured (x : ConfigMap) : Cluster :=
  { Small.cluster with
    objects := (Small.cluster.objects.put (Kind.configMap.keyAt "ns" Names.config) (Kind.encode .configMap x)).put
      (Kind.deployment.keyAt "ns" Names.app) (Kind.encode .deployment Reconfigured.workload)
    version := 4 }

/-- These two are what is read there. -/
theorem read?_configured (x : ConfigMap) :
    (Direct.store {}).read? (configured x) .configMap "ns" Names.config = some x ∧
      (Direct.store {}).read? (configured x) .deployment "ns" Names.app = some Reconfigured.workload := by
  refine ⟨read?_of_objects {} .configMap nofun ?_, read?_of_objects {} .deployment nofun ?_⟩
  · rw [configured, Objects.get?_put, if_neg (by decide), Objects.get?_put, if_pos rfl]
  · rw [configured, Objects.get?_put, if_pos rfl]

open Reconfigured in
/-- Where the configuration is another one and the deployment is there, the time is noted on the pods and nothing else changes. -/
theorem reconfigured_rolls_out :
    let desired := Desired.configMap "ns" Names.config resource.spec.config
    let kept := (configMap resource desired true).run
    ∃ x ∈ kept.trace Direct.handler cluster, x.WritesKind .deployment ∧ ∃ d' now,
      (Direct.store {}).read? (kept.run Direct.handler cluster).2 .deployment "ns" Names.app = some d' ∧
      workload.Noted d' (Rfc2822.encode now) := by
  intro desired kept
  obtain ⟨hmap, hd⟩ := read?_configured configuration
  obtain ⟨hiff, -, hnoted⟩ := rolls_out_iff (Direct.store {}) resource desired calm
  obtain ⟨x, hx, hw⟩ := hiff.2 ⟨"ns", Names.config, configuration, workload, rfl, hmap, .inl (by decide), hd⟩
  obtain ⟨ns, d, d', now, hns, -, hd₁, hd', -, hn⟩ := hnoted x hx hw
  cases hns
  cases hd.symm.trans hd₁
  exact ⟨x, hx, hw, d', now, hd', hn⟩

namespace Orphaned

/-- A config map with the configuration of the operand that nothing owns. -/
def configuration : ConfigMap := Kind.withVersion .configMap (Desired.configMap "ns" Names.config ∅) "3"

/-- Nothing happens on its own in a cluster with it. -/
theorem calm : (configured configuration).Calm {} := by
  have hdeployment : Filed (Kind.deployment.keyAt "ns" Names.app) (Kind.encode .deployment Reconfigured.workload) :=
    filed_encode rfl rfl rfl
  have hconfiguration : Filed (Kind.configMap.keyAt "ns" Names.config) (Kind.encode .configMap configuration) :=
    filed_encode rfl rfl rfl
  exact (Small.calm.put hconfiguration 3 {}).put hdeployment 4 {}

end Orphaned

open Orphaned in
/-- A config map that takes over owners has the pods replaced, although its data stay: it is not so that the deployment is written
only if the map was there with other data. -/
theorem adoption_rolls_out :
    ¬ ∀ (ingress : ManagementIngress) (desired : ConfigMap) (c : Cluster), c.Calm {} →
      (∃ x ∈ (configMap ingress desired true).run.trace Direct.handler c, x.WritesKind .deployment) →
        ∃ ns name live, Kind.configMap.key desired = .ok (ns, name) ∧
          (Direct.store {}).read? c .configMap ns name = some live ∧ live.data.getD ∅ ≠ desired.data.getD ∅ := by
  intro hclaim
  obtain ⟨hmap, hd⟩ := read?_configured configuration
  have hadopts : adopts .configMap configuration (owned Small.ingress .configMap (Desired.configMap "ns" Names.config ∅)) = true :=
    by decide
  have hkey : Kind.configMap.key (Desired.configMap "ns" Names.config ∅) = .ok ("ns", Names.config) := rfl
  rcases rolled_or_spared (Direct.store {}) Small.ingress calm hkey with ⟨d, d', now, -, -, -, -, -, hwrites, -⟩ | ⟨-, habsent⟩
  · obtain ⟨ns, name, live, hkey', hlive, hdata⟩ := hclaim Small.ingress _ (configured configuration) calm hwrites
    cases hkey'
    cases hmap.symm.trans hlive
    exact hdata rfl
  · rw [habsent ⟨configuration, hmap, .inr hadopts⟩] at hd
    cases hd

end Steps

end IngressOperator
