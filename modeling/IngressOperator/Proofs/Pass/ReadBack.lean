import IngressOperator.Proofs.Cluster.Direct
import IngressOperator.Proofs.Pass.Report
import IngressOperator.Proofs.Program.Heeds
import IngressOperator.Proofs.Store.Custody
import IngressOperator.Proofs.Wire.Regular

/-!
# Custom resources that are read back

What stands in a custom resource goes through texts. Its specification is read back from every text of it, and so is its status if
its times lie in the calendar. So the status with which a custom resource is read after one was accepted is the very status that
was asked for, and a pass, which asks for a new status only if it is another one than it knows to be stored, does not ask for it
again.

## Main statements

* `Pass.heeds_renews`: a pass asks for no status that it knows to be stored.
* `Pass.status_read_back`: a status is read back as it was written, and is not written again.
-/

namespace IngressOperator

/-! ### Times -/

/-- An instant of the years 0 to 9999, outside leap seconds. -/
def Instant.Ordinary (t : Instant) : Prop :=
  0 ≤ (Date.ofDays t.days).year ∧ (Date.ofDays t.days).year ≤ 9999 ∧ t.nanos < Instant.perSecond

instance (t : Instant) : Decidable t.Ordinary := inferInstanceAs (Decidable (_ ∧ _ ∧ _))

theorem Instant.Ordinary.inCalendar {t : Instant} (h : t.Ordinary) : t.InCalendar := by
  obtain ⟨hfirst, hlast, hnanos⟩ := h
  refine ⟨?_, .inl hnanos⟩
  simp only [Date.InReach]
  omega

/-- All times of a status are ordinary. -/
def IngressStatus.Ordinary (s : IngressStatus) : Prop := ∀ e ∈ s.conditions.toList, ∀ c ∈ e.2, c.lastTransitionTime.Ordinary

instance (s : IngressStatus) : Decidable s.Ordinary :=
  inferInstanceAs (Decidable (∀ e ∈ s.conditions.toList, ∀ c ∈ e.2, c.lastTransitionTime.Ordinary))

theorem IngressStatus.Ordinary.inCalendar {s : IngressStatus} (h : s.Ordinary) : s.InCalendar :=
  fun e he c hc => (h e he c hc).inCalendar

/-! ### Requests for what is stored -/

/-- Whether a request that follows some exchanges asks for another status than the one that is stored then, or for none. -/
def Request.Renews (stored : IngressStatus) (t : List Exchange) : Request → Prop
  | .updateStatus _ status => reported t stored ≠ status
  | _ => True

namespace Pass

variable {setup : Setup} {ingress : ManagementIngress} {ns : String} {stored written status : IngressStatus} {t : List Exchange}

/-- What does not report asks for no status, and leaves the one that is stored. -/
theorem heeds_of_unreporting {α : Type} {p : Proc α} (hp : p.Unreporting) (ht : reported t stored = written) :
    p.Heeds (fun _ _ => True) (Request.Renews stored) (fun t _ => reported t stored = written) t := by
  refine .of_asks hp (fun {t r} ht hr => ⟨?_, fun answer => ?_⟩) ht
  · cases r with
    | updateStatus _ _ => exact absurd trivial hr
    | _ => trivial
  · have hone : ∀ x ∈ [(⟨r, answer⟩ : Exchange)], ¬ x.request.Reports := List.forall_mem_singleton.2 hr
    rw [reported_append, reported_eq_self hone]
    exact ht

/-- A status is asked for only if it is not the stored one, and is stored once it is accepted. -/
theorem heeds_writeStatus_renews (ingress : ManagementIngress) (status : IngressStatus) (ht : reported t stored = written) :
    (writeStatus ingress written status).run.Heeds (fun _ _ => True) (Request.Renews stored)
      (fun t result => ∀ new, result = .ok new → reported t stored = new) t := by
  by_cases hne : written = status
  · rw [hne, writeStatus_self]
    intro new he
    cases he
    exact ht.trans hne
  · rw [run_writeStatus_of_ne hne]
    refine ⟨fun he => hne (ht.symm.trans he), fun answer _ new he => ?_⟩
    cases answer with
    | error e => cases he
    | ok _ =>
      cases he
      rw [reported_append]
      rfl

/-- The report that is begun is asked for only if it is not the stored one. -/
theorem heeds_announceHost_renews (ingress : ManagementIngress) (host : String) (ht : reported t stored = written) :
    (announceHost ingress written host).run.Heeds (fun _ _ => True) (Request.Renews stored)
      (fun t result => ∀ new, result = .ok new → reported t stored = new) t := by
  by_cases ho : ofHost written host
  · rw [announceHost_same ingress ho]
    intro new he
    cases he
    exact ht
  · rw [run_announceHost_of_not ho]
    refine ⟨trivial, fun now _ => heeds_writeStatus_renews ingress (begun host now) ?_⟩
    rw [reported_append]
    exact ht

/-- The report of a pass whose steps all ran is asked for only if it is not the stored one. -/
theorem heeds_finish_renews (ingress : ManagementIngress) (ns : String) (status : IngressStatus)
    (ht : reported t stored = written) :
    (finish ingress ns written status).run.Heeds (fun _ _ => True) (Request.Renews stored) (fun _ _ => True) t := by
  rw [run_finish]
  refine ⟨trivial, fun pods _ => (heeds_writeStatus_renews ingress (concluded status pods) ?_).bind fun _ _ _ => trivial⟩
  rw [reported_append]
  exact ht

/-- A pass asks for no status that it knows to be stored. -/
theorem heeds_renews (setup : Setup) (ingress : ManagementIngress) :
    (run setup ingress).Heeds (fun _ _ => True) (Request.Renews (ingress.status.getD {})) (fun _ _ => True) [] := by
  generalize hstored : ingress.status.getD {} = stored
  unfold run
  cases ingress.metadata.ns with
  | none => trivial
  | some ns =>
    have hparts := unreporting_parts ingress ns
    refine (heeds_of_unreporting (unreporting_removeLegacy ns) (t := []) rfl).bind fun t legacy ht => ?_
    rcases legacy with cause | (_ | _)
    · trivial
    · refine (heeds_of_unreporting (hparts.resolveHost setup none) ht).bind fun t resolved ht => ?_
      rcases resolved with cause | ⟨host, base⟩
      · exact (heeds_writeStatus_renews ingress _ (ht.trans hstored.symm)).bind fun _ _ _ => trivial
      · unfold runWithHost
        refine (heeds_announceHost_renews ingress host (ht.trans hstored.symm)).bind fun t announced hannounced => ?_
        rcases announced with cause | written
        · trivial
        · have hwritten := hannounced written rfl
          refine (heeds_of_unreporting (hparts.runSteps setup host setup.steps base written) hwritten).bind fun t ended ht => ?_
          obtain ⟨status, result⟩ := ended
          rcases result with ⟨kind, cause⟩ | synced
          · exact (heeds_writeStatus_renews ingress status ht).bind fun _ _ _ => trivial
          · refine (heeds_finish_renews ingress ns status ht).bind fun t finished _ => ?_
            cases finished <;> trivial
    · trivial

/-- However its requests are answered, a pass asks for no status that it knows to be stored. -/
theorem renews_of_yields {τ : Type} {R : Serving τ} {z z' : τ} {result : Except PassFailure PassOutcome}
    (hy : (run setup ingress).Yields R z result t z') {before after : List Exchange} {x : Exchange}
    (ht : t = before ++ x :: after) : x.request.Renews (ingress.status.getD {}) before :=
  ((heeds_renews setup ingress).yields hy fun _ _ => trivial).2 before x after ht

/-! ### What is read back -/

/-- After a status was accepted, a custom resource is read with that status, in a store that keeps its contract. -/
theorem exists_get_updateStatus {σ : Type} {h : Proc.Handler σ} (S : ObjectStore h) {s : σ} {key : ObjectKey} {j : Json}
    {live : ManagementIngress} (hs : S.Holds s) (hk : Kind.objectKey? .managementIngress ingress = some key)
    (hj : S.stored s key = some j) (hx : Kind.decode? .managementIngress j = some live) (hc : status.InCalendar) :
    (h (.updateStatus ingress status) s).1 = .ok () ∧ ∃ again : ManagementIngress,
      (h (.get .managementIngress key.ns key.name) (h (.updateStatus ingress status) s).2).1 = .ok (some again) ∧
        again.status = some status := by
  obtain ⟨ha, j', v, hj', hx'⟩ := S.updateStatus s ingress status key j live hs hk hj hx (Wire.decode?_encode_status hc)
  refine ⟨ha, { Kind.withVersion .managementIngress live v with status := some status }, ?_, rfl⟩
  rw [Kind.eq_keyAt_of_objectKey? hk] at hj'
  rw [S.get _ _ _ _ (S.holds _ s hs), hj', Kind.reading, hx']

/-- Specifications are read back from their texts, and so are statuses whose times are ordinary, with the custom resources that
have them. Where such a status was accepted by a store that keeps its contract, the custom resource is read with that very status,
and a pass for what was read does not ask for it again, however its requests are answered. -/
theorem status_read_back :
    (∀ spec : IngressSpec, Wire.RoundTrips spec) ∧ (∀ status : IngressStatus, status.Ordinary → Wire.RoundTrips status) ∧
      (∀ ingress : ManagementIngress, (∀ status ∈ ingress.status, status.Ordinary) → Wire.RoundTrips ingress) ∧
      ∀ {σ : Type} {h : Proc.Handler σ} (S : ObjectStore h) (s : σ) (ingress live : ManagementIngress) (status : IngressStatus)
        (key : ObjectKey) (j : Json), S.Holds s → Kind.objectKey? .managementIngress ingress = some key →
        S.stored s key = some j → Kind.decode? .managementIngress j = some live → status.Ordinary →
          (h (.updateStatus ingress status) s).1 = .ok () ∧ ∃ again : ManagementIngress,
            (h (.get .managementIngress key.ns key.name) (h (.updateStatus ingress status) s).2).1 = .ok (some again) ∧
              again.status = some status ∧
                ∀ (setup : Setup) {τ : Type} (R : Serving τ) (z z' : τ) (result : Except PassFailure PassOutcome)
                  (t : List Exchange), (run setup again).Yields R z result t z' →
                  ∀ before x after, t = before ++ x :: after → x.request.Renews status before := by
  refine ⟨fun spec => Wire.roundTrips_of (Wire.decode?_encode spec),
    fun status h => Wire.roundTrips_of (Wire.decode?_encode_status h.inCalendar),
    fun ingress h => Wire.roundTrips_of (Wire.decode?_encode_ingress fun status hs => (h status hs).inCalendar), ?_⟩
  intro σ h S s ingress live status key j hs hk hj hx hc
  obtain ⟨ha, again, hget, hstatus⟩ := exists_get_updateStatus S hs hk hj hx hc.inCalendar
  refine ⟨ha, again, hget, hstatus, fun setup τ R z z' result t hy before x after ht => ?_⟩
  have hrenews := renews_of_yields hy ht
  rwa [hstatus] at hrenews

/-! ### On a small cluster -/

open Cluster

/-- A status with a kind that has no conditions, and with another one whose condition changed within a second and says nothing. -/
def partlyEmpty : IngressStatus where
  conditions := .ofList [
    ("Deployment", []), ("Route", [⟨.ready, .false, ⟨1700000000, 120000000, by decide⟩, "", "secret \"ca\"\tis gone\n"⟩])]
  podState := { notReady := ["pod"] }

/-- The status is read back after it was written on the small cluster, and a pass there does not write it again. -/
theorem partlyEmpty_read_back :
    Wire.RoundTrips Small.ingress.spec ∧ Wire.RoundTrips partlyEmpty ∧
      Wire.RoundTrips { Small.ingress with status := some partlyEmpty } ∧
      (Direct.handler (.updateStatus Small.ingress partlyEmpty) Small.cluster).1 = .ok () ∧ ∃ again : ManagementIngress,
        (Direct.handler (.get .managementIngress "ns" "default")
            (Direct.handler (.updateStatus Small.ingress partlyEmpty) Small.cluster).2).1 = .ok (some again) ∧
          again.status = some partlyEmpty ∧
            ∀ before x after, (run Small.setup again).trace Direct.handler Small.cluster = before ++ x :: after →
              x.request.Renews partlyEmpty before := by
  have hordinary : partlyEmpty.Ordinary := by decide
  obtain ⟨hspec, hstatus, hresource, hstore⟩ := status_read_back
  obtain ⟨ha, again, hget, hagain, hpass⟩ := hstore (Direct.store {}) Small.cluster Small.ingress Small.ingress partlyEmpty
    (Kind.managementIngress.keyAt "ns" "default") (Kind.encode .managementIngress Small.ingress) Small.calm rfl
    (by decide) (Wire.decode?_encode_ingress nofun) hordinary
  refine ⟨hspec _, hstatus _ hordinary, hresource _ ?_, ha, again, hget, hagain, ?_⟩
  · intro status hs
    cases hs
    exact hordinary
  · have hg := Proc.Goes.of_run Direct.handler (run Small.setup again) Small.cluster
    exact hpass Small.setup Direct.handler.serving _ _ _ _ hg.yields

end Pass

end IngressOperator
