import IngressOperator.Proofs.Cluster.Even
import IngressOperator.Proofs.Pass.Blind
import IngressOperator.Proofs.Pass.Repeat

/-!
# Namespaces that do not interfere

A pass for a custom resource goes by nothing that lies in another namespace, and changes nothing there. Passes for custom resources
in different namespaces may therefore be made in either order.

## Main statements

* `Pass.namespaces_apart`: passes in different namespaces do not interfere.
-/

namespace IngressOperator

variable {σ : Type} {h : Proc.Handler σ}

/-! ### Documents -/

/-- A document without version and identity. -/
def Json.unassigned (j : Json) : Json := Cluster.withMeta "uid" "" (Cluster.withMeta "resourceVersion" "" j)

/-- Whether two documents are the same but for their versions and the identities that the server gives. -/
def SameButAssigned (o o' : Option Json) : Prop := o.map Json.unassigned = o'.map Json.unassigned

/-- Version and identity are passed over, and nothing else. -/
def Blur.assigned : Blur where
  identity := true

theorem SameButVersion.sameButAssigned {o o' : Option Json} (hs : SameButVersion o o') : SameButAssigned o o' := by
  have hu := congrArg (Option.map (Cluster.withMeta "uid" "")) hs
  rwa [Option.map_map, Option.map_map] at hu

/-- Objects that are the same but for version and identity are written as such documents. -/
theorem Blur.Same.unassigned_encode {k : Kind} {x y : k.Object} (hs : Blur.assigned.Same k x y) :
    (k.encode x).unassigned = (k.encode y).unassigned := by
  have hencode (z : k.Object) : (k.encode z).unassigned =
      k.encode (k.withMetadata z { k.metadata z with resourceVersion := some "", uid := some "" }) := by
    rw [Json.unassigned, Cluster.withVersion_encode, Cluster.withIdentity_encode, Kind.withVersion, Kind.metadata_withMetadata,
      Blur.withMetadata_withMetadata]
  have hcontent (z : k.Object) : Blur.assigned.content k z = z := by
    cases k <;> rfl
  rw [hencode, hencode, hs.filled hcontent (fun m => { m with resourceVersion := some "", uid := some "" }) fun _ => rfl]

theorem Blur.Matches.sameButAssigned {k : Kind} {o o' : Option Json} (hm : Blur.assigned.Matches k o o') : SameButAssigned o o' := by
  cases hm with
  | same => rfl
  | written hs => exact congrArg some hs.unassigned_encode
  | read hb => exact absurd hb nofun

/-- Whether two documents under a key are the same, or what objects were written as that are but for what is passed over, or such
custom resources are read from them. -/
inductive Blur.Agree (b : Blur) : ObjectKey → Option Json → Option Json → Prop where
  | same (key : ObjectKey) (o : Option Json) : Agree b key o o
  | written {k : Kind} {x y : k.Object} (ns name : String) (hs : b.Same k x y) :
    Agree b (k.keyAt ns name) (some (k.encode x)) (some (k.encode y))
  | reported {j j' : Json} {x y : ManagementIngress} (ns name : String) (hx : Kind.decode? .managementIngress j = some x)
    (hy : Kind.decode? .managementIngress j' = some y) (hs : b.Same .managementIngress x y) :
    Agree b (Kind.managementIngress.keyAt ns name) (some j) (some j')

theorem Blur.Agree.symm {b : Blur} {key : ObjectKey} {o o' : Option Json} (ha : b.Agree key o o') : b.Agree key o' o := by
  cases ha with
  | same => exact .same _ _
  | written ns name hs => exact .written ns name hs.symm
  | reported ns name hx hy hs => exact .reported ns name hy hx hs.symm

theorem Blur.Matches.agree {b : Blur} (hb : b.key = false) {k : Kind} {ns name : String} {o o' : Option Json}
    (hm : b.Matches k o o') : b.Agree (k.keyAt ns name) o o' := by
  cases hm with
  | same => exact .same _ _
  | written hs => exact .written ns name hs
  | read hkey => exact absurd (hb.symm.trans hkey) nofun

/-! ### What a pass leaves -/

/-- A pass writes nothing but the objects of the operand and the custom resource. -/
theorem Pass.writesOnly_run {setup : Setup} {ingress : ManagementIngress} {ns : String} (hns : ingress.metadata.ns = some ns) :
    (run setup ingress).WritesOnly (ownedKeys ns ++ (Kind.objectKey? .managementIngress ingress).toList) := by
  refine Proc.Asks.mono ((permits_within setup ingress ns).entire.run hns (fun _ hm => hm) id) fun r hr key ht => ?_
  rcases hr.target? ht with howned | ⟨-, hkey⟩
  · exact List.mem_append_left _ howned
  · exact List.mem_append_right _ (Option.mem_toList.2 hkey)

/-- A pass leaves every other namespace as it was. -/
theorem Pass.stored_of_ns_ne {S : ObjectStore h} {setup : Setup} {ingress : ManagementIngress} {ns : String}
    (hns : ingress.metadata.ns = some ns) {s s' : σ} {a : Except PassFailure PassOutcome} {x : List Exchange} (hs : S.Holds s)
    (hg : (run setup ingress).Goes h s a x s') {key : ObjectKey} (hk : key.ns ≠ ns) : S.stored s' key = S.stored s key := by
  refine S.stored_of_goes (writesOnly_run hns) (fun hm => hk ?_) hs hg
  rcases List.mem_append.1 hm with howned | hkey
  · exact ns_of_mem_ownedKeys howned
  · have hmeta := (Kind.of_objectKey? (Option.mem_toList.1 hkey)).2.1
    exact Option.some.inj (hmeta.symm.trans hns)

/-! ### The same objects in a namespace -/

/-- What a pass comes to goes by the objects of its namespace and by its surroundings alone. -/
theorem Pass.run_confined {S : ObjectStore h} {Around : σ → σ → Prop} (hE : S.Even (fun _ => Blur.assigned) Around)
    (hconfined : S.Confined) {setup : Setup} {ingress : ManagementIngress} {ns : String} (hns : ingress.metadata.ns = some ns)
    {s t s' t' : σ} {a b : Except PassFailure PassOutcome} {x y : List Exchange} (hs : S.Holds s) (ht : S.Holds t)
    (haround : Around s t) (hagree : ∀ key, key.ns = ns → S.stored s key = S.stored t key)
    (hg : (run setup ingress).Goes h s a x s') (hg' : (run setup ingress).Goes h t b y t') :
    a = b ∧ List.Forall₂ (fun e e' => Request.Alike (fun _ => Blur.assigned) e.request e'.request) x y ∧
      ∀ key, key.ns = ns → SameButAssigned (S.stored s' key) (S.stored t' key) := by
  have hF : S.Fair (View.level (Pace.step fun _ => Blur.assigned) (fun _ => Blur.assigned) Around) :=
    hE.fair (fun hr _ _ => .cons hr .nil) (fun _ _ _ hb => absurd hb nofun) fun _ hb => absurd hb nofun
  have hcustom (key : ObjectKey) (hkey : Kind.objectKey? .managementIngress ingress = some key) :
      SameButVersion (S.stored s key) (S.stored t key) := by
    have hmeta := (Kind.of_objectKey? hkey).2.1
    rw [hagree key (Option.some.inj (hmeta.symm.trans hns))]
    rfl
  have hstart := ObjectStore.aligned_start (V := View.level (Pace.step fun _ => Blur.assigned) (fun _ => Blur.assigned) Around)
    hs ht haround (fun key hm => hagree key (ns_of_mem_ownedKeys hm)) hcustom
  have hunits : Units setup.steps True ingress ns fun p =>
      Proc.Tandem h (Pace.step fun _ => Blur.assigned)
        (S.Aligned (View.level (Pace.step fun _ => Blur.assigned) (fun _ => Blur.assigned) Around) ingress ns (S.stored s)
          (S.stored t)) Eq p p := by
    refine units_tandem hF (fun _ _ => rfl) fun _ wait name hname => ?_
    obtain ⟨hm, hdocs⟩ := Steps.issued?_agree hname hagree
    exact (Steps.tandem_awaitSecret_clocked hF hm hdocs wait fun _ _ hn => hn).imp fun _ _ he => he.eq
  have hsides := sides_level (A := Eq) hE hF
    (fun _ _ hi => hconfined hi.holds hi.holds' fun key hk hkns => hi.pod hk (hagree key hkns)) fun host base step hm =>
      (hunits.runStep host hm (fun _ => trivial) base).imp fun _ _ hxy => hxy ▸ echoes_same _
  obtain ⟨⟨hend, hi⟩, hfollows⟩ := hsides.run hns (.refl fun _ _ _ _ _ => rfl) s t hstart a x s' hg b y t' hg'
    (fun _ _ => trivial) fun _ _ => trivial
  refine ⟨hend.eq, hfollows, fun key hkns => ?_⟩
  by_cases howned : key ∈ ownedKeys ns
  · obtain ⟨k, name, rfl⟩ := exists_of_mem_ownedKeys howned
    exact (hi.owned howned).sameButAssigned
  · by_cases hkey : Kind.objectKey? .managementIngress ingress = some key
    · exact (hi.custom hkey).sameButAssigned
    · obtain ⟨hrest, hrest'⟩ := hi.rest howned hkey
      rw [hrest, hrest', hagree key hkns]
      rfl

/-! ### Either order -/

/-- A status that is read has its times in the calendar. -/
theorem ObjectStore.Reports.inCalendar {S : ObjectStore h} {ingress : ManagementIngress} {key : ObjectKey} {status : IngressStatus}
    {s : σ} (hr : S.Reports ingress key status s) : status.InCalendar := by
  obtain ⟨j, version, stored, -, hx, rfl⟩ := hr
  cases stored with
  | none => exact fun _ he => absurd he List.not_mem_nil
  | some status => exact Wire.inCalendar_of_decode?_ingress hx rfl

/-- Two passes for a custom resource that is stored as it was read, from states that keep the same objects in its namespace, end in
the same way, and leave the same there but for what clock and server told. -/
theorem Pass.run_blind {S : ObjectStore h} (hS : S.Steady) (hconfined : S.Confined) {setup : Setup} {ingress : ManagementIngress}
    {ns : String} (hns : ingress.metadata.ns = some ns) {key : ObjectKey}
    (hkey : Kind.objectKey? .managementIngress ingress = some key) {s t s' t' : σ} {a b : Except PassFailure PassOutcome}
    {x y : List Exchange} (hs : S.Holds s) (ht : S.Holds t) (hread : S.Reports ingress key (ingress.status.getD {}) s)
    (hagree : ∀ key, key.ns = ns → S.stored s key = S.stored t key) (hg : (run setup ingress).Goes h s a x s')
    (hg' : (run setup ingress).Goes h t b y t') (hx : ∀ now, (⟨.now, now⟩ : Exchange) ∈ x → now.InCalendar)
    (hy : ∀ now, (⟨.now, now⟩ : Exchange) ∈ y → now.InCalendar) :
    a = b ∧ ∀ key, key.ns = ns → Blur.told.Agree key (S.stored s' key) (S.stored t' key) := by
  have hkns : key.ns = ns := Option.some.inj ((Kind.of_objectKey? hkey).2.1.symm.trans hns)
  have hread' : S.Reports ingress key (ingress.status.getD {}) t := hread.congr (hagree key hkns).symm
  have hstart := ObjectStore.aligned_start (S := S)
    (V := View.blind ingress (ingress.status.getD {}) (ingress.status.getD {})) hs ht trivial
    (fun other hm => hagree other (ns_of_mem_ownedKeys hm)) fun other hother => by
      cases Option.some.inj (hkey.symm.trans hother)
      exact ⟨hread, hread'⟩
  have hsides := sides_blind hS hconfined hagree hkey setup
  have hstatus : (ingress.status.getD {}).Concurs (fun now now' => now.InCalendar ∧ now'.InCalendar) (ingress.status.getD {}) :=
    .refl fun kind cs hcs c hc => by
      have hc := IngressStatus.inCalendar_iff.1 hread.inCalendar kind cs hcs c hc
      exact ⟨hc, hc⟩
  obtain ⟨⟨hend, w, w', hw, ho, hi⟩, -⟩ := hsides.run hns hstatus s t hstart a x s' hg b y t' hg'
    (fun e he now hnow => hx now (hnow ▸ he)) fun e he now hnow => hy now (hnow ▸ he)
  refine ⟨hend.eq, fun other hother => ?_⟩
  by_cases howned : other ∈ ownedKeys ns
  · obtain ⟨k, name, rfl⟩ := exists_of_mem_ownedKeys howned
    exact (hi.owned howned).agree rfl
  · by_cases hcustom : Kind.objectKey? .managementIngress ingress = some other
    · obtain ⟨⟨j, version, status, hj, hdecode, rfl⟩, j', version', status', hj', hdecode', rfl⟩ := hi.custom hcustom
      rw [hj, hj', Kind.eq_keyAt_of_objectKey? hcustom]
      exact .reported _ _ hdecode hdecode' (Blur.same_again hw ho)
    · obtain ⟨hrest, hrest'⟩ := hi.rest howned hcustom
      rw [hrest, hrest', hagree other hother]
      exact .same _ _

/-- Passes in different namespaces do not interfere.

A pass from two states that keep the same objects in its namespace, in surroundings that are the same, ends in the same way, asks for
the same, leaves the same objects there, and leaves every other namespace as it was; identities and versions, which the server gives,
are passed over. And two passes in different namespaces may be made in either order: each ends in the same way, and the same objects
are left but for what clock and server told. -/
theorem Pass.namespaces_apart (S : ObjectStore h) (hconfined : S.Confined) (hsteady : S.Steady) {Around : σ → σ → Prop}
    (heven : S.Even (fun _ => Blur.assigned) Around) (setup setup' : Setup) {ingress ingress' : ManagementIngress} {ns ns' : String}
    (hns : ingress.metadata.ns = some ns) (hns' : ingress'.metadata.ns = some ns') (hne : ns ≠ ns') {s : σ} (hs : S.Holds s) :
    (∀ {t s' t' : σ} {a b : Except PassFailure PassOutcome} {x y : List Exchange}, S.Holds t → Around s t →
      (∀ key, key.ns = ns → S.stored s key = S.stored t key) →
        (run setup ingress).Goes h s a x s' → (run setup ingress).Goes h t b y t' →
          a = b ∧ List.Forall₂ (fun e e' => Request.Alike (fun _ => Blur.assigned) e.request e'.request) x y ∧
            (∀ key, key.ns = ns → SameButAssigned (S.stored s' key) (S.stored t' key)) ∧
              ∀ key, key.ns ≠ ns → S.stored s' key = S.stored s key ∧ S.stored t' key = S.stored t key) ∧
    ∀ {key key' : ObjectKey} {s₁ s₂ t₁ t₂ : σ} {a a' b b' : Except PassFailure PassOutcome} {x x' y y' : List Exchange},
      Kind.objectKey? .managementIngress ingress = some key → S.Reports ingress key (ingress.status.getD {}) s →
        Kind.objectKey? .managementIngress ingress' = some key' → S.Reports ingress' key' (ingress'.status.getD {}) s →
          (run setup ingress).Goes h s a x s₁ → (run setup' ingress').Goes h s₁ b y s₂ →
            (run setup' ingress').Goes h s b' y' t₁ → (run setup ingress).Goes h t₁ a' x' t₂ →
              (∀ now, (⟨.now, now⟩ : Exchange) ∈ x ++ (y ++ (y' ++ x')) → now.InCalendar) →
                a = a' ∧ b = b' ∧ ∀ key, Blur.told.Agree key (S.stored s₂ key) (S.stored t₂ key) := by
  constructor
  · intro t s' t' a b x y ht haround hagree hg hg'
    obtain ⟨hend, hcalls, hwithin⟩ := run_confined heven hconfined hns hs ht haround hagree hg hg'
    exact ⟨hend, hcalls, hwithin, fun key hk => ⟨stored_of_ns_ne hns hs hg hk, stored_of_ns_ne hns ht hg' hk⟩⟩
  · intro key key' s₁ s₂ t₁ t₂ a a' b b' x x' y y' hkey hread hkey' hread' hg₁ hg₂ hg₁' hg₂' htimes
    have hs₁ := S.holds_goes hs hg₁
    have ht₁ := S.holds_goes hs hg₁'
    obtain ⟨ha, hagree⟩ := run_blind hsteady hconfined hns hkey hs ht₁ hread
      (fun key hk => (stored_of_ns_ne hns' hs hg₁' fun he => hne (hk.symm.trans he)).symm) hg₁ hg₂'
      (fun now hm => htimes now (by simp [hm])) fun now hm => htimes now (by simp [hm])
    obtain ⟨hb, hagree'⟩ := run_blind hsteady hconfined hns' hkey' hs hs₁ hread'
      (fun key hk => (stored_of_ns_ne hns hs hg₁ fun he => hne (he.symm.trans hk)).symm) hg₁' hg₂
      (fun now hm => htimes now (by simp [hm])) fun now hm => htimes now (by simp [hm])
    refine ⟨ha, hb.symm, fun key => ?_⟩
    by_cases hk : key.ns = ns
    · rw [stored_of_ns_ne hns' hs₁ hg₂ fun he => hne (hk.symm.trans he)]
      exact hagree key hk
    · rw [stored_of_ns_ne hns ht₁ hg₂' hk]
      by_cases hk' : key.ns = ns'
      · exact (hagree' key hk').symm
      · rw [stored_of_ns_ne hns' hs₁ hg₂ hk', stored_of_ns_ne hns hs hg₁ hk, stored_of_ns_ne hns' hs hg₁' hk']
        exact .same _ _

/-! ### Two namespaces -/

namespace Cluster.Neighbours

/-- The small cluster's custom resource once more, in another namespace. -/
def ingress : ManagementIngress where
  metadata := { name := some "default", ns := some "other", resourceVersion := some "3", uid := some "v" }
  spec := Small.ingress.spec

/-- The small cluster with that. -/
def cluster : Cluster :=
  { Small.cluster with
    objects := Small.cluster.objects.put (Kind.managementIngress.keyAt "other" "default") (Kind.encode .managementIngress ingress)
    version := 3 }

/-- The secret that the cluster's own certificate authority has issued there. -/
def secret : Secret where
  metadata := { name := some Names.serviceSecret, ns := some "other", resourceVersion := some "4" }
  data := Small.secret.data

/-- The same cluster once that secret is there. -/
def issued : Cluster :=
  { cluster with
    objects := cluster.objects.put (Kind.secret.keyAt "other" Names.serviceSecret) (Kind.encode .secret secret)
    version := 4 }

theorem calm : cluster.Calm {} :=
  have hingress : Filed (Kind.managementIngress.keyAt "other" "default") (Kind.encode .managementIngress ingress) :=
    filed_encode rfl rfl rfl
  Small.calm.put hingress 3 {}

theorem calm_issued : issued.Calm {} :=
  have hsecret : Filed (Kind.secret.keyAt "other" Names.serviceSecret) (Kind.encode .secret secret) := filed_encode rfl rfl rfl
  calm.put hsecret 4 {}

/-- The secret is all that is there besides. -/
theorem get?_issued {key : ObjectKey} (hk : key.ns = "ns") : cluster.objects.get? key = issued.objects.get? key := by
  refine (Objects.get?_put.trans (if_neg ?_)).symm
  rintro rfl
  exact absurd hk (by decide)

end Cluster.Neighbours

open Cluster in
/-- The pass over the small cluster comes to the same whatever is in the other namespace, and may be made before or after that for
the custom resource there. -/
theorem Pass.small_namespaces_apart :
    ((run Small.setup Small.ingress).run Direct.handler Neighbours.cluster).1 =
        ((run Small.setup Small.ingress).run Direct.handler Neighbours.issued).1 ∧
      ((run Small.setup Small.ingress).run Direct.handler Neighbours.issued).1 =
        ((run Small.setup Small.ingress).run Direct.handler
          ((run Small.setup Neighbours.ingress).run Direct.handler Neighbours.issued).2).1 ∧
      ((run Small.setup Neighbours.ingress).run Direct.handler
          ((run Small.setup Small.ingress).run Direct.handler Neighbours.issued).2).1 =
        ((run Small.setup Neighbours.ingress).run Direct.handler Neighbours.issued).1 ∧
      ∀ key, Blur.told.Agree key
        (((run Small.setup Neighbours.ingress).run Direct.handler
          ((run Small.setup Small.ingress).run Direct.handler Neighbours.issued).2).2.objects.get? key)
        (((run Small.setup Small.ingress).run Direct.handler
          ((run Small.setup Neighbours.ingress).run Direct.handler Neighbours.issued).2).2.objects.get? key) := by
  have hcalm : (Direct.store {}).Holds Neighbours.issued := Neighbours.calm_issued
  have htimes : ((run Small.setup Small.ingress).trace Direct.handler Neighbours.issued ++
      ((run Small.setup Neighbours.ingress).trace Direct.handler
          ((run Small.setup Small.ingress).run Direct.handler Neighbours.issued).2 ++
        ((run Small.setup Neighbours.ingress).trace Direct.handler Neighbours.issued ++
          (run Small.setup Small.ingress).trace Direct.handler
            ((run Small.setup Neighbours.ingress).run Direct.handler Neighbours.issued).2))).all timely = true := by
    decide +kernel
  have hread : (Direct.store {}).Reports Small.ingress (Kind.managementIngress.keyAt "ns" "default") {} Neighbours.issued :=
    (Direct.store {}).reports_self (j := Kind.encode .managementIngress Small.ingress) rfl (Wire.decode?_encode_ingress nofun)
  have hread' : (Direct.store {}).Reports Neighbours.ingress (Kind.managementIngress.keyAt "other" "default") {}
      Neighbours.issued :=
    (Direct.store {}).reports_self (j := Kind.encode .managementIngress Neighbours.ingress) rfl
      (Wire.decode?_encode_ingress nofun)
  have hns : Small.ingress.metadata.ns = some "ns" := rfl
  have hns' : Neighbours.ingress.metadata.ns = some "other" := rfl
  obtain ⟨hfirst, hsecond⟩ := namespaces_apart (Direct.store {}) (Direct.confined_store {}) (Direct.steady_store {})
    (Direct.even_store {} fun _ => rfl) Small.setup Small.setup hns hns' (by decide) hcalm
  obtain ⟨hsame, -⟩ := hfirst Neighbours.calm rfl (fun key hk => (Neighbours.get?_issued hk).symm) (Proc.Goes.of_run _ _ _)
    (Proc.Goes.of_run _ _ _)
  obtain ⟨ha, hb, hobjects⟩ := hsecond rfl hread rfl hread' (Proc.Goes.of_run _ _ _) (Proc.Goes.of_run _ _ _)
    (Proc.Goes.of_run _ _ _) (Proc.Goes.of_run _ _ _) fun now hm => of_decide_eq_true (List.all_eq_true.1 htimes _ hm)
  exact ⟨hsame.symm, ha, hb, hobjects⟩

end IngressOperator
