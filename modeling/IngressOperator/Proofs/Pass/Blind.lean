import IngressOperator.Proofs.Pass.Abreast
import IngressOperator.Proofs.Steps.Abreast

/-!
# Passes whose clocks tell different times

What a pass comes to does not depend on the time, nor on what only the server gives. Two passes for one custom resource may be made
at different times, and take different time to wait for what never comes: they end in the same way and leave the same objects, but
for what the clocks and the server have told.

## Main statements

* `Pass.sides_blind`: a pass comes to the same whatever the clock tells.
-/

namespace IngressOperator

/-- What only the server and the clock tell is passed over. -/
def Blur.told : Blur where
  identity := true
  given := true
  note := true

variable {σ : Type} {h : Proc.Handler σ}

/-! ### What is told is passed over -/

theorem SortedMap.get?_mapValues {κ α β : Type} [Ord κ] (f : α → β) (m : SortedMap κ α) (k : κ) :
    (m.mapValues f).get? k = (m.get? k).map f := by
  simp only [SortedMap.get?, SortedMap.mapValues]
  induction m.toList with
  | nil => rfl
  | cons e l ih =>
    simp only [List.map_cons, Entries.find?]
    split
    · rfl
    · exact ih

/-- Statuses that say the same are the same but for the times of their conditions. -/
theorem IngressStatus.Concurs.timeless {C : Instant → Instant → Prop} {s s' : IngressStatus} (hs : s.Concurs C s')
    (ho : s.operandState = s'.operandState) : s.timeless = s'.timeless := by
  have hcs {cs cs' : List Condition} (hcs : List.Forall₂ (Condition.Concurs C) cs cs') :
      (cs.map fun c => { c with lastTransitionTime := default }) = cs'.map fun c => { c with lastTransitionTime := default } := by
    induction hcs with
    | nil => rfl
    | cons hc _ ih =>
      rw [List.map_cons, List.map_cons, ih, hc.type, hc.status, hc.reason, hc.message]
  have hconditions : s.timeless.conditions = s'.timeless.conditions := by
    refine SortedMap.ext_get? fun kind => ?_
    simp only [IngressStatus.timeless, SortedMap.get?_mapValues]
    have hkind := hs.conditions kind
    generalize s.conditions.get? kind = o at hkind ⊢
    generalize s'.conditions.get? kind = o' at hkind ⊢
    cases hkind with
    | none => rfl
    | some hrel => exact congrArg some (hcs hrel)
  have hpods := hs.podState
  have hhost := hs.host
  obtain ⟨conditions, podState, host, operandState⟩ := s
  obtain ⟨conditions', podState', host', operandState'⟩ := s'
  simp only [IngressStatus.timeless] at hconditions hpods hhost ho ⊢
  rw [hconditions, hpods, hhost, ho]

/-- A custom resource that is read with statuses that say the same is the same but for what is told. -/
theorem Blur.same_again {C : Instant → Instant → Prop} {ingress : ManagementIngress} {version version' : Option String}
    {status status' : Option IngressStatus} (hs : (status.getD {}).Concurs C (status'.getD {}))
    (ho : (status.getD {}).operandState = (status'.getD {}).operandState) :
    Blur.told.Same .managementIngress (ingress.again version status) (ingress.again version' status') := by
  have hobject (version : Option String) (status : Option IngressStatus) :
      Blur.told.object .managementIngress (ingress.again version status) =
        { metadata := Blur.told.metadata ingress.metadata, spec := ingress.spec, status := some (status.getD {}).timeless } := rfl
  rw [Same, hobject, hobject, hs.timeless ho]

/-- What is created is the same as what was written but for what is told. -/
theorem Blur.same_completes {k : Kind} {x y : k.Object} (hc : k.Completes x y) : Blur.told.Same k y x := by
  have hobject (z : k.Object) : Blur.told.object k (k.unassigned z) = Blur.told.object k z := by
    cases k <;> rfl
  rw [Same, ← hobject x, ← hobject y]
  exact congrArg (Blur.told.object k) hc

/-! ### Blind views -/

/-- Whether the custom resource is read from a document, as whichever version, with a status. -/
def ManagementIngress.ReadWith (ingress : ManagementIngress) (status : IngressStatus) (doc : Option Json) : Prop :=
  ∃ j version stored, doc = some j ∧ Kind.decode? .managementIngress j = some (ingress.again version stored) ∧
    stored.getD {} = status

/-- Runs are compared whatever the clocks tell, as long as it lies in the calendar; on either side the custom resource is read with
what was reported there last. -/
def View.blind (ingress : ManagementIngress) (w w' : IngressStatus) : View σ where
  toPace := .free fun e => ∀ now, e = ⟨.now, now⟩ → now.InCalendar
  blur _ := .told
  Around _ _ := True
  Clock now now' := now.InCalendar ∧ now'.InCalendar
  Custom o o' := ingress.ReadWith w o ∧ ingress.ReadWith w' o'

/-- A store that tells the same of the cluster at all times treats alike what such a view does not tell apart. -/
theorem ObjectStore.Steady.fair {S : ObjectStore h} (hS : S.Steady) (ingress : ManagementIngress) (w w' : IngressStatus) :
    S.Fair (View.blind ingress w w') where
  around _ _ _ _ := trivial
  follows _ _ _ := trivial
  created _ _ _ _ _ hs _ _ _ _ hx hy := (Blur.same_completes hx).trans (hs.trans (Blur.same_completes hy).symm)
  skips _ _ _ hb := absurd hb nofun
  skipped _ hb := absurd hb nofun
  discovers {r _ _} hs ht hr _ := by
    cases r with
    | baseDomain => exact hS.baseDomain hs ht
    | clusterDomain => exact hS.clusterDomain hs ht
    | apiServer => exact hS.apiServer hs ht
    | _ => exact absurd hr id
  now _ _ _ hgrant hgrant' := ⟨hgrant _ rfl, hgrant' _ rfl⟩
  noted _ := .inl rfl

section

variable {S : ObjectStore h} {ingress : ManagementIngress} {ns : String}
  {before before' : ObjectKey → Option Json}

/-- States side by side in the end: what was reported last says the same. -/
def ObjectStore.Ended (S : ObjectStore h) (ingress : ManagementIngress) (ns : String) (before before' : ObjectKey → Option Json)
    (s t : σ) : Prop :=
  ∃ w w', IngressStatus.Concurs (View.blind (σ := σ) ingress w w').Clock w w' ∧ w.operandState = w'.operandState ∧
    S.Aligned (View.blind ingress w w') ingress ns before before' s t

/-- A report is stored on both sides. -/
theorem abreast_writeStatus_blind {key : ObjectKey} (hkey : Kind.objectKey? .managementIngress ingress = some key)
    {w w' status status' : IngressStatus} (hc : status.InCalendar) (hc' : status'.InCalendar) :
    Proc.Abreast h (View.blind (σ := σ) ingress w w').toPace (S.Aligned (View.blind ingress w w') ingress ns before before')
      (Pass.writeStatus ingress w status).run (Pass.writeStatus ingress w' status').run fun a b s t =>
        a = .ok status ∧ b = .ok status' ∧ S.Aligned (View.blind ingress status status') ingress ns before before' s t := by
  intro s t hi a x s' hg b y t' hg' _ _
  obtain ⟨hread, hread'⟩ := hi.custom hkey
  obtain ⟨ha, hreports⟩ := Pass.reports_writeStatus S hi.holds hkey hread hc hg
  obtain ⟨hb, hreports'⟩ := Pass.reports_writeStatus S hi.holds' hkey hread' hc' hg'
  have hframe {w status : IngressStatus} {a : Except Failure IngressStatus} {x : List Exchange} {s s' : σ} (hs : S.Holds s)
      (hg : (Pass.writeStatus ingress w status).run.Goes h s a x s') (other : ObjectKey)
      (hne : Kind.objectKey? .managementIngress ingress ≠ some other) : S.stored s' other = S.stored s other :=
    S.stored_of_goes (Pass.writesOnly_writeStatus ingress w status) (fun hm => hne (Option.mem_toList.1 hm)) hs hg
  refine ⟨⟨ha, hb, ?_⟩, trivial⟩
  refine hi.report (ingress.apart_ownedKeys ns) (S.holds_goes hi.holds hg) (S.holds_goes hi.holds' hg') rfl trivial
    (hframe hi.holds hg) (hframe hi.holds' hg') fun other hother => ?_
  cases Option.some.inj (hkey.symm.trans hother)
  exact ⟨hreports, hreports'⟩

variable (hS : S.Steady) (hconfined : S.Confined) (hagree : ∀ key, key.ns = ns → before key = before' key) {key : ObjectKey}
  (hkey : Kind.objectKey? .managementIngress ingress = some key)

include hS hconfined hagree hkey

/-- A pass runs abreast of itself whatever the clocks tell. -/
theorem Pass.sides_blind (setup : Setup) :
    Sides h (Pace.free fun e => ∀ now, e = ⟨.now, now⟩ → now.InCalendar) (fun now now' => now.InCalendar ∧ now'.InCalendar)
      (fun w w' => S.Aligned (View.blind ingress w w') ingress ns before before') Eq
      (S.Ended ingress ns before before') setup ingress ns := by
  have hF (w w' : IngressStatus) := hS.fair ingress w w'
  have hunits (w w' : IngressStatus) : Units setup.steps True ingress ns fun p =>
      Proc.Tandem h (View.blind (σ := σ) ingress w w').toPace (S.Aligned (View.blind ingress w w') ingress ns before before') Eq p p := by
    refine units_tandem (hF w w') (fun _ _ => rfl) fun _ wait name hname => ?_
    obtain ⟨hm, hdocs⟩ := Steps.issued?_agree hname hagree
    exact (Steps.tandem_awaitSecret_blind hm hdocs wait (fun _ _ => trivial) fun _ _ => trivial).imp fun _ _ he => he.eq
  refine
    { legacy := fun w w' => tandem_removeLegacy (hF w w')
      resolve := fun w w' => (hunits w w').resolveHost setup (fun _ => trivial) none
      step := fun w w' host base step hm =>
        ((hunits w w').runStep host hm (fun _ => trivial) base).imp fun _ _ hxy => hxy ▸ echoes_same _
      now := fun w w' => tandem_now (hF w w')
      pods := fun w w' => tandem_look (hF w w') rfl fun s t hi _ _ => ?_
      write := ?_
      ends := fun hw ho _ _ hi => ⟨_, _, hw, ho, hi⟩ }
  · exact hconfined hi.holds hi.holds' fun key hk hns => hi.pod hk (hagree key hns)
  · intro w w' s s' hw hs
    have hc := hs.inCalendar fun _ _ hn => hn.1
    have hc' := hs.flip.inCalendar fun _ _ hn => hn.2
    refine (abreast_writeStatus_blind hkey hc hc').mono (fun _ _ hi => hi) ?_
    rintro a b u v ⟨rfl, rfl, hi⟩
    exact .inl ⟨rfl, rfl, hi⟩

end

end IngressOperator
