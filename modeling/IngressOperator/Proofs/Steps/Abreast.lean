import IngressOperator.Proofs.Pass.Owned
import IngressOperator.Proofs.Store.Beside

/-!
# Steps on stores side by side

What a step is made of keeps stores side by side, and comes to the same on both of them: what is kept, what is looked at and what is
waited for. A wait takes as long on both sides if the clocks tell the same, and comes to the same whatever they tell.

## Main statements

* `Pass.units_tandem`: what steps are made of keeps stores side by side.
* `Steps.tandem_awaitSecret_clocked`, `Steps.tandem_awaitSecret_blind`: so does waiting for a secret.
-/

namespace IngressOperator

/-- Failures and values are the same if they are related so. -/
theorem Echoes.eq {α : Type} {x y : Except Failure α} (he : Echoes Eq x y) : x = y := by
  cases he with
  | error e => rfl
  | ok hab => rw [hab]

theorem OwnedKind.kind_ne_managementIngress (k : OwnedKind) : k.kind ≠ .managementIngress := by
  cases k <;> nofun

variable {σ α β : Type} {h : Proc.Handler σ}

/-- Programs that keep a relation and come to the same are kept when they go on. -/
theorem Proc.Tandem.composes {P : Pace} {I : σ → σ → Prop} : Proc.Composes fun p => Proc.Tandem h P I Eq p p where
  done _ := Proc.Tandem.done rfl
  bind hp hf := hp.bind fun a _ hab => hab ▸ hf a

/-- What a step brings to a desired form belongs to the operand. -/
theorem Tracked.mem_ownedKeys {ingress : ManagementIngress} {ns name : String} {step : Step} {k : OwnedKind}
    {desired : k.kind.Object} (hw : Tracked ingress ns step k desired) (hk : k.kind.key desired = .ok (ns, name)) :
    k.kind.keyAt ns name ∈ ownedKeys ns :=
  step.targets_subset (List.mem_filter.1 (hw.mem_objects hk)).1

/-- The custom resource does not belong to the operand. -/
theorem ManagementIngress.apart_ownedKeys (ingress : ManagementIngress) (ns : String) : ingress.Apart (ownedKeys ns) := by
  intro key hkey
  rw [Kind.eq_keyAt_of_objectKey? hkey]
  exact ingress_not_mem_ownedKeys ns _ _

/-- Pods do not belong to the operand. -/
theorem pods_not_mem_ownedKeys {ns : String} {key : ObjectKey} (hk : key.kind = Kind.pod.name) : key ∉ ownedKeys ns := by
  intro hm
  obtain ⟨k, name, rfl⟩ := exists_of_mem_ownedKeys hm
  have hpod := Kind.name_injective hk
  cases k <;> cases hpod

/-- Two states side by side as to the objects of the operand in a namespace. -/
abbrev ObjectStore.Aligned (S : ObjectStore h) (V : View σ) (ingress : ManagementIngress) (ns : String)
    (before before' : ObjectKey → Option Json) : σ → σ → Prop :=
  S.Beside V ingress (ownedKeys ns) before before'

/-- States that keep the same objects of the operand are side by side. -/
theorem ObjectStore.aligned_start {S : ObjectStore h} {V : View σ} {ingress : ManagementIngress} {ns : String} {s t : σ}
    (hs : S.Holds s) (ht : S.Holds t) (ha : V.Around s t) (hagree : ∀ key ∈ ownedKeys ns, S.stored s key = S.stored t key)
    (hcustom : ∀ key, Kind.objectKey? .managementIngress ingress = some key → V.Custom (S.stored s key) (S.stored t key)) :
    S.Aligned V ingress ns (S.stored s) (S.stored t) s t where
  holds := hs
  holds' := ht
  around := ha
  owned hm := by
    rw [hagree _ hm]
    exact .same _
  custom hkey := hcustom _ hkey
  rest _ _ := ⟨rfl, rfl⟩

section

variable {S : ObjectStore h} {V : View σ} (hF : S.Fair V) {ingress : ManagementIngress} {ns : String}
  {before before' : ObjectKey → Option Json}

include hF

/-! ### Looking -/

omit hF in
/-- Pods that were the same are the same. -/
theorem ObjectStore.Beside.pod {s t : σ} (hi : S.Aligned V ingress ns before before' s t) {key : ObjectKey}
    (hk : key.kind = Kind.pod.name) (hb : before key = before' key) : S.stored s key = S.stored t key := by
  have hne : Kind.objectKey? .managementIngress ingress ≠ some key := by
    intro hkey
    have hkind := (Kind.of_objectKey? hkey).1
    exact absurd (Kind.name_injective (hk.symm.trans hkind)) nofun
  obtain ⟨hs, ht⟩ := hi.rest (pods_not_mem_ownedKeys hk) hne
  rw [hs, ht, hb]

omit hF in
/-- A secret that does not belong to the operand is as it was. -/
theorem ObjectStore.Beside.secret {s t : σ} (hi : S.Aligned V ingress ns before before' s t) {ns' name : String}
    (hm : Kind.secret.keyAt ns' name ∉ ownedKeys ns) :
    S.stored s (Kind.secret.keyAt ns' name) = before (Kind.secret.keyAt ns' name) ∧
      S.stored t (Kind.secret.keyAt ns' name) = before' (Kind.secret.keyAt ns' name) :=
  hi.rest hm (Kind.objectKey?_ne (j := .secret) (k := .managementIngress) (by decide) ingress ns' name)

/-- A request that may change nothing, and is answered the same, keeps states side by side. -/
theorem tandem_look {r : Request} (hr : r.target? = none) {R : r.Answer → r.Answer → Prop}
    (ha : ∀ s t, S.Aligned V ingress ns before before' s t → V.Grants ⟨r, (h r s).1⟩ → V.Grants ⟨r, (h r t).1⟩ →
      R (h r s).1 (h r t).1) :
    Proc.Tandem h V.toPace (S.Aligned V ingress ns before before') R (Proc.request r) (Proc.request r) := by
  refine Proc.Abreast.request fun s t hi hs ht => ?_
  have hlook := hi.look hF hr
  exact ⟨⟨ha s t hi hs ht, hlook.1⟩, hlook.2⟩

theorem tandem_discover {r : Request} (hr : r.Discovers) :
    Proc.Tandem h V.toPace (S.Aligned V ingress ns before before') Eq (Proc.request r) (Proc.request r) :=
  tandem_look hF hr.looks.target?_eq_none fun _ _ hi _ _ => hF.discovers hi.holds hi.holds' hr hi.around

/-- What is found out about the cluster is the same. -/
theorem tandem_inquires :
    Proc.Inquires True fun p => Proc.Tandem h V.toPace (S.Aligned V ingress ns before before') Eq p p :=
  { Proc.Tandem.composes with discover := fun _ _ hr => tandem_discover hF hr }

theorem tandem_now :
    Proc.Tandem h V.toPace (S.Aligned V ingress ns before before') V.Clock (Proc.request .now) (Proc.request .now) :=
  tandem_look hF rfl fun _ _ hi hs ht => hF.now hi.holds hi.holds' hi.around hs ht

/-! ### Keeping -/

/-- Objects that are desired the same but for what is passed over are kept alike if live ones are revised so. -/
theorem tandem_ensure_alike {k : OwnedKind} {desired desired' : k.kind.Object} {name : String} (hd : Sought ns k desired)
    (hd' : Sought ns k desired') (hk : k.kind.key desired = .ok (ns, name)) (hm : k.kind.keyAt ns name ∈ ownedKeys ns)
    (hs : (V.blur (k.kind.keyAt ns name)).Same k.kind desired desired')
    (hrev : ∀ x y, (V.blur (k.kind.keyAt ns name)).Same k.kind x y → (V.blur (k.kind.keyAt ns name)).Revised k.kind x y
      (revision k (owned ingress k.kind desired) x) (revision k (owned ingress k.kind desired') y)) :
    Proc.Tandem h V.toPace (S.Aligned V ingress ns before before')
      (Echoes (Synced.Alike (V.blur (k.kind.keyAt ns name)) k.kind name)) (ensure ingress k desired).run
      (ensure ingress k desired').run := by
  rw [ensure_eq, ensure_eq]
  exact tandem_keeping hF k.kind_ne_managementIngress hm (ingress.apart_ownedKeys ns) (key_owned ingress hk) (hs.owned ingress)
    (settles_revision k (changed_owned ingress hd.same)) (settles_revision k (changed_owned ingress hd'.same)) (fun _ => rfl) hrev

/-- An object whose private key, if it has one, is not passed over is kept alike. -/
theorem tandem_ensure {k : OwnedKind} {desired : k.kind.Object} {name : String} (hd : Sought ns k desired)
    (hk : k.kind.key desired = .ok (ns, name)) (hm : k.kind.keyAt ns name ∈ ownedKeys ns)
    (hb : (V.blur (k.kind.keyAt ns name)).key = false) :
    Proc.Tandem h V.toPace (S.Aligned V ingress ns before before') Eq (ensure ingress k desired).run
      (ensure ingress k desired).run := by
  refine (tandem_ensure_alike hF hd hd hk hm (.refl _) fun x y hs => Blur.revision_congr hs (fun _ => hb) _).imp ?_
  exact fun a b hab => (hab.imp fun _ _ hxy => hxy.eq hb).eq

/-- So is an object that is only to exist. -/
theorem tandem_ensureCreated {k : OwnedKind} {desired : k.kind.Object} {name : String} (hk : k.kind.key desired = .ok (ns, name))
    (hm : k.kind.keyAt ns name ∈ ownedKeys ns) (hb : (V.blur (k.kind.keyAt ns name)).key = false) :
    Proc.Tandem h V.toPace (S.Aligned V ingress ns before before') Eq (ensureCreated ingress k.kind desired).run
      (ensureCreated ingress k.kind desired).run := by
  have hsettles := settles_adoption k.kind (owned ingress k.kind desired)
  rw [ensureCreated_eq]
  refine (tandem_keeping hF k.kind_ne_managementIngress hm (ingress.apart_ownedKeys ns) (key_owned ingress hk) (.refl _) hsettles
    hsettles (fun hkey => absurd (hb.symm.trans hkey) nofun) fun x y hs => Blur.adoption_congr hs _).imp ?_
  exact fun a b hab => (hab.imp fun _ _ hxy => hxy.eq hb).eq

/-- The pods of the operand are replaced alike, at times that count as the same. -/
theorem tandem_restart :
    Proc.Tandem h V.toPace (S.Aligned V ingress ns before before') Eq (Steps.restart ns).run (Steps.restart ns).run := by
  have hm : Kind.deployment ≠ .managementIngress := by decide
  have hkey : Kind.deployment.keyAt ns Names.app ∈ ownedKeys ns := by simp [ownedKeys]
  rw [Steps.run_restart]
  refine Proc.Abreast.ask (abreast_get hF hm hkey) ?_
  rintro a b s t ⟨hfound, hi⟩
  cases hfound with
  | none => exact Proc.Tandem.done rfl s t hi
  | refused e => exact Proc.Tandem.done rfl s t hi
  | @some x y hs hx hy =>
    have hnow : Proc.Abreast h V.toPace
        (fun s t => S.Shows .deployment (Kind.deployment.keyAt ns Names.app) x s ∧
          S.Shows .deployment (Kind.deployment.keyAt ns Names.app) y t ∧ S.Aligned V ingress ns before before' s t)
        (Proc.request .now) (Proc.request .now) fun now now' s t =>
          V.Clock now now' ∧ S.Shows .deployment (Kind.deployment.keyAt ns Names.app) x s ∧
            S.Shows .deployment (Kind.deployment.keyAt ns Names.app) y t ∧ S.Aligned V ingress ns before before' s t := by
      refine Proc.Abreast.request ?_
      rintro s t ⟨hx, hy, hi⟩ hgrant hgrant'
      have hlook := hi.look hF (r := .now) rfl
      exact ⟨⟨hF.now hi.holds hi.holds' hi.around hgrant hgrant', hx.untargeted hi.holds rfl, hy.untargeted hi.holds' rfl, hlook.1⟩,
        hlook.2⟩
    refine Proc.Abreast.ask hnow ?_ s t ⟨hx, hy, hi⟩
    rintro now now' s t ⟨hclock, hx, hy, hi⟩
    have hstamped := hs.stamped ((hF.noted (Kind.deployment.keyAt ns Names.app)).imp_right fun hn => hn now now' hclock)
    have hreplaces (d : Deployment) (now : Instant) : Kind.deployment.Replaces (Steps.stamped d now) d := ⟨rfl, rfl, rfl⟩
    refine Proc.Abreast.ask
      (abreast_update hF hm hkey (ingress.apart_ownedKeys ns) hstamped (hreplaces x now) (hreplaces y now')) ?_ s t ⟨hx, hy, hi⟩
    rintro a b s t ⟨⟨z, z', rfl, rfl⟩, hi⟩
    exact Proc.Tandem.done rfl s t hi

/-- A deployment that has to go is deleted on both sides. -/
theorem tandem_removeLegacy :
    Proc.Tandem h V.toPace (S.Aligned V ingress ns before before') Eq (Pass.removeLegacy ns).run (Pass.removeLegacy ns).run := by
  have hm : Kind.deployment ≠ .managementIngress := by decide
  have hkey : Kind.deployment.keyAt ns Names.app ∈ ownedKeys ns := by simp [ownedKeys]
  rw [Pass.run_removeLegacy]
  refine Proc.Abreast.ask (abreast_get hF hm hkey) ?_
  rintro a b s t ⟨hfound, hi⟩
  cases hfound with
  | none => exact Proc.Tandem.done rfl s t hi
  | refused e => exact Proc.Tandem.done rfl s t hi
  | some hs _ _ =>
    dsimp only
    rw [Blur.isLegacy_congr hs]
    split
    · refine Proc.Abreast.ask
        (Q := fun (a b : Except Failure Unit) s t => a = .ok () ∧ b = .ok () ∧ S.Aligned V ingress ns before before' s t) ?_ ?_ s t hi
      · refine Proc.Abreast.request fun s t hi _ _ => ?_
        obtain ⟨ha, hdoc⟩ := S.delete s .deployment ns Names.app hi.holds
        obtain ⟨ha', hdoc'⟩ := S.delete t .deployment ns Names.app hi.holds'
        have hput := hi.put hF (ingress.apart_ownedKeys ns) (.same (.delete .deployment ns Names.app)) rfl hkey (by
          rw [hdoc, hdoc']
          exact .same none)
        exact ⟨⟨ha, ha', hput.1⟩, hput.2⟩
      · rintro a b s t ⟨rfl, rfl, hi⟩
        exact Proc.Tandem.done rfl s t hi
    · exact Proc.Tandem.done rfl s t hi

/-! ### Waiting -/

namespace Steps

variable {name : String} {R : Secret → Secret → Prop}

omit hF in
/-- The secrets that steps wait for do not belong to the operand; if they were the same, the same is waited for. -/
theorem issued?_agree (hname : name ∈ [Names.serviceSecret, Names.routeSecret])
    (hagree : ∀ key, key.ns = ns → before key = before' key) :
    Kind.secret.keyAt ns name ∉ ownedKeys ns ∧
      Option.Rel Eq (issued? (before (Kind.secret.keyAt ns name))) (issued? (before' (Kind.secret.keyAt ns name))) := by
  constructor
  · simp only [List.mem_cons, List.not_mem_nil, or_false] at hname
    rcases hname with rfl | rfl
    · exact (tlsSecrets_not_mem_ownedKeys ns ns).1
    · exact (tlsSecrets_not_mem_ownedKeys ns ns).2
  · rw [hagree (Kind.secret.keyAt ns name) rfl]
    cases issued? (before' (Kind.secret.keyAt ns name)) with
    | none => exact .none
    | some x => exact .some rfl

/-- The question whether a secret has come is answered on both sides, or on none. -/
theorem tandem_question (hm : Kind.secret.keyAt ns name ∉ ownedKeys ns)
    (hdocs : Option.Rel R (issued? (before (Kind.secret.keyAt ns name))) (issued? (before' (Kind.secret.keyAt ns name)))) :
    Proc.Tandem h V.toPace (S.Aligned V ingress ns before before') (Proc.Tandem.Meets R) (question ns name) (question ns name) := by
  have htrace (s : σ) : (question ns name).trace h s = [⟨.get .secret ns name, (h (.get .secret ns name) s).1⟩] := by
    rw [question, Proc.trace_bind, Proc.trace_request, Proc.run_request]
    cases (h (.get .secret ns name) s).1 <;> rfl
  rintro s t hi a x s' ⟨hrun, rfl⟩ b y t' ⟨hrun', rfl⟩ _ _
  obtain ⟨hs, -, hend⟩ := question_run S hi.holds ns name
  obtain ⟨ht, -, hend'⟩ := question_run S hi.holds' ns name
  obtain ⟨hdoc, hdoc'⟩ := hi.secret hm
  have hlook := hi.look hF (r := .get .secret ns name) rfl
  rw [hrun] at hs hend
  rw [hrun'] at ht hend'
  rw [hdoc] at hs
  rw [hdoc'] at ht
  dsimp only at hs ht hend hend'
  rw [htrace, htrace]
  refine ⟨⟨?_, hend ▸ hend' ▸ hlook.1⟩, hlook.2⟩
  generalize issued? (before (Kind.secret.keyAt ns name)) = i at hdocs hs
  generalize issued? (before' (Kind.secret.keyAt ns name)) = i' at hdocs ht
  cases hdocs with
  | some hr => exact .inl ⟨_, _, (hs _).2 rfl, (ht _).2 rfl, hr⟩
  | none => exact .inr ⟨fun x hx => Option.some_ne_none x ((hs x).1 hx).symm, fun y hy => Option.some_ne_none y ((ht y).1 hy).symm⟩

variable (hm : Kind.secret.keyAt ns name ∉ ownedKeys ns)
  (hdocs : Option.Rel R (issued? (before (Kind.secret.keyAt ns name))) (issued? (before' (Kind.secret.keyAt ns name))))
  (wait : WaitPolicy)

include hm hdocs

/-- Where the clocks tell the same, a secret is waited for as long on both sides. -/
theorem tandem_awaitSecret_clocked (hclock : ∀ now now', V.Clock now now' → now = now') :
    Proc.Tandem h V.toPace (S.Aligned V ingress ns before before') (Echoes R) (awaitSecret wait ns name).run
      (awaitSecret wait ns name).run := by
  have hnow : Proc.Tandem h V.toPace (S.Aligned V ingress ns before before') Eq (Proc.request .now) (Proc.request .now) :=
    (tandem_now hF).imp hclock
  rw [run_awaitSecret, waitFor]
  split
  · exact Proc.Tandem.done (.error _)
  · refine hnow.bind ?_
    rintro start _ rfl
    exact Proc.Tandem.waitRounds (tandem_question hF hm hdocs) hnow (fun _ => tandem_look hF rfl fun _ _ _ _ _ => rfl) _

omit hF in
/-- Where it does not matter what is asked for, it may be waited for longer on one side. -/
theorem tandem_awaitSecret_blind (haround : ∀ s t, V.Around s t) (hfollows : ∀ x y, V.Follows x y) :
    Proc.Tandem h V.toPace (S.Aligned V ingress ns before before') (Echoes R) (awaitSecret wait ns name).run
      (awaitSecret wait ns name).run := by
  rintro s t hi a x s' ⟨hrun, rfl⟩ b y t' ⟨hrun', rfl⟩ _ _
  obtain ⟨ha, hquiet⟩ := awaitSecret_run S hi.holds wait ns name
  obtain ⟨hb, hquiet'⟩ := awaitSecret_run S hi.holds' wait ns name
  obtain ⟨hdoc, hdoc'⟩ := hi.secret hm
  have hstored := S.stored_of_quiet hi.holds hquiet
  have hstored' := S.stored_of_quiet hi.holds' hquiet'
  have hholds := S.holds_run (awaitSecret wait ns name).run hi.holds
  have hholds' := S.holds_run (awaitSecret wait ns name).run hi.holds'
  rw [hrun] at ha hstored hholds
  rw [hrun'] at hb hstored' hholds'
  dsimp only at ha hb
  rw [hdoc] at ha
  rw [hdoc'] at hb
  refine ⟨⟨?_, hi.still hholds hholds' (haround _ _) (congrFun hstored) (congrFun hstored')⟩, hfollows _ _⟩
  rw [ha, hb, awaited, awaited]
  split
  · exact .error _
  · generalize issued? (before (Kind.secret.keyAt ns name)) = i at hdocs
    generalize issued? (before' (Kind.secret.keyAt ns name)) = i' at hdocs
    cases hdocs with
    | some hr => exact .ok hr
    | none => exact .error _

end Steps

/-! ### Steps -/

/-- What steps are made of keeps states side by side, and comes to the same; so it is of the waits if it is of them. -/
theorem Pass.units_tandem {plan : List Step}
    (hkey : ∀ {step : Step} {k : Kind} {ns' name : String}, step ∈ plan → k.keyAt ns' name ∈ step.targets ns →
      (V.blur (k.keyAt ns' name)).key = false)
    (hawait : Step.routes ∈ plan ∨ Step.clusterCa ∈ plan → ∀ wait : WaitPolicy, ∀ name ∈ [Names.serviceSecret, Names.routeSecret],
      Proc.Tandem h V.toPace (S.Aligned V ingress ns before before') Eq (Steps.awaitSecret wait ns name).run
        (Steps.awaitSecret wait ns name).run) :
    Pass.Units plan True ingress ns fun p => Proc.Tandem h V.toPace (S.Aligned V ingress ns before before') Eq p p := by
  have hinquires : Proc.Inquires True fun p => Proc.Tandem h V.toPace (S.Aligned V ingress ns before before') Eq p p :=
    tandem_inquires hF
  refine
    { hinquires with
      await := hawait
      ensure := ?_
      configuration := ?_
      proxyRoute := ?_ }
  · intro step k desired hm hw
    obtain ⟨name, hk⟩ := hw.sought.key
    exact tandem_ensure hF hw.sought hk (hw.mem_ownedKeys hk) (hkey hm (List.mem_filter.1 (hw.mem_objects hk)).1)
  · intro hm
    have htarget : Kind.configMap.keyAt ns Names.config ∈ Step.config.targets ns := .head _
    refine hinquires.configMap rfl ?_ fun _ => tandem_restart hF
    exact tandem_ensure (k := .configMap) hF (sought_configMap rfl rfl) rfl (Step.targets_subset _ htarget) (hkey hm htarget)
  · intro hm host
    have htarget : Kind.route.keyAt ns Names.proxyRoute ∈ Step.routes.targets ns := .tail _ (.tail _ (.head _))
    exact tandem_ensureCreated (k := .route) hF rfl (Step.targets_subset _ htarget) (hkey hm htarget)

end

end IngressOperator
