import IngressOperator.Proofs.Drift.Agree
import IngressOperator.Proofs.Pass.Converge
import IngressOperator.Proofs.Pass.Report
import IngressOperator.Proofs.Steps.Brought

/-!
# One host everywhere

A pass finds the external host once, and hands it to its steps, some of which take the port off it. After a pass that completes all
objects that tell of a host tell of this one, whatever they told before; so does the status.

## Main statements

* `Pass.Progress.carries`: the steps that ran have brought the host to their objects.
* `Pass.completed_pass_one_host`: where the host stands after a pass that completes.
-/

namespace IngressOperator

/-! ### Hosts and ports -/

namespace Text

/-- What comes before the last colon begins with what has none. -/
theorem splitLast?_append {sep : Char} {before : List Char} (h : sep ∉ before) (cs : List Char) :
    splitLast? sep (before ++ cs) = (splitLast? sep cs).map fun parts => (before ++ parts.1, parts.2) := by
  induction before with
  | nil => simp
  | cons c before ih =>
    obtain ⟨hc, hrest⟩ := not_or.1 fun hm => h (List.mem_cons.2 hm)
    have hne : ¬ c = sep := fun he => hc he.symm
    simp only [List.cons_append, splitLast?, ih hrest]
    cases splitLast? sep cs with
    | none => simp [hne]
    | some parts => rfl

/-- What stands in a list stands in it with separators in between. -/
theorem mem_intersperse {α : Type} {x sep : α} {l : List α} (h : x ∈ l) : x ∈ l.intersperse sep := by
  induction l with
  | nil => cases h
  | cons a l ih =>
    cases l with
    | nil => exact h
    | cons b l =>
      rcases List.mem_cons.1 h with rfl | h
      · exact List.mem_cons_self
      · exact List.mem_cons_of_mem _ (List.mem_cons_of_mem _ (ih h))

end Text

namespace Host

/-- A text without a colon before a host leaves its port. -/
theorem split_append {before : String} (h : ':' ∉ before.toList) (host : String) :
    split (before ++ host) = (before ++ (split host).1, (split host).2) := by
  unfold split
  rw [String.toList_append, Text.splitLast?_append h]
  cases Text.splitLast? ':' host.toList with
  | none => rfl
  | some parts =>
    simp only [Option.map_some]
    split
    · rw [String.ofList_append, String.ofList_toList]
    · rfl

theorem withoutPort_append {before : String} (h : ':' ∉ before.toList) (host : String) :
    withoutPort (before ++ host) = before ++ withoutPort host :=
  congrArg Prod.fst (split_append h host)

/-- The address of the console under a domain has the port of the domain. -/
theorem withoutPort_plainConsole (domain : String) : withoutPort (plainConsole domain) = plainConsole (split domain).1 := by
  have hname : ':' ∉ (Names.consoleRoute ++ ".").toList := by decide
  exact withoutPort_append hname domain

end Host

/-- The operand always accepts the name of its service. -/
theorem Desired.allowedHostHeader_ne_empty (spec : IngressSpec) (host ns : String) : allowedHostHeader spec host ns ≠ "" := by
  intro h
  have hchars : ∀ cs ∈ List.intersperse [' '] (((if spec.allowedHostHeader.isEmpty then [] else [spec.allowedHostHeader]) ++
      host :: [Names.service, Names.iamTokenService].flatMap fun s => [s, s!"{s}.{ns}", s!"{s}.{ns}.svc"]).map String.toList),
      cs = [] := by
    have hlist := congrArg String.toList h
    rw [allowedHostHeader, String.toList_intercalate] at hlist
    exact List.flatten_eq_nil_iff.1 hlist
  have hservice : Names.service.toList = [] := by
    refine hchars _ (Text.mem_intersperse (List.mem_map_of_mem ?_))
    exact List.mem_append_right _ (List.mem_cons_of_mem _ List.mem_cons_self)
  exact absurd hservice (by decide)

namespace Pass

/-! ### What tells of the host -/

/-- The base domain that the cluster told in some exchanges, the first time that it did. -/
def toldDomain? (t : List Exchange) : Option String :=
  t.findSome? fun x =>
    match x with
    | ⟨.baseDomain, .ok domain⟩ => some domain
    | _ => none

/-- Whether a text is the external host: that of the custom resource, or else the console's under the domain of the cluster. -/
def External (setup : Setup) (ingress : ManagementIngress) (ns : String) (t : List Exchange) (host : String) : Prop :=
  if ingress.spec.routeHost ≠ "" then host = ingress.spec.routeHost
  else
    match setup.flavor with
    | .standard => ∃ base, toldDomain? t = some base ∧ host = Host.console base ns ingress.spec.multipleInstancesEnabled
    | .cncf domain => host = Host.plainConsole domain

/-- Whether all objects that tell of a host tell of this one. -/
structure OneHost (setup : Setup) (ingress : ManagementIngress) (ns host : String) (docs : ObjectKey → Option Json) : Prop where
  bindInfo : ∃ j x, docs (Kind.configMap.keyAt ns Names.bindInfo) = some j ∧ Kind.decode? .configMap j = some x ∧
    (x.data.getD ∅).get? "MANAGEMENT_INGRESS_ROUTE_HOST" = some host
  certificate : setup.certificatesServed = true → ingress.spec.ignoreRouteCert = false → ∃ j x,
    docs (Kind.certificate.keyAt ns Names.routeCert) = some j ∧ Kind.decode? .certificate j = some x ∧
      x.spec.dnsNames = [Host.withoutPort host]
  console : setup.flavor = .standard → ∃ j x, docs (Kind.route.keyAt ns Names.consoleRoute) = some j ∧
    Kind.decode? .route j = some x ∧ x.spec.host = Host.withoutPort host
  /-- The pods accept the host, by a variable of which there is one at least and which has no other value. -/
  deployment : ∃ j d, docs (Kind.deployment.keyAt ns Names.app) = some j ∧ Kind.decode? .deployment j = some d ∧
    ∀ c ∈ ((d.spec.getD {}).template.spec.getD {}).containers, c.name = Names.app →
      (∃ v ∈ c.env.getD [], v.name = "ALLOWED_HOST_HEADERS") ∧
        ∀ v ∈ c.env.getD [], v.name = "ALLOWED_HOST_HEADERS" →
          v.value = some (Desired.allowedHostHeader ingress.spec (Host.withoutPort host) ns)
  clusterInfo : ∃ j x address, docs (Kind.configMap.keyAt ns Names.clusterInfo) = some j ∧ Kind.decode? .configMap j = some x ∧
    (x.data.getD ∅).get? "cluster_address" = some address ∧ (x.data.getD ∅).get? "cluster_ca_domain" = some address ∧
      (setup.flavor = .standard → address = host) ∧
      (setup.flavor ≠ .standard → ingress.spec.routeHost = "" → address = Host.withoutPort host)

section

variable {ingress : ManagementIngress} {ns : String} {docs : ObjectKey → Option Json}

/-- A wanted config map that is stored has the texts that are wanted. -/
theorem data_of_met {name : String} {data : Dict String}
    (h : Wanted.Met ingress ⟨.configMap, Desired.configMap ns name data, true⟩ docs) :
    ∃ j x, docs (Kind.configMap.keyAt ns name) = some j ∧ Kind.decode? .configMap j = some x ∧ x.data.getD ∅ = data := by
  obtain ⟨key, j, x, hkey, hj, hx, hsame, -⟩ := h
  cases hkey
  exact ⟨j, x, hj, hx, Drift.configMap_agrees (hsame rfl)⟩

/-- A wanted certificate that is stored is for the names that are wanted. -/
theorem dnsNames_of_met {desired : Certificate} {name : String} (hk : Kind.certificate.key desired = .ok (ns, name))
    (h : Wanted.Met ingress ⟨.certificate, desired, true⟩ docs) :
    ∃ j x, docs (Kind.certificate.keyAt ns name) = some j ∧ Kind.decode? .certificate j = some x ∧
      x.spec.dnsNames = desired.spec.dnsNames := by
  obtain ⟨key, j, x, hkey, hj, hx, hsame, -⟩ := h
  cases hkey.symm.trans (Kind.objectKey?_eq.2 (Kind.key_eq_ok.1 hk))
  exact ⟨j, x, hj, hx, Drift.certificate_agrees (hsame rfl)⟩

/-- The pods of a deployment that does not differ from the desired one accept the names that are wanted. -/
theorem header_agrees {params : Desired.DeploymentParams} (hne : params.allowedHostHeader ≠ "") {d : Deployment}
    (hsame : (Drift.deployment d (Desired.deployment ingress params)).changed = false) :
    ∀ c ∈ ((d.spec.getD {}).template.spec.getD {}).containers, c.name = Names.app →
      (∃ v ∈ c.env.getD [], v.name = "ALLOWED_HOST_HEADERS") ∧
        ∀ v ∈ c.env.getD [], v.name = "ALLOWED_HOST_HEADERS" → v.value = some params.allowedHostHeader := by
  intro c hc hname
  have hfind : ((Desired.podSpec ingress.spec params).containers.find? fun d => d.name == c.name) =
      some (Desired.container ingress.spec params) := by
    rw [hname]
    rfl
  have henv : Drift.sameEnv (c.env.getD []) (Desired.environment ingress.spec params) = true :=
    Drift.deployment_agrees rfl rfl hsame hc hfind
  constructor
  · have hmem : Desired.envValue "ALLOWED_HOST_HEADERS" params.allowedHostHeader ∈ Desired.environment ingress.spec params := by
      simp [Desired.environment]
    exact Drift.mem_env_of_agrees henv hmem
  · intro v hv hvname
    obtain ⟨want, hwant, hvalue, -⟩ := Drift.env_agrees henv hv
    have hfirst : ((Desired.environment ingress.spec params).find? fun want => want.name == v.name) =
        some (Desired.envValue "ALLOWED_HOST_HEADERS" params.allowedHostHeader) := by
      rw [hvname]
      rfl
    rw [hfirst] at hwant
    cases hwant
    cases hv' : v.value with
    | none =>
      rw [hv'] at hvalue
      exact absurd hvalue.symm hne
    | some text =>
      rw [hv'] at hvalue
      exact congrArg some hvalue

/-- The pods of a wanted deployment that is stored accept the names that are wanted. -/
theorem header_of_met {params : Desired.DeploymentParams} (hne : params.allowedHostHeader ≠ "")
    (h : Wanted.Met ingress ⟨.deployment, Desired.deployment ingress params, true⟩ docs) :
    ∃ j d, docs (Kind.deployment.keyAt params.ns Names.app) = some j ∧ Kind.decode? .deployment j = some d ∧
      ∀ c ∈ ((d.spec.getD {}).template.spec.getD {}).containers, c.name = Names.app →
        (∃ v ∈ c.env.getD [], v.name = "ALLOWED_HOST_HEADERS") ∧
          ∀ v ∈ c.env.getD [], v.name = "ALLOWED_HOST_HEADERS" → v.value = some params.allowedHostHeader := by
  obtain ⟨key, j, d, hkey, hj, hd, hsame, -⟩ := h
  cases hkey
  exact ⟨j, d, hj, hd, header_agrees hne (hsame rfl)⟩

/-- The steps that carry the host leave it in all objects that tell of one. -/
theorem oneHost_of_carries {setup : Setup} {host : String} {t : List Exchange} (hhost : External setup ingress ns t host)
    (h : ∀ step ∈ setup.steps, step.Carries setup ingress ns host docs) : OneHost setup ingress ns host docs := by
  have hstep {step : Step} (hplan : step ∈ setup.flavor.plan) (hne : step ≠ .certificates) :
      step.Carries setup ingress ns host docs :=
    h step (List.mem_filter.2 ⟨hplan, by simp [hne]⟩)
  have hconfig : Step.config.Carries setup ingress ns host docs := hstep (by cases setup.flavor <;> simp [Flavor.plan]) (by decide)
  have hdeployment : Step.deployment.Carries setup ingress ns host docs := hstep (by cases setup.flavor <;> simp [Flavor.plan]) (by decide)
  obtain ⟨hbind, info, hdescribes, hinfo⟩ := hconfig
  constructor
  · obtain ⟨j, x, hj, hx, hdata⟩ := data_of_met hbind
    refine ⟨j, x, hj, hx, ?_⟩
    rw [hdata]
    simp [Desired.bindInfo, SortedMap.ofList, SortedMap.insertMany, SortedMap.get?_insert_of_ne]
  · intro hserved hroute
    have hcertificates : Step.certificates.Carries setup ingress ns host docs :=
      h .certificates (List.mem_filter.2 ⟨by cases setup.flavor <;> simp [Flavor.plan], by simp [hserved]⟩)
    exact dnsNames_of_met rfl (hcertificates hroute)
  · intro hflavor
    have hroutes : Step.routes.Carries setup ingress ns host docs := hstep (by rw [hflavor]; decide) (by decide)
    obtain ⟨material, key, j, x, hkey, hj, hx, hsame, -⟩ := hroutes
    cases hkey
    exact ⟨j, x, hj, hx, (Drift.route_agrees (hsame rfl)).1⟩
  · obtain ⟨params, rfl, hheader, hmet⟩ := hdeployment
    rw [← hheader]
    refine header_of_met ?_ hmet
    rw [hheader]
    exact Desired.allowedHostHeader_ne_empty _ _ _
  · obtain ⟨j, x, hj, hx, hdata⟩ := data_of_met hinfo
    rw [← hdata] at hdescribes
    refine ⟨j, x, _, hj, hx, hdescribes.1, hdescribes.2, ?_, ?_⟩
    · intro hflavor
      rw [hflavor]
    · intro hflavor hunnamed
      cases hf : setup.flavor with
      | standard => exact absurd hf hflavor
      | cncf domain =>
        unfold External at hhost
        rw [if_neg fun hne => hne hunnamed, hf] at hhost
        rw [hhost, Host.withoutPort_plainConsole]

end

/-! ### The pass -/

section

variable {σ : Type} {h : Proc.Handler σ} (S : ObjectStore h) {setup : Setup} {ingress : ManagementIngress} {ns host : String}

/-- The steps that ran have brought the host to their objects, which later ones leave. -/
theorem Progress.carries {steps : List Step} {base : Option String} {status : IngressStatus}
    {r : IngressStatus × Except (OwnedKind × Failure) (List Synced)} {t : List Exchange} {s s' : σ}
    (hp : Progress h setup ingress ns host steps base status s r t s') (hs : S.Holds s) {synced : List Synced}
    (hr : r.2 = .ok synced)
    (hd : steps.Pairwise fun earlier later => ∀ key ∈ earlier.bases ns, key ∉ later.targets ns) {docs : ObjectKey → Option Json}
    (hdocs : ∀ step ∈ steps, ∀ key ∈ step.bases ns, S.stored s' key = docs key) :
    ∀ step ∈ steps, step.Carries setup ingress ns host docs := by
  induction hp generalizing synced with
  | done =>
    intro step hm
    cases hm
  | failed hg hn => cases hr
  | ran hg hn hp ih =>
    rename_i step rest base base' status status' synced' result now t t' t'' s s₁ s₂ s'
    obtain ⟨hbefore, hrest⟩ := List.pairwise_cons.1 hd
    have hs₁ := S.holds_goes hs hg
    obtain ⟨hs₂, hst₂, -⟩ := stored_of_now S hs₁ hn
    have hstay {key : ObjectKey} (hk : key ∈ step.bases ns) : S.stored s₁ key = docs key := by
      rw [← hst₂, ← hp.stored_of_later S hs₂ hbefore hk]
      exact hdocs step List.mem_cons_self key hk
    intro step' hm
    rcases List.mem_cons.1 hm with rfl | hm
    · exact Custody.brings_runStep (C := S.custody) step' base s _ t s₁ hs hg.yields fun key hk => ⟨trivial, hstay hk⟩
    · cases result with
      | error e => cases hr
      | ok ys => exact ih hs₂ rfl hrest (fun later hlater => hdocs later (List.mem_cons_of_mem _ hlater)) step' hm

omit S in
/-- A deployment is looked at and deleted without asking what the cluster is like. -/
theorem toldDomain?_removeLegacy {a : Except Failure Bool} {t : List Exchange} {s s' : σ}
    (hl : (removeLegacy ns).run.Goes h s a t s') : toldDomain? t = none := by
  have hasks : (removeLegacy ns).run.Asks (fun _ _ => True) (· ≠ .baseDomain) := by
    rw [run_removeLegacy]
    refine ⟨nofun, ?_⟩
    intro found _
    rcases found with e | (_ | d)
    · trivial
    · trivial
    · dsimp only
      split
      · exact ⟨nofun, fun _ _ => trivial⟩
      · trivial
  refine List.findSome?_eq_none_iff.2 ?_
  intro x hx
  obtain ⟨-, rfl⟩ := hl
  have hne := hasks.all_trace h s x hx
  split
  · exact absurd rfl hne
  · rfl

/-- A console that is found by its domain: the cluster is asked for that, and what it tells is remembered. -/
theorem run_consoleHost (ns : String) (multiple : Bool) :
    ((do
      let base ← baseDomain
      pure (Host.console base ns multiple) : Remembering String).run none).run =
      Proc.ask .baseDomain fun answer => .done (answer.map fun domain => (Host.console domain ns multiple, some domain)) := by
  refine congrArg (Proc.ask _) (funext fun answer => ?_)
  cases answer <;> rfl

omit S in
/-- The domain of which a pass is told at first is that of which it is told when it looks for the host. -/
theorem toldDomain?_of_goes {t₁ t₂ : List Exchange} {s s₁ s₂ : σ} {answer : Except Failure Bool} {domain : String}
    (hl : (removeLegacy ns).run.Goes h s answer t₁ s₁) (hb : (Proc.request .baseDomain).Goes h s₁ (.ok domain) t₂ s₂)
    (t : List Exchange) : toldDomain? (t₁ ++ (t₂ ++ t)) = some domain := by
  obtain ⟨hrun, rfl⟩ := hb
  have hanswer : (h .baseDomain s₁).1 = .ok domain := congrArg Prod.fst hrun
  have hnone := toldDomain?_removeLegacy hl
  unfold toldDomain? at hnone ⊢
  rw [List.findSome?_append, hnone, Proc.trace_request, hanswer]
  rfl

omit S in
/-- The host that a pass finds is the external one. -/
theorem external_of_resolveHost {base : Option String} {t₁ t₂ : List Exchange} {s s₁ s₂ : σ}
    (hl : (removeLegacy ns).run.Goes h s (.ok false) t₁ s₁)
    (hh : ((resolveHost setup ingress ns).run none).run.Goes h s₁ (.ok (host, base)) t₂ s₂) (t : List Exchange) :
    External setup ingress ns (t₁ ++ (t₂ ++ t)) host := by
  unfold External
  unfold resolveHost at hh
  split at hh
  · next hnamed =>
    obtain ⟨ha, -, -⟩ := hh.of_done
    cases ha
    rw [if_pos (by simpa using hnamed)]
  · next hunnamed =>
    rw [if_neg (by simpa using hunnamed)]
    cases hf : setup.flavor with
    | cncf domain =>
      rw [hf] at hh
      obtain ⟨ha, -, -⟩ := hh.of_done
      cases ha
      rfl
    | standard =>
      rw [hf] at hh
      replace hh := run_consoleHost ns ingress.spec.multipleInstancesEnabled ▸ hh
      obtain ⟨answer, t₃, s₃, t₄, hask, hd, rfl⟩ := Proc.Goes.of_bind (p := Proc.request .baseDomain) hh
      obtain ⟨ha, rfl, -⟩ := hd.of_done
      rcases answer with e | domain
      · cases ha
      · cases ha
        rw [List.append_nil]
        exact ⟨domain, toldDomain?_of_goes hl hask t, rfl⟩

/-! ### The status -/

omit S in
/-- A status that was written was accepted. -/
theorem accepted_writeStatus {written status new : IngressStatus} {t : List Exchange} {s s' : σ}
    (hg : (writeStatus ingress written status).run.Goes h s (.ok new) t s') : Accepted t := by
  by_cases hne : written = status
  · rw [hne, writeStatus_self] at hg
    obtain ⟨-, rfl, -⟩ := hg.of_done
    exact fun _ hx => absurd hx List.not_mem_nil
  · rw [run_writeStatus_of_ne hne] at hg
    obtain ⟨hrun, rfl⟩ := hg
    intro x hx
    rw [Proc.trace_ask, Proc.trace_done] at hx
    rw [List.mem_singleton.1 hx]
    cases ha : (h (.updateStatus ingress status) s).1 with
    | ok _ => rfl
    | error e =>
      rw [Proc.run_ask, ha] at hrun
      cases hrun

omit S in
theorem accepted_announceHost {written new : IngressStatus} {t : List Exchange} {s s' : σ}
    (hg : (announceHost ingress written host).run.Goes h s (.ok new) t s') : Accepted t := by
  by_cases ho : ofHost written host
  · rw [announceHost_same ingress ho] at hg
    obtain ⟨-, rfl, -⟩ := hg.of_done
    exact fun _ hx => absurd hx List.not_mem_nil
  · rw [run_announceHost_of_not ho] at hg
    obtain ⟨now, t₁, s₁, t₂, ⟨-, rfl⟩, hw, rfl⟩ := Proc.Goes.of_bind (p := Proc.request .now) hg
    intro x hx
    rcases List.mem_append.1 hx with hx | hx
    · rw [List.mem_singleton.1 hx]
      rfl
    · exact accepted_writeStatus hw x hx

omit S in
theorem accepted_finish {written status : IngressStatus} {t : List Exchange} {s s' : σ}
    (hg : (finish ingress ns written status).run.Goes h s (.ok ()) t s') : Accepted t := by
  rw [run_finish] at hg
  obtain ⟨pods, t₁, s₁, t₂, ⟨-, rfl⟩, hrest, rfl⟩ := Proc.Goes.of_bind (p := Proc.request _) hg
  obtain ⟨answer, t₃, s₂, t₄, hw, hd, rfl⟩ := hrest.of_bind
  obtain ⟨ha, rfl, -⟩ := hd.of_done
  cases answer with
  | error e => cases ha
  | ok new =>
    rw [List.append_nil]
    intro x hx
    rcases List.mem_append.1 hx with hx | hx
    · rw [List.mem_singleton.1 hx]
      rfl
    · exact accepted_writeStatus hw x hx

/-- The status that is stored after a pass whose steps all ran tells of the host. -/
theorem stored_host {name : String} {base : Option String} {written status : IngressStatus}
    {result : Except (OwnedKind × Failure) (List Synced)} {t₁ t₂ t₃ t₄ t₅ : List Exchange} {s s₁ s₂ s₃ s₄ s₅ : σ} {j : Json}
    (hs : S.Holds s) (hk : Kind.objectKey? .managementIngress ingress = some (Kind.managementIngress.keyAt ns name))
    (hj : S.stored s (Kind.managementIngress.keyAt ns name) = some j) (hx : Kind.decode? .managementIngress j = some ingress)
    (hl : (removeLegacy ns).run.Goes h s (.ok false) t₁ s₁)
    (hh : ((resolveHost setup ingress ns).run none).run.Goes h s₁ (.ok (host, base)) t₂ s₂)
    (ha : (announceHost ingress (ingress.status.getD {}) host).run.Goes h s₂ (.ok written) t₃ s₃)
    (hp : Progress h setup ingress ns host setup.steps base written s₃ (status, result) t₄ s₄)
    (hf : (finish ingress ns written status).run.Goes h s₄ (.ok ()) t₅ s₅)
    (hnow : ∀ now, (⟨.now, now⟩ : Exchange) ∈ t₄ → now.InCalendar) :
    ∃ j' after, S.stored s₅ (Kind.managementIngress.keyAt ns name) = some j' ∧
      Kind.decode? .managementIngress j' = some after ∧ (after.status.getD {}).host = host := by
  have hcal : (ingress.status.getD {}).InCalendar := by
    cases hstatus : ingress.status with
    | none => exact fun _ he => absurd he List.not_mem_nil
    | some status => exact Wire.inCalendar_of_decode?_ingress hx hstatus
  have hresolve : ((resolveHost setup ingress ns).run none).run.WritesOnly [] := by
    have hlooks {r : Request} (hr : r.Looks) (key : ObjectKey) (hkey : r.target? = some key) : key ∈ ([] : List ObjectKey) := by
      rw [hr.target?_eq_none] at hkey
      cases hkey
    have hpeeks : Proc.Peeks True fun p => p.WritesOnly [] :=
      Proc.Asks.peeks (fun r hr => hlooks hr.looks) fun _ r hr => hlooks hr.looks
    exact hpeeks.resolveHost setup (fun _ => trivial) none
  have hsteps : Kind.managementIngress.keyAt ns name ∉ setup.steps.flatMap fun step => step.targets ns := by
    intro hm
    obtain ⟨step, -, hm⟩ := List.mem_flatMap.1 hm
    cases step <;> simp [Step.targets, Kind.keyAt_inj] at hm
  obtain ⟨hs₁, hst₁⟩ := S.stored_of_silent hs hl ((removeLegacy_goes S ns hs hl).2 (by simp))
  have hs₂ := S.holds_goes hs₁ hh
  have hrep₂ : S.Reports ingress (Kind.managementIngress.keyAt ns name) (ingress.status.getD {}) s₂ :=
    (S.reports_self hj hx).congr ((S.stored_of_goes hresolve List.not_mem_nil hs₁ hh).trans (congrFun hst₁ _))
  obtain ⟨start, hstart, hhost, hcal₃, hrep₃⟩ := reports_announceHost S hs₂ hk hrep₂ hcal ha
  cases hstart
  have hs₃ := S.holds_goes hs₂ ha
  have hrep₄ := hrep₃.congr (S.stored_of_goes (writesOnly_runSteps setup ingress ns host _ base written) hsteps hs₃ hp.goes)
  obtain ⟨pods, -, -, j', version, shown, hj', hx', hshown⟩ :=
    finish_goes S (S.holds_goes hs₃ hp.goes) hk hrep₄ (hp.inCalendar hcal₃ hnow) hf
  refine ⟨j', _, hj', hx', ?_⟩
  rw [show (ingress.again version shown).status = shown from rfl, hshown, host_concluded]
  exact hp.host_podState.1.trans hhost

/-- After a pass that completes, all objects that tell of a host tell of the external one, whatever they told before; so does the
last status that was accepted, which is stored if the custom resource was stored as it was read and the clock is right. -/
theorem completed_pass_one_host (setup : Setup) (ingress : ManagementIngress) {s : σ} (hs : S.Holds s) {synced : List Synced}
    (hdone : ((run setup ingress).run h s).1 = .ok (.completed synced)) :
    ∃ ns host, ingress.metadata.ns = some ns ∧ External setup ingress ns ((run setup ingress).trace h s) host ∧
      OneHost setup ingress ns host (S.stored ((run setup ingress).run h s).2) ∧
      (reported ((run setup ingress).trace h s) (ingress.status.getD {})).host = host ∧
      ∀ name j, S.stored s (Kind.managementIngress.keyAt ns name) = some j → Kind.decode? .managementIngress j = some ingress →
        (∀ now, (⟨.now, now⟩ : Exchange) ∈ (run setup ingress).trace h s → now.InCalendar) →
          ∃ j' after, S.stored ((run setup ingress).run h s).2 (Kind.managementIngress.keyAt ns name) = some j' ∧
            Kind.decode? .managementIngress j' = some after ∧ (after.status.getD {}).host = host := by
  cases hns : ingress.metadata.ns with
  | none =>
    unfold run at hdone
    simp only [hns] at hdone
    cases hdone
  | some ns =>
    have hg := Proc.Goes.of_run h (run setup ingress) s
    rw [hdone] at hg
    generalize (run setup ingress).trace h s = t at hg ⊢
    generalize ((run setup ingress).run h s).2 = e at hg ⊢
    cases Course.of_goes hns hg with
    | completed hl hh ha hr hf =>
      rename_i host base written status t₁ t₂ t₃ t₄ t₅ s₁ s₂ s₃ s₄
      have hs₁ := S.holds_goes hs hl
      have hs₂ := S.holds_goes hs₁ hh
      have hs₃ := S.holds_goes hs₂ ha
      have hs₄ := S.holds_goes hs₃ hr
      have hp := Progress.of_goes hr
      have hhost := external_of_resolveHost hl hh (t₃ ++ (t₄ ++ t₅))
      refine ⟨ns, host, rfl, hhost, ?_, ?_, ?_⟩
      · refine oneHost_of_carries hhost (hp.carries S hs₃ rfl (targets_disjoint setup ns) ?_)
        intro step _ key hkey
        exact (S.stored_of_goes (writesOnly_finish ingress ns _ _) (fun hm => ne_ingress_of_mem_bases hkey (eq_keyAt_of_mem hm))
          hs₄ hf).symm
      · obtain ⟨start, hstart, hannounced, hstarts⟩ := reported_announceHost ha (accepted_announceHost ha)
        cases hstart
        obtain ⟨-, pods, hreported⟩ := reported_finish hf (accepted_finish hf)
        rw [reported_append, reported_append, reported_append, reported_append, (unreporting_removeLegacy ns).reported hl,
          Proc.Unreporting.reported ((unreporting_parts ingress ns).resolveHost setup none) hh, hannounced,
          Proc.Unreporting.reported ((unreporting_parts ingress ns).runSteps setup host setup.steps base written) hr, hreported,
          host_concluded, hp.host_podState.1]
        exact (starts_announced hstarts).1
      · intro name j hj hx hnow
        obtain ⟨-, hname⟩ := S.placed s .managementIngress ns name j ingress hs hj hx
        exact stored_host S hs (Kind.objectKey?_eq.2 ⟨hns, hname⟩) hj hx hl hh ha hp hf fun now hm => hnow now (by simp [hm])

end

/-! ### On a cluster whose console route leads elsewhere -/

open Cluster

/-- After the pass over the cluster whose console route has another host, all objects tell of the one that the cluster gives. -/
theorem rerouted_pass_one_host :
    ∃ ns host, Small.ingress.metadata.ns = some ns ∧
      External { certificatesServed := false } Small.ingress ns
        ((run { certificatesServed := false } Small.ingress).trace Direct.handler Rerouted.cluster) host ∧
      OneHost { certificatesServed := false } Small.ingress ns host fun key =>
        ((run { certificatesServed := false } Small.ingress).run Direct.handler Rerouted.cluster).2.objects.get? key := by
  obtain ⟨synced, hdone⟩ := exists_rerouted_completed
  obtain ⟨ns, host, hns, hexternal, hone, -⟩ :=
    completed_pass_one_host (Direct.store Rerouted.facts) { certificatesServed := false } Small.ingress Rerouted.calm hdone
  exact ⟨ns, host, hns, hexternal, hone⟩

end Pass

end IngressOperator
