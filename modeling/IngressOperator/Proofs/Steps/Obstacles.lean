import IngressOperator.Proofs.Steps.Lasting
import IngressOperator.Proofs.Steps.Permits
import IngressOperator.Proofs.Steps.Wanted

/-!
# What steps fail for

On a store that keeps its contract and whose documents can be read, keeping objects does not fail. What a step needs besides is told
by the cluster, by the secrets that it waits for and by the custom resource; a step fails for the first of these that is missing, and
for nothing else.

## Main statements

* `Meets.action_bind`: an action that goes on meets the obstacles of the one part, and then those of the other.
* `meets_keeping`: keeping an object meets none.
* `Pass.meets_runStep`: a step meets its obstacles and no others.
* `Pass.meets_runSteps`: steps end for the first obstacle of the first step that has one.
-/

namespace IngressOperator

/-! ### Readable stores -/

/-- Whether a document, if there is one, holds an object of a kind. -/
def OwnedKind.Reads (k : OwnedKind) (doc : Option Json) : Prop := ∀ j, doc = some j → ∃ x, k.kind.decode? j = some x

/-- What a pass may write can be read. -/
theorem lasting_reads (owner : ManagementIngress) (k : OwnedKind) : Lasting owner k k.Reads where
  created := by
    rintro x y - - - - j hj
    cases hj
    exact ⟨y, Kind.decode?_encode (by cases k <;> nofun) y⟩
  written := by
    rintro j x y v - - - j' hj
    cases hj
    exact ⟨_, Kind.decode?_encode (by cases k <;> nofun) _⟩

variable {σ α β : Type} {h : Proc.Handler σ} (S : ObjectStore h) (ns : String) (z : σ)

/-- Whether every document of a kind that is kept can be read, and the secrets are as they were in `z`, but for the one that is
kept. -/
structure Ready (s : σ) : Prop where
  holds : S.Holds s
  reads : ∀ (k : OwnedKind) (ns name : String), k.Reads (S.stored s (k.kind.keyAt ns name))
  secrets : ∀ name, name ≠ Names.clusterCa →
    S.stored s (Kind.secret.keyAt ns name) = S.stored z (Kind.secret.keyAt ns name)

variable {S ns z}

/-- A program leaves a store ready that keeps the documents readable, and writes none of the secrets. -/
theorem Ready.run {s : σ} (hs : Ready S ns z s) {p : Proc α} {keys : List ObjectKey} (hp : p.WritesOnly keys)
    (hkeys : ∀ name, name ≠ Names.clusterCa → Kind.secret.keyAt ns name ∉ keys)
    (hreads : ∀ (k : OwnedKind) (ns name : String), Lasts S (k.kind.keyAt ns name) k.Reads p) : Ready S ns z (p.run h s).2 where
  holds := S.holds_run p hs.holds
  reads k ns name := hreads k ns name s hs.holds (hs.reads k ns name)
  secrets name hname := by
    rw [S.stored_of_writesOnly hp (hkeys name hname) hs.holds]
    exact hs.secrets name hname

/-- A store is ready as long as its documents stay. -/
theorem Ready.congr {s s' : σ} (hs : Ready S ns z s) (hs' : S.Holds s')
    (hst : ∀ (k : OwnedKind) (ns name : String), S.stored s' (k.kind.keyAt ns name) = S.stored s (k.kind.keyAt ns name)) :
    Ready S ns z s' where
  holds := hs'
  reads k ns name := by
    rw [hst]
    exact hs.reads k ns name
  secrets name hname := (hst .secret ns name).trans (hs.secrets name hname)

theorem Ready.quiet {s : σ} (hs : Ready S ns z s) {p : Proc α} (hp : p.Quiet h s) : Ready S ns z (p.run h s).2 :=
  hs.congr (S.holds_run p hs.holds) fun _ _ _ => by rw [S.stored_of_quiet hs.holds hp]

/-- No step writes a secret that it waits for. -/
theorem Step.secret_not_target {step : Step} {name : String} (hname : name ≠ Names.clusterCa) :
    Kind.secret.keyAt ns name ∉ step.targets ns := by
  cases step <;> simp [targets, Kind.keyAt_inj, hname]

/-! ### Obstacles -/

/-- Whether a result is what an obstacle makes of a program: a failure if there is one, and else a value with a property. -/
inductive Comes {ε : Type} (Q : α → Prop) : Option ε → Except ε α → Prop where
  | ok {a : α} (ha : Q a) : Comes Q none (.ok a)
  | failed (e : ε) : Comes Q (some e) (.error e)

theorem Comes.mono {ε : Type} {Q Q' : α → Prop} {e : Option ε} {x : Except ε α} (hc : Comes Q e x) (hq : ∀ a, Q a → Q' a) :
    Comes Q' e x := by
  cases hc with
  | ok ha => exact .ok (hq _ ha)
  | failed e => exact .failed e

/-- The failure of a result. -/
def failure? {ε : Type} : Except ε α → Option ε
  | .ok _ => none
  | .error e => some e

/-- A result is what its failure makes of it. -/
theorem comes_failure? {ε : Type} (x : Except ε α) : Comes (fun a => x = .ok a) (failure? x) x := by
  cases x with
  | ok a => exact .ok rfl
  | error e => exact .failed e

variable (S ns z)

/-- Whether a program meets an obstacle, if there is one, and else comes to a value with a property, and leaves a ready store
ready. -/
def Meets (obstacle : Option Failure) (p : Proc (Except Failure α)) (Q : α → Prop) : Prop :=
  ∀ s, Ready S ns z s → Ready S ns z (p.run h s).2 ∧ Comes Q obstacle (p.run h s).1

namespace Meets

variable {S ns z} {e e' : Option Failure} {Q : α → Prop} {R : β → Prop}

theorem done {a : α} (ha : Q a) : Meets S ns z none (.done (.ok a)) Q := by
  intro s hs
  exact ⟨hs, .ok ha⟩

/-- A value that may be missing is asked of nobody. -/
theorem given (x : Except Failure α) : Meets S ns z (failure? x) (.done x) fun a => x = .ok a := by
  intro s hs
  exact ⟨hs, comes_failure? x⟩

/-- What a program comes to, and that it leaves the store ready. -/
theorem goes {p : Proc (Except Failure α)} (hp : Meets S ns z e p Q) {answer : Except Failure α} {t : List Exchange} {s s' : σ}
    (hs : Ready S ns z s) (hg : p.Goes h s answer t s') : Ready S ns z s' ∧ Comes Q e answer := by
  have hmeets := hp s hs
  rw [hg.1] at hmeets
  exact hmeets

theorem mono {p : Proc (Except Failure α)} {Q' : α → Prop} (hp : Meets S ns z e p Q) (hq : ∀ a, Q a → Q' a) :
    Meets S ns z e p Q' := by
  intro s hs
  obtain ⟨hs', hcomes⟩ := hp s hs
  exact ⟨hs', hcomes.mono hq⟩

/-- An action that goes on meets the obstacles of the one part, and then those of the other. -/
theorem action_bind {a : Action α} {f : α → Action β} (ha : Meets S ns z e a.run Q)
    (hf : ∀ x, Q x → Meets S ns z e' (f x).run R) : Meets S ns z (e.or e') (a >>= f).run R := by
  intro s hs
  obtain ⟨hs₁, hcomes⟩ := ha s hs
  rw [ExceptT.run_bind, Proc.run_bind]
  generalize a.run.run h s = ended at hs₁ hcomes
  obtain ⟨result, s₁⟩ := ended
  cases hcomes with
  | ok hx => exact hf _ hx s₁ hs₁
  | failed e => exact ⟨hs₁, .failed e⟩

/-- After an action that meets nothing, another one meets its obstacles. -/
theorem free_bind {a : Action α} {f : α → Action β} (ha : Meets S ns z none a.run Q)
    (hf : ∀ x, Q x → Meets S ns z e (f x).run R) : Meets S ns z e (a >>= f).run R :=
  ha.action_bind hf

/-- An action meets its obstacles before another one that meets nothing. -/
theorem bind_free {a : Action α} {f : α → Action β} (ha : Meets S ns z e a.run Q)
    (hf : ∀ x, Q x → Meets S ns z none (f x).run R) : Meets S ns z e (a >>= f).run R := by
  have hbind := ha.action_bind hf
  rwa [Option.or_none] at hbind

/-- An action whose value is only passed on meets its obstacles. -/
theorem action_map {a : Action α} {f : α → β} (ha : Meets S ns z e a.run Q) (hf : ∀ x, Q x → R (f x)) :
    Meets S ns z e (a >>= fun x => pure (f x)).run R :=
  ha.bind_free fun x hx => done (hf x hx)

/-- A question about the cluster meets the failure with which it is answered at all times. -/
theorem request {r : Request} {f : r.Answer → Except Failure α} (hr : r.Discovers)
    (hsame : ∀ s, S.Holds s → (h r s).1 = (h r z).1) :
    Meets S ns z (failure? (f (h r z).1)) (Proc.ask r fun answer => .done (f answer)) fun a => f (h r z).1 = .ok a := by
  intro s hs
  have hready : Ready S ns z (h r s).2 := by
    refine hs.congr (S.holds r s hs.holds) fun k ns name => S.frame r s _ hs.holds ?_
    rw [hr.looks.target?_eq_none]
    nofun
  rw [Proc.run_ask, hsame s hs.holds]
  exact ⟨hready, comes_failure? _⟩

end Meets

variable {S ns z}

/-! ### Objects -/

section

variable {ingress : ManagementIngress} {name : String}

/-- Keeping an object meets no obstacle. -/
theorem meets_keeping {step : Step} {k : OwnedKind} {desired : k.kind.Object} {revise : k.kind.Object → Option k.kind.Object}
    {idle : Outcome} (hk : k.kind.key desired = .ok (ns, name)) (hr : Settles k.kind desired revise)
    (hm : k.kind.keyAt ns name ∈ step.targets ns)
    (hreads : ∀ (j : OwnedKind) (ns' name' : String), Lasts S (j.kind.keyAt ns' name') j.Reads
      (keeping k.kind desired revise idle).run) :
    Meets S ns z none (keeping k.kind desired revise idle).run fun _ => True := by
  intro s hs
  constructor
  · refine hs.run (writesOnly_keeping hk hr) ?_ hreads
    intro other hother hmem
    rw [List.mem_singleton] at hmem
    exact Step.secret_not_target hother (hmem ▸ hm)
  · have hkept := Kept.of_run S idle hs.holds (by cases k <;> nofun) hk hr
    have hread := hs.reads k ns name
    generalize ((keeping k.kind desired revise idle).run.run h s).1 = answer at hkept
    generalize S.stored s (k.kind.keyAt ns name) = before at hkept hread
    generalize S.stored _ (k.kind.keyAt ns name) = after at hkept
    cases hkept with
    | created y hy => exact .ok trivial
    | refused j hj =>
      obtain ⟨x, hx⟩ := hread j rfl
      rw [hj] at hx
      cases hx
    | left j live hj hw => exact .ok trivial
    | written j live x v hj hw => exact .ok trivial

/-- Bringing an object to a desired form meets none. -/
theorem meets_ensure {step : Step} {k : OwnedKind} {desired : k.kind.Object} (hd : Sought ns k desired) (hf : k.Fits desired)
    (hk : k.kind.key desired = .ok (ns, name)) (hm : k.kind.keyAt ns name ∈ step.targets ns) :
    Meets S ns z none (ensure ingress k desired).run fun _ => True := by
  have hreads (j : OwnedKind) (ns' name' : String) : Lasts S (j.kind.keyAt ns' name') j.Reads (ensure ingress k desired).run :=
    lasts_ensure S (lasting_reads ingress j) hk hd.same hf hd.durable hd.unowned
  rw [ensure_eq] at hreads ⊢
  exact meets_keeping (key_owned ingress hk) (settles_revision k (changed_owned ingress hd.same)) hm hreads

theorem meets_ensureCreated {step : Step} {k : OwnedKind} {desired : k.kind.Object} (hd : Sought ns k desired)
    (hk : k.kind.key desired = .ok (ns, name)) (hm : k.kind.keyAt ns name ∈ step.targets ns) :
    Meets S ns z none (ensureCreated ingress k.kind desired).run fun _ => True := by
  have hreads (j : OwnedKind) (ns' name' : String) :
      Lasts S (j.kind.keyAt ns' name') j.Reads (ensureCreated ingress k.kind desired).run :=
    lasts_ensureCreated S (lasting_reads ingress j) hk hd.durable hd.unowned
  rw [ensureCreated_eq] at hreads ⊢
  exact meets_keeping (key_owned ingress hk) (settles_adoption k.kind _) hm hreads

/-- What a step brings to a desired form meets none. -/
theorem Tracked.meets {step : Step} {k : OwnedKind} {desired : k.kind.Object} (hw : Tracked ingress ns step k desired) :
    Meets S ns z none (ensure ingress k desired).run fun _ => True := by
  obtain ⟨name, hk⟩ := hw.sought.key
  exact meets_ensure hw.sought hw.fits hk (List.mem_filter.1 (hw.mem_objects hk)).1

/-- Replacing the pods of the operand passes over its failures. -/
theorem meets_restart (ingress : ManagementIngress) : Meets S ns z none (Steps.restart ns).run fun _ => True := by
  intro s hs
  constructor
  · refine hs.run (Pass.writesOnly_restart ns) ?_ fun j ns' name' => lasts_restart S (lasting_reads ingress j)
    intro other hother hmem
    have htargets : Kind.secret.keyAt ns other ∈ Step.deployment.targets ns := hmem
    exact Step.secret_not_target hother htargets
  · rw [Steps.run_restart, Proc.run_ask]
    rcases (h (.get .deployment ns Names.app) s).1 with e | (_ | d)
    · exact .ok trivial
    · exact .ok trivial
    · dsimp only
      rw [Proc.run_ask, Proc.run_ask]
      split <;> exact .ok trivial

/-- Keeping a config map meets none. -/
theorem meets_configMap {desired : ConfigMap} (restarts : Bool) (hk : Kind.configMap.key desired = .ok (ns, name))
    (ho : desired.metadata.ownerReferences = none) (hm : Kind.configMap.keyAt ns name ∈ Step.config.targets ns) :
    Meets S ns z none (Steps.configMap ingress desired restarts).run fun _ => True := by
  have hns : desired.metadata.ns = some ns := (Kind.key_eq_ok.1 hk).1
  refine (meets_ensure (k := .configMap) (sought_configMap hk ho) trivial hk hm).free_bind fun synced _ => ?_
  split
  · rw [hns]
    exact (meets_restart ingress).action_map fun _ _ => trivial
  · exact .done trivial

end

/-! ### Secrets -/

/-- How waiting for a secret fails that does not hold a certificate. -/
def Steps.unissued (S : ObjectStore h) (wait : WaitPolicy) (ns name : String) (z : σ) : Option Failure :=
  if (issued? (S.stored z (Kind.secret.keyAt ns name))).isSome then none else some (.timeout s!"secret {name}" wait.timeout)

/-- Waiting for a secret meets its absence, if a clock can measure the wait. -/
theorem Steps.meets_awaitSecret {wait : WaitPolicy} {name : String} (hwait : wait.timeout ≤ WaitPolicy.longest)
    (hname : name ≠ Names.clusterCa) :
    Meets S ns z (unissued S wait ns name z) (awaitSecret wait ns name).run fun _ => True := by
  intro s hs
  obtain ⟨hr, hquiet⟩ := awaitSecret_run S hs.holds wait ns name
  refine ⟨hs.quiet hquiet, ?_⟩
  rw [hr, hs.secrets name hname, awaited, if_neg (Nat.not_lt.2 hwait), unissued]
  cases issued? (S.stored z (Kind.secret.keyAt ns name)) with
  | none => exact .failed _
  | some secret => exact .ok trivial

/-! ### Steps -/

section

variable (S ns z) (setup : Setup) (ingress : ManagementIngress)

/-- What a step fails for, as things are in a state: the first that is missing of what it needs. -/
def Step.obstacle : Step → Option Failure
  | certificates | service => none
  | config =>
    match setup.flavor with
    | .standard => (failure? (h .baseDomain z).1).or (failure? (h .apiServer z).1)
    | .cncf _ => none
  | routes =>
    (failure? (h .baseDomain z).1).or
      ((Steps.unissued S setup.settings.secretWait ns Names.serviceSecret z).or
        (if ingress.spec.ignoreRouteCert then none else Steps.unissued S setup.settings.secretWait ns Names.routeSecret z))
  | clusterCa =>
    Steps.unissued S setup.settings.secretWait ns (if ingress.spec.ignoreRouteCert then Names.serviceSecret else Names.routeSecret) z
  | deployment =>
    Option.or
      (match setup.flavor with
        | .standard => failure? (h .clusterDomain z).1
        | .cncf _ => none)
      (failure? (Desired.operandImage ingress.spec setup.settings.image))

/-- The first of some steps that fails, by its kind, and what for. -/
def obstacleOf (steps : List Step) : Option (OwnedKind × Failure) :=
  steps.findSome? fun step => (step.obstacle S ns z setup ingress).map fun cause => (step.kind, cause)

end

namespace Pass

variable {e e' : Option Failure} {setup : Setup} {ingress : ManagementIngress} {base : Option String}

/-! ### Actions that remember the base domain -/

/-- What goes on meets the obstacles of the one part, and then those of the other. -/
theorem meets_bind {x : Remembering α} {f : α → Remembering β} {Q : α × Option String → Prop} {R : β × Option String → Prop}
    (hx : Meets S ns z e (x.run base).run Q) (hf : ∀ a base, Q (a, base) → Meets S ns z e' ((f a).run base).run R) :
    Meets S ns z (e.or e') ((x >>= f).run base).run R :=
  hx.action_bind fun y hy => hf y.1 y.2 hy

/-- What goes on with what meets nothing meets its own obstacles. -/
theorem meets_bind_free {x : Remembering α} {f : α → Remembering β} {Q : α × Option String → Prop}
    {R : β × Option String → Prop} (hx : Meets S ns z e (x.run base).run Q)
    (hf : ∀ a base, Q (a, base) → Meets S ns z none ((f a).run base).run R) : Meets S ns z e ((x >>= f).run base).run R :=
  hx.bind_free fun y hy => hf y.1 y.2 hy

/-- An action meets where a domain is remembered what it meets without. -/
theorem meets_lift {a : Action α} (ha : Meets S ns z e a.run fun _ => True) (hb : Knows h z base) :
    Meets S ns z e ((liftM a : Remembering α).run base).run fun y => Knows h z y.2 :=
  ha.action_map fun _ _ => hb

section

variable (hS : S.Steady) (hz : S.Holds z)

include hS hz

/-- Asking for the base domain meets the failure with which the cluster answers; a domain that is remembered was told. -/
theorem meets_baseDomain (hb : Knows h z base) :
    Meets S ns z (failure? (h .baseDomain z).1) (baseDomain.run base).run fun y => Knows h z y.2 := by
  cases base with
  | some domain =>
    rw [run_baseDomain_some, hb domain rfl]
    exact .done hb
  | none =>
    rw [run_baseDomain_none]
    have hrequest : Meets S ns z (failure? ((h .baseDomain z).1.map fun domain => (domain, some domain)))
        (Proc.ask .baseDomain fun answer => .done (answer.map fun domain => (domain, some domain))) _ :=
      Meets.request (r := .baseDomain) trivial fun s hs => hS.baseDomain hs hz
    cases hd : (h .baseDomain z).1 with
    | error e =>
      rw [hd] at hrequest
      exact hrequest.mono fun y hy => nomatch hy
    | ok domain =>
      rw [hd] at hrequest
      refine hrequest.mono fun y hy => ?_
      cases hy
      intro other hother
      cases hother
      exact hd

theorem meets_clusterInfo (host : String) (hb : Knows h z base) :
    Meets S ns z (Step.config.obstacle S ns z setup ingress) ((clusterInfo setup ingress ns host).run base).run fun y =>
      Knows h z y.2 := by
  unfold clusterInfo Step.obstacle
  cases setup.flavor with
  | cncf domain => exact .done hb
  | standard =>
    refine meets_bind (meets_baseDomain hS hz hb) fun domain base hb => ?_
    have hrequest : Meets S ns z (failure? (h .apiServer z).1) Action.apiServer.run fun _ => True :=
      (Meets.request (r := .apiServer) (f := id) trivial fun s hs => hS.apiServer hs hz).mono fun _ _ => trivial
    exact (meets_lift hrequest hb).action_map fun _ hy => hy

/-- Keeping the config maps meets what is not known of the cluster. -/
theorem meets_config (host : String) (hb : Knows h z base) :
    Meets S ns z (Step.config.obstacle S ns z setup ingress) ((config setup ingress ns host).run base).run fun y =>
      Knows h z y.2 := by
  refine meets_bind (e := none) (meets_lift (meets_configMap true rfl rfl (.head _)) hb) fun own base hb => ?_
  refine meets_bind (e := none) (meets_lift (meets_configMap false rfl rfl (.tail _ (.head _))) hb) fun bind base hb => ?_
  refine meets_bind_free (meets_clusterInfo hS hz host hb) fun info base hb => ?_
  exact (meets_lift (meets_configMap false rfl rfl (.tail _ (.tail _ (.head _)))) hb).action_map fun _ hy => hy

theorem meets_deployment (host : String) :
    Meets S ns z (Step.deployment.obstacle S ns z setup ingress) (deployment setup ingress ns host).run fun _ => True := by
  have hdomain : Meets S ns z
      (match setup.flavor with
        | .standard => failure? (h .clusterDomain z).1
        | .cncf _ => none) (clusterDomain setup).run fun _ => True := by
    unfold clusterDomain
    cases setup.flavor with
    | cncf _ => exact .done trivial
    | standard =>
      exact (Meets.request (r := .clusterDomain) (f := id) trivial fun s hs => hS.clusterDomain hs hz).mono fun _ _ => trivial
  refine hdomain.action_bind fun domain _ => ?_
  refine (Meets.given (Desired.operandImage ingress.spec setup.settings.image)).bind_free fun image _ => ?_
  have hkept {params : Desired.DeploymentParams} (hns : params.ns = ns) :
      Meets S ns z none (ensure ingress .deployment (Desired.deployment ingress params)).run fun _ => True :=
    (Tracked.deployment params hns).meets
  exact hkept rfl

end

theorem meets_certificates (host : String) : Meets S ns z none (Steps.certificates ingress ns host).run fun _ => True := by
  refine Tracked.serviceCertificate.meets.free_bind fun service _ => ?_
  split
  · exact .done trivial
  · next hroute => exact (Tracked.routeCertificate (Bool.not_eq_true _ ▸ hroute) host).meets.action_map fun _ _ => trivial

/-- Keeping the routes meets the absence of the secrets that they need. -/
theorem meets_routes {wait : WaitPolicy} (hwait : wait.timeout ≤ WaitPolicy.longest) (host proxyHost : String) :
    Meets S ns z
      ((Steps.unissued S wait ns Names.serviceSecret z).or
        (if ingress.spec.ignoreRouteCert then none else Steps.unissued S wait ns Names.routeSecret z))
      (Steps.routes ingress wait ns host proxyHost).run fun _ => True := by
  refine (Steps.meets_awaitSecret hwait (by decide)).action_bind fun serviceSecret _ => ?_
  have hmaterial : Meets S ns z (if ingress.spec.ignoreRouteCert then none else Steps.unissued S wait ns Names.routeSecret z)
      (Steps.routeMaterial ingress wait ns serviceSecret).run fun _ => True := by
    unfold Steps.routeMaterial
    split
    · exact .done trivial
    · exact (Steps.meets_awaitSecret hwait (by decide)).action_map fun _ _ => trivial
  refine hmaterial.bind_free fun found _ => ?_
  refine (Tracked.routesCa _).meets.free_bind fun ca _ => ?_
  refine (Tracked.consoleRoute host _).meets.free_bind fun console _ => ?_
  have hm : OwnedKind.route.kind.keyAt ns Names.proxyRoute ∈ Step.routes.targets ns := .tail _ (.tail _ (.head _))
  exact (meets_ensureCreated (k := .route) (sought_route rfl rfl) rfl hm).action_map fun _ _ => trivial

theorem meets_clusterCaOnly {wait : WaitPolicy} (hwait : wait.timeout ≤ WaitPolicy.longest) :
    Meets S ns z
      (Steps.unissued S wait ns (if ingress.spec.ignoreRouteCert then Names.serviceSecret else Names.routeSecret) z)
      (Steps.clusterCaOnly ingress wait ns).run fun _ => True := by
  refine (Steps.meets_awaitSecret hwait (by split <;> decide)).bind_free fun source _ => ?_
  exact (Tracked.clusterCa _).meets.action_map fun _ _ => trivial

/-- A step meets its obstacles and no others. -/
theorem meets_runStep (hS : S.Steady) (hz : S.Holds z) (hwait : setup.settings.secretWait.timeout ≤ WaitPolicy.longest)
    (host : String) (step : Step) (hb : Knows h z base) :
    Meets S ns z (step.obstacle S ns z setup ingress) ((runStep setup ingress ns host step).run base).run fun y =>
      Knows h z y.2 := by
  cases step with
  | certificates => exact meets_lift (meets_certificates _) hb
  | service => exact (meets_lift Tracked.service.meets hb).action_map fun _ hy => hy
  | config => exact meets_config hS hz host hb
  | routes =>
    refine meets_bind (meets_baseDomain hS hz hb) fun domain base hb => ?_
    exact meets_lift (meets_routes hwait _ _) hb
  | clusterCa => exact meets_lift (meets_clusterCaOnly hwait) hb
  | deployment => exact (meets_lift (meets_deployment hS hz _) hb).action_map fun _ hy => hy

/-- Steps end for the first obstacle of the first of them that has one, and else they end well. -/
theorem meets_runSteps (hS : S.Steady) (hz : S.Holds z) (hwait : setup.settings.secretWait.timeout ≤ WaitPolicy.longest)
    (host : String) {steps : List Step} (status : IngressStatus) (hb : Knows h z base) {s : σ} (hs : Ready S ns z s) :
    Comes (fun _ => True) (obstacleOf S ns z setup ingress steps)
      ((runSteps setup ingress ns host steps base status).run h s).1.2 := by
  induction steps generalizing base status s with
  | nil => exact .ok trivial
  | cons step rest ih =>
    have hmeets : Meets S ns z (step.obstacle S ns z setup ingress) ((runStep setup ingress ns host step).run base).run _ :=
      meets_runStep hS hz hwait host step hb
    obtain ⟨hs₁, hstep⟩ := hmeets s hs
    unfold runSteps obstacleOf
    rw [Proc.run_bind, List.findSome?_cons]
    generalize ((runStep setup ingress ns host step).run base).run.run h s = ended at hs₁ hstep
    generalize step.obstacle S ns z setup ingress = obstacle at hstep
    obtain ⟨result, s₁⟩ := ended
    cases hstep with
    | failed cause => exact .failed _
    | @ok y hy =>
      obtain ⟨synced, base'⟩ := y
      have hnow : Ready S ns z (h .now s₁).2 :=
        hs₁.congr (S.holds .now s₁ hs₁.holds) fun k ns name => S.stored_of_untargeted hs₁.holds rfl _
      have hrest := ih (status.markReady step.kind.name (h .now s₁).1) hy hnow
      dsimp only [Option.map_none]
      rw [Proc.run_bind, Proc.run_request, Proc.run_bind]
      generalize (runSteps setup ingress ns host rest base' (status.markReady step.kind.name (h .now s₁).1)).run h
        (h .now s₁).2 = later at hrest
      obtain ⟨⟨status', result⟩, s₂⟩ := later
      change Comes (fun _ => True) (obstacleOf S ns z setup ingress rest) (result.map (synced ++ ·))
      dsimp only at hrest
      generalize obstacleOf S ns z setup ingress rest = obstacle at hrest
      cases hrest with
      | ok _ => exact .ok trivial
      | failed cause => exact .failed cause

end Pass

end IngressOperator
