import IngressOperator.Proofs.Steps.Targets

/-!
# Steps repeat themselves

A step that is run once more, while the objects that it goes by are as it left them, ends as it did and writes nothing. If it
failed, it fails for the same reason; if not, every object is found to be as it should be.

## Main statements

* `Pass.repeats_runStep`: a step that is run once more finds nothing to do.
-/

namespace IngressOperator.Pass

/-- What is done to objects of which none is written. -/
def Idle (synced : List Synced) : Prop := ∀ x ∈ synced, x.outcome.mutated = false

theorem Idle.append {xs ys : List Synced} (hx : Idle xs) (hy : Idle ys) : Idle (xs ++ ys) := by
  intro z hz
  rcases List.mem_append.1 hz with hz | hz
  · exact hx z hz
  · exact hy z hz

theorem Idle.cons {x : Synced} {xs : List Synced} (hx : x.outcome.mutated = false) (hxs : Idle xs) : Idle (x :: xs) := by
  intro z hz
  rcases List.mem_cons.1 hz with rfl | hz
  · exact hx
  · exact hxs z hz

theorem Idle.nil : Idle [] := fun _ hz => absurd hz List.not_mem_nil

variable {σ α β γ δ : Type} {h : Proc.Handler σ} {S : ObjectStore h} {K L M : List ObjectKey} {R : α → β → Prop}
  {T : γ → δ → Prop}

/-! ### Actions that remember the base domain -/

/-- Values are related, and the same domain is remembered. -/
def Alike (R : α → β → Prop) (x : α × Option String) (y : β × Option String) : Prop := R x.1 y.1 ∧ x.2 = y.2

/-- What goes on is repeated part by part. -/
theorem repeats_bind {x : Remembering α} {y : Remembering β} {f : α → Remembering γ} {g : β → Remembering δ}
    {base : Option String} (hx : Repeats S K (Echoes (Alike R)) (x.run base).run (y.run base).run) (hk : K ⊆ L)
    (hf : ∀ a b base, R a b → Repeats S L (Echoes (Alike T)) ((f a).run base).run ((g b).run base).run)
    (hw : ∀ a base, ((f a).run base).run.WritesOnly M) (hd : ∀ key ∈ K, key ∉ M) :
    Repeats S L (Echoes (Alike T)) ((x >>= f).run base).run ((y >>= g).run base).run := by
  refine Repeats.action_bind hx hk (fun u v huv => ?_) (fun u => hw u.1 u.2) hd
  obtain ⟨a, b⟩ := u
  obtain ⟨a', b'⟩ := v
  obtain ⟨hr, rfl⟩ : R a a' ∧ b = b' := huv
  exact hf a a' b hr

/-- An action is repeated where a domain is remembered as it is without. -/
theorem repeats_lift {a : Action α} {b : Action β} (ha : Repeats S K (Echoes R) a.run b.run) (base : Option String) :
    Repeats S K (Echoes (Alike R)) ((liftM a : Remembering α).run base).run ((liftM b : Remembering β).run base).run :=
  ha.action_map fun _ _ hxy => ⟨hxy, rfl⟩

/-- A value is passed on where a domain is remembered. -/
theorem repeats_map {x : Remembering α} {y : Remembering β} {f : α → γ} {g : β → δ} {base : Option String}
    (hx : Repeats S K (Echoes (Alike R)) (x.run base).run (y.run base).run) (hf : ∀ a b, R a b → T (f a) (g b)) :
    Repeats S K (Echoes (Alike T)) ((x >>= fun a => pure (f a)).run base).run ((y >>= fun b => pure (g b)).run base).run :=
  repeats_bind (M := []) hx (List.Subset.refl K) (fun a b _ hab => .done (.ok ⟨hf a b hab, rfl⟩)) (fun _ _ => trivial)
    fun _ _ => List.not_mem_nil

/-- What is always answered in the same way, and is no write, repeats itself. -/
theorem repeats_answer {r : Request} (f : r.Answer → α) (hr : ∀ s t, S.Holds s → S.Holds t → (h r s).1 = (h r t).1)
    (hw : ∀ answer, ¬ (⟨r, answer⟩ : Exchange).Writes) :
    Repeats S K Eq (Proc.ask r fun answer => .done (f answer)) (Proc.ask r fun answer => .done (f answer)) := by
  refine .of_constant (fun s t hs ht => ?_) fun _ _ => Proc.quiet_ask (hw _) (Proc.quiet_done _ _ _)
  rw [Proc.run_ask, Proc.run_ask, hr s t hs ht]
  rfl

/-- The base domain is the same at every question. -/
theorem repeats_baseDomain (hS : S.Steady) (base : Option String) :
    Repeats S [] (Echoes (Alike Eq)) (baseDomain.run base).run (baseDomain.run base).run := by
  cases base with
  | some domain => exact .done (.ok ⟨rfl, rfl⟩)
  | none =>
    rw [run_baseDomain_none]
    refine (repeats_answer _ (fun s t hs ht => hS.baseDomain hs ht) fun _ => id).imp ?_
    rintro (e | x) _ rfl
    · exact .error e
    · exact .ok ⟨rfl, rfl⟩

/-! ### Steps -/

section

variable (setup : Setup) (ingress : ManagementIngress) (ns host : String)

/-- What goes on after a desired object was kept is repeated if it does not write that object. -/
theorem repeats_ensure_then (k : OwnedKind) {desired : k.kind.Object} {name : String} {f g : Synced → Action γ}
    {T : γ → γ → Prop} (hk : k.kind.key desired = .ok (ns, name)) (hd : (Drift.object k desired desired).changed = false)
    (hL : k.kind.keyAt ns name ∈ L)
    (hf : ∀ x y, y.outcome.mutated = false → Repeats S L (Echoes T) (f x).run (g y).run)
    (hw : ∀ x, (f x).run.WritesOnly M) (hM : k.kind.keyAt ns name ∉ M) :
    Repeats S L (Echoes T) (ensure ingress k desired >>= f).run (ensure ingress k desired >>= g).run := by
  refine (repeats_ensure S ingress k hk hd).action_bind ?_ hf hw ?_
  · exact fun key hkey => List.mem_singleton.1 hkey ▸ hL
  · exact fun key hkey => List.mem_singleton.1 hkey ▸ hM

theorem repeats_certificates :
    Repeats S (Step.certificates.bases ns) (Echoes fun _ ys => Idle ys) (Steps.certificates ingress ns host).run
      (Steps.certificates ingress ns host).run := by
  refine repeats_ensure_then ingress ns .certificate (M := [Kind.certificate.keyAt ns Names.routeCert]) rfl
    (Drift.certificate_self _) (.head _) (fun x y hy => ?_) (fun x => ?_) ?_
  · split
    · exact .done (.ok (.cons hy .nil))
    · refine repeats_ensure_then ingress ns .certificate (M := []) rfl (Drift.certificate_self _) (.tail _ (.head _))
        (fun x' y' hy' => ?_) (fun _ => trivial) List.not_mem_nil
      exact .done (.ok (.cons hy (.cons hy' .nil)))
  · split
    · trivial
    · refine Action.writesOnly_bind ?_ fun _ => trivial
      exact writesOnly_ensure_mem ingress ns .certificate rfl (Drift.certificate_self _) (.head _)
  · simp only [List.mem_singleton, Kind.keyAt_inj]
    decide

theorem repeats_service :
    Repeats S (Step.service.bases ns) (Echoes fun _ y => y.outcome.mutated = false) (Steps.service ingress ns).run
      (Steps.service ingress ns).run :=
  repeats_ensure S ingress .service rfl (Drift.service_self ns)

/-- Replacing the pods of the operand does not fail. -/
theorem restart_ok (s : σ) : ∃ synced, ((Steps.restart ns).run.run h s).1 = .ok synced := by
  rw [Steps.run_restart, Proc.run_ask]
  rcases (h (.get .deployment ns Names.app) s).1 with e | (_ | d)
  · exact ⟨_, rfl⟩
  · exact ⟨_, rfl⟩
  · dsimp only
    rw [Proc.run_ask, Proc.run_ask]
    split <;> exact ⟨_, rfl⟩

/-- A config map that was just kept is as it should be, so that no pods are replaced on account of it. -/
theorem repeats_configMap {desired : ConfigMap} {name : String} (restarts : Bool)
    (hk : Kind.configMap.key desired = .ok (ns, name)) :
    Repeats S [Kind.configMap.keyAt ns name] (Echoes fun _ ys => Idle ys) (Steps.configMap ingress desired restarts).run
      (Steps.configMap ingress desired restarts).run := by
  have hns : desired.metadata.ns = some ns := (Kind.key_eq_ok.1 hk).1
  refine (repeats_ensure S ingress .configMap hk (Drift.configMap_self desired)).action_bind
    (M := [Kind.deployment.keyAt ns Names.app]) (List.Subset.refl _) (fun x y hy => ?_) (fun x => ?_) fun key hkey => ?_
  · have hy' : (restarts && y.outcome == .updated) = false := by
      cases ho : y.outcome with
      | created => rw [ho] at hy; cases hy
      | updated => rw [ho] at hy; cases hy
      | _ => cases restarts <;> rfl
    have hidle : Idle [y] := .cons hy .nil
    rw [hy']
    refine Repeats.of_result fun s => ?_
    split
    · obtain ⟨synced, hr⟩ := restart_ok (h := h) (desired.metadata.ns.getD "") s
      rw [ExceptT.run_bind, Proc.run_bind, hr]
      exact .ok hidle
    · exact .ok hidle
  · split
    · refine Action.writesOnly_bind ?_ fun _ => trivial
      rw [hns]
      exact writesOnly_restart ns
    · trivial
  · rw [List.mem_singleton.1 hkey, List.mem_singleton, Kind.keyAt_inj]
    exact fun he => absurd he.1 nofun

/-- What a cluster is said to be like is the same at every question. -/
theorem repeats_clusterInfo (hS : S.Steady) (base : Option String) :
    Repeats S [] (Echoes (Alike Eq)) ((clusterInfo setup ingress ns host).run base).run
      ((clusterInfo setup ingress ns host).run base).run := by
  unfold clusterInfo
  cases setup.flavor with
  | cncf domain => exact .done (.ok ⟨rfl, rfl⟩)
  | standard =>
    refine repeats_bind (M := []) (repeats_baseDomain hS base) (List.Subset.refl _) (fun a b base hab => ?_) (fun a base => ?_)
      fun _ _ => List.not_mem_nil
    · cases hab
      have hapi : Repeats S [] (Echoes Eq) Action.apiServer.run Action.apiServer.run :=
        (repeats_answer (r := .apiServer) id (fun s t hs ht => hS.apiServer hs ht) fun _ => id).imp fun x _ hx => hx ▸ Echoes.refl x
      exact repeats_map (repeats_lift hapi base) fun x y hxy => by rw [hxy]
    · refine writesOnly_bind (writesOnly_lift ?_ base) fun api base => trivial
      exact Proc.writesOnly_ask rfl fun answer => trivial

/-- What goes on after a config map was kept is repeated if it does not write that config map. -/
theorem repeats_configMap_then {desired : ConfigMap} {name : String} {restarts : Bool} {f g : List Synced → Remembering γ}
    {T : γ → γ → Prop} {base : Option String} (hk : Kind.configMap.key desired = .ok (ns, name))
    (hL : Kind.configMap.keyAt ns name ∈ L)
    (hf : ∀ xs ys base, Idle ys → Repeats S L (Echoes (Alike T)) ((f xs).run base).run ((g ys).run base).run)
    (hw : ∀ xs base, ((f xs).run base).run.WritesOnly M) (hM : Kind.configMap.keyAt ns name ∉ M) :
    Repeats S L (Echoes (Alike T)) ((Steps.configMap ingress desired restarts >>= f : Remembering γ).run base).run
      ((Steps.configMap ingress desired restarts >>= g : Remembering γ).run base).run := by
  refine repeats_bind (repeats_lift (repeats_configMap ingress ns restarts hk) base) ?_ hf hw ?_
  · exact fun key hkey => List.mem_singleton.1 hkey ▸ hL
  · exact fun key hkey => List.mem_singleton.1 hkey ▸ hM

theorem repeats_config (hS : S.Steady) (base : Option String) :
    Repeats S (Step.config.bases ns) (Echoes (Alike fun _ ys => Idle ys)) ((config setup ingress ns host).run base).run
      ((config setup ingress ns host).run base).run := by
  refine repeats_configMap_then (M := [Kind.configMap.keyAt ns Names.bindInfo, Kind.configMap.keyAt ns Names.clusterInfo])
    ingress ns rfl (.head _) (fun own own' base hown => ?_) (fun own base => ?_) ?_
  · refine repeats_configMap_then (M := [Kind.configMap.keyAt ns Names.clusterInfo])
      ingress ns rfl (.tail _ (.head _)) (fun bind bind' base hbind => ?_) (fun bind base => ?_) ?_
    · refine repeats_bind (M := [Kind.configMap.keyAt ns Names.clusterInfo]) (repeats_clusterInfo setup ingress ns host hS base)
        (List.nil_subset _) (fun info info' base hinfo => ?_) (fun info base => ?_) fun _ hkey => absurd hkey List.not_mem_nil
      · cases hinfo
        refine (repeats_map (repeats_lift (repeats_configMap ingress ns false rfl) base) fun xs ys hys => ?_).mono ?_
        · exact (hown.append hbind).append hys
        · exact fun key hkey => List.mem_singleton.1 hkey ▸ .tail _ (.tail _ (.head _))
      · refine writesOnly_bind (writesOnly_lift ?_ base) fun cluster base => trivial
        exact writesOnly_configMap ingress ns rfl (.head _) nofun
    · refine writesOnly_bind (writesOnly_clusterInfo setup ingress ns host base) fun info base => ?_
      refine writesOnly_bind (writesOnly_lift ?_ base) fun cluster base => trivial
      exact writesOnly_configMap ingress ns rfl (.head _) nofun
    · simp only [List.mem_singleton, Kind.keyAt_inj]
      decide
  · refine writesOnly_bind (writesOnly_lift ?_ base) fun bind base => ?_
    · exact writesOnly_configMap ingress ns rfl (.head _) nofun
    refine writesOnly_bind (writesOnly_clusterInfo setup ingress ns host base) fun info base => ?_
    refine writesOnly_bind (writesOnly_lift ?_ base) fun cluster base => trivial
    exact writesOnly_configMap ingress ns rfl (.tail _ (.head _)) nofun
  · simp only [List.mem_cons, List.not_mem_nil, or_false, Kind.keyAt_inj]
    decide

/-- A secret whose authority was just published is as it should be. -/
theorem repeats_clusterCa (source : Secret) :
    Repeats S [Kind.secret.keyAt ns Names.clusterCa] (Echoes fun _ y => y.outcome.mutated = false)
      (Steps.clusterCa ingress ns source).run (Steps.clusterCa ingress ns source).run :=
  repeats_ensure S ingress .secret rfl (Drift.secret_self _)

/-- The same secrets come once more. -/
theorem repeats_routeMaterial (wait : WaitPolicy) (serviceSecret : Secret) :
    Repeats S [Kind.secret.keyAt ns Names.routeSecret] (Echoes Eq) (Steps.routeMaterial ingress wait ns serviceSecret).run
      (Steps.routeMaterial ingress wait ns serviceSecret).run := by
  unfold Steps.routeMaterial
  split
  · exact .done (.ok rfl)
  · exact (Steps.repeats_awaitSecret S wait ns Names.routeSecret).action_map fun x y hxy => by rw [hxy]

theorem repeats_publish (proxyHost : String) (material : Option Desired.TlsMaterial) (source : Secret) :
    Repeats S (Step.routes.targets ns) (Echoes fun _ ys => Idle ys)
      (Steps.publish ingress ns host proxyHost material source).run
      (Steps.publish ingress ns host proxyHost material source).run := by
  refine (repeats_clusterCa ingress ns source).action_bind
    (M := [Kind.route.keyAt ns Names.consoleRoute, Kind.route.keyAt ns Names.proxyRoute])
    (fun key hkey => List.mem_singleton.1 hkey ▸ .head _) (fun ca ca' hca => ?_) (fun ca => ?_) fun key hkey => ?_
  · refine repeats_ensure_then ingress ns .route (M := [Kind.route.keyAt ns Names.proxyRoute]) rfl (Drift.route_self _)
      (.tail _ (.head _)) (fun console console' hconsole => ?_) (fun console => ?_) ?_
    · refine ((repeats_ensureCreated S ingress (k := .route) nofun rfl).action_map fun proxy proxy' hproxy => ?_).mono ?_
      · exact .cons hca (.cons hconsole (.cons hproxy .nil))
      · exact fun key hkey => List.mem_singleton.1 hkey ▸ .tail _ (.tail _ (.head _))
    · refine Action.writesOnly_bind ?_ fun proxy => trivial
      exact writesOnly_ensureCreated ingress rfl
    · simp only [List.mem_singleton, Kind.keyAt_inj]
      decide
  · refine Action.writesOnly_bind ?_ fun console => Action.writesOnly_bind ?_ fun proxy => trivial
    · exact writesOnly_ensure_mem ingress ns .route rfl (Drift.route_self _) (.head _)
    · exact (writesOnly_ensureCreated ingress rfl).mono fun _ h => List.mem_singleton.1 h ▸ .tail _ (.head _)
  · rw [List.mem_singleton.1 hkey]
    simp only [List.mem_cons, List.not_mem_nil, or_false, Kind.keyAt_inj]
    decide

theorem repeats_routes (wait : WaitPolicy) (proxyHost : String) :
    Repeats S (Step.routes.bases ns) (Echoes fun _ ys => Idle ys) (Steps.routes ingress wait ns host proxyHost).run
      (Steps.routes ingress wait ns host proxyHost).run := by
  have hawaited (name : String) (hn : name ≠ Names.clusterCa) (key : ObjectKey) (hkey : key ∈ [Kind.secret.keyAt ns name]) :
      key ∉ Step.routes.targets ns := by
    rw [List.mem_singleton.1 hkey]
    simp [Step.targets, Kind.keyAt_inj, hn]
  refine (Steps.repeats_awaitSecret S wait ns Names.serviceSecret).action_bind (M := Step.routes.targets ns)
    (fun key hkey => List.mem_singleton.1 hkey ▸ .head _) (fun serviceSecret _ hs => ?_) (fun serviceSecret => ?_)
    (hawaited _ (by decide))
  · cases hs
    refine (repeats_routeMaterial ingress ns wait serviceSecret).action_bind (M := Step.routes.targets ns)
      (fun key hkey => List.mem_singleton.1 hkey ▸ .tail _ (.head _)) (fun found _ hf => ?_) (fun found => ?_)
      (hawaited _ (by decide))
    · cases hf
      exact (repeats_publish ingress ns host proxyHost found.1 found.2).mono fun key hkey => .tail _ (.tail _ hkey)
    · exact writesOnly_publish ingress ns host proxyHost found.1 found.2
  · refine Action.writesOnly_bind (writesOnly_routeMaterial ingress ns wait serviceSecret) fun found => ?_
    exact writesOnly_publish ingress ns host proxyHost found.1 found.2

theorem repeats_clusterCaOnly (wait : WaitPolicy) :
    Repeats S (Step.clusterCa.bases ns) (Echoes fun _ ys => Idle ys) (Steps.clusterCaOnly ingress wait ns).run
      (Steps.clusterCaOnly ingress wait ns).run := by
  refine (Steps.repeats_awaitSecret S wait ns _).action_bind (M := [Kind.secret.keyAt ns Names.clusterCa])
    (fun key hkey => ?_) (fun source _ hs => ?_) (fun source => ?_) fun key hkey => ?_
  · rw [List.mem_singleton.1 hkey]
    split
    · exact .head _
    · exact .tail _ (.head _)
  · cases hs
    refine ((repeats_clusterCa ingress ns source).action_map fun ca ca' hca => ?_).mono ?_
    · exact .cons hca .nil
    · exact fun key hkey => .tail _ (.tail _ hkey)
  · exact Action.writesOnly_bind (writesOnly_clusterCa ingress ns source (.head _)) fun _ => trivial
  · rw [List.mem_singleton.1 hkey, List.mem_singleton, Kind.keyAt_inj]
    split <;> exact fun he => absurd he.2.2 (by decide)

/-- The domain of names within the cluster is the same at every question. -/
theorem repeats_clusterDomain (hS : S.Steady) :
    Repeats S [] (Echoes Eq) (clusterDomain setup).run (clusterDomain setup).run := by
  unfold clusterDomain
  cases setup.flavor with
  | standard =>
    refine (repeats_answer (r := .clusterDomain) id (fun s t hs ht => hS.clusterDomain hs ht) fun _ => id).imp ?_
    exact fun x _ hx => hx ▸ Echoes.refl x
  | cncf _ => exact .done (.ok rfl)

theorem repeats_deployment (hS : S.Steady) :
    Repeats S (Step.deployment.bases ns) (Echoes fun _ y => y.outcome.mutated = false)
      (deployment setup ingress ns host).run (deployment setup ingress ns host).run := by
  refine (repeats_clusterDomain setup hS).action_bind (M := Step.deployment.targets ns) (List.nil_subset _)
    (fun domain _ hdomain => ?_) (fun domain => ?_) fun _ hkey => absurd hkey List.not_mem_nil
  · cases hdomain
    cases himage : Desired.operandImage ingress.spec setup.settings.image with
    | error e => exact .done (.error e)
    | ok image => exact repeats_ensure S ingress .deployment rfl (Drift.deployment_self ingress _)
  · refine Action.writesOnly_bind trivial fun image => ?_
    exact writesOnly_ensure_mem ingress ns .deployment rfl (Drift.deployment_self ingress _) (.head _)

/-- A step that is run once more finds nothing to do. -/
theorem repeats_runStep (hS : S.Steady) (step : Step) (base : Option String) :
    Repeats S (step.bases ns) (Echoes (Alike fun _ ys => Idle ys)) ((runStep setup ingress ns host step).run base).run
      ((runStep setup ingress ns host step).run base).run := by
  cases step with
  | certificates => exact repeats_lift (repeats_certificates ingress ns _) base
  | service => exact repeats_map (repeats_lift (repeats_service ingress ns) base) fun _ _ hy => .cons hy .nil
  | config => exact repeats_config setup ingress ns host hS base
  | routes =>
    refine repeats_bind (M := Step.routes.targets ns) (repeats_baseDomain hS base) (List.nil_subset _)
      (fun domain _ base hdomain => ?_) (fun domain base => ?_) fun _ hkey => absurd hkey List.not_mem_nil
    · cases hdomain
      exact repeats_lift (repeats_routes ingress ns _ _ _) base
    · exact writesOnly_lift (writesOnly_routes ingress ns _ _ _) base
  | clusterCa => exact repeats_lift (repeats_clusterCaOnly ingress ns _) base
  | deployment =>
    exact repeats_map (repeats_lift (repeats_deployment setup ingress ns _ hS) base) fun _ _ hy => .cons hy .nil

/-- The external host is the same at every pass. -/
theorem repeats_resolveHost (hS : S.Steady) (base : Option String) :
    Repeats S [] (Echoes (Alike Eq)) ((resolveHost setup ingress ns).run base).run
      ((resolveHost setup ingress ns).run base).run := by
  unfold resolveHost
  split
  · exact .done (.ok ⟨rfl, rfl⟩)
  · cases setup.flavor with
    | standard => exact repeats_map (repeats_baseDomain hS base) fun x y hxy => by rw [hxy]
    | cncf domain => exact .done (.ok ⟨rfl, rfl⟩)

end

end IngressOperator.Pass
