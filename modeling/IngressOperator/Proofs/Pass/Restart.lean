import IngressOperator.Proofs.Pass.Interleaving
import IngressOperator.Proofs.Steps.Note

/-!
# Restarts of the operand

The operand reads its configuration when it starts. A pass that replaces the operand's config map goes on at once to replace the
operand's pods, by noting the time on them; if the calls for that do not fail, then the pods stay others than they were, whatever
calls of this pass and of later ones fail. If one of them fails, this is passed over, and no later pass makes up for it.

## Main statements

* `Pass.resumes_entire`: a pass goes on with a restart as soon as it has replaced the configuration.
* `Pass.configuration_restarts`: after the configuration was replaced, either the restart fails at once or the pods stay replaced.
* `Pass.restart_lost`: a restart that fails is lost, although the pass succeeds.
-/

namespace IngressOperator

open SharedStore

/-! ### Going on with a restart -/

/-- Whether the operand's configuration was replaced in an exchange. -/
def Exchange.configures (ns : String) : Exchange → Bool
  | ⟨.update k x, .ok _⟩ => k.objectKey? x == some (Kind.configMap.keyAt ns Names.config)
  | _ => false

/-- The object that such an exchange names is the operand's configuration. -/
theorem target?_of_configures {ns : String} {x : Exchange} (h : x.configures ns = true) :
    x.request.target? = some (Kind.configMap.keyAt ns Names.config) := by
  obtain ⟨r, answer⟩ := x
  cases r with
  | update k x =>
    cases answer with
    | error e => cases h
    | ok z => exact eq_of_beq h
  | _ => cases h

/-- Whether a program goes on with a restart as soon as it has replaced the operand's configuration, and then keeps the note of
the time of the change. -/
def Proc.Resumes {α : Type} (ns : String) : Proc α → Prop
  | done _ => True
  | ask r next => ∀ answer, ObjectStore.Sensible r answer → (next answer).Resumes ns ∧
    ((⟨r, answer⟩ : Exchange).configures ns = true → ∃ f : Except Failure (List Synced) → Proc α,
      next answer = (Steps.restart ns).run >>= f ∧ ∀ restarted, (f restarted).Leaves Serves (KeepsNote ns))

namespace Proc.Resumes

variable {α β : Type} {ns : String}

theorem done (a : α) : (Proc.done a).Resumes ns := trivial

/-- It does so when it goes on with a program that does so and keeps the note. -/
theorem bind {p : Proc α} {f : α → Proc β} (hp : p.Resumes ns)
    (hf : ∀ a, (f a).Resumes ns ∧ (f a).Leaves Serves (KeepsNote ns)) : (p >>= f).Resumes ns := by
  induction p with
  | done a => exact (hf a).1
  | ask r next ih =>
    intro answer ha
    obtain ⟨hnext, hrestart⟩ := hp answer ha
    refine ⟨ih answer hnext, ?_⟩
    intro hconf
    obtain ⟨g, hg, hleaves⟩ := hrestart hconf
    refine ⟨fun restarted => g restarted >>= f, ?_, ?_⟩
    · rw [← bind_assoc, ← hg]
      rfl
    · intro restarted
      exact (chains_keepsNote ns).composes.bind (hleaves restarted) fun a => (hf a).2

/-- A program that does not replace the configuration has nothing to go on with. -/
theorem of_writesOnly {p : Proc α} {keys : List ObjectKey} (hp : p.WritesOnly keys)
    (hk : Kind.configMap.keyAt ns Names.config ∉ keys) : p.Resumes ns := by
  induction p with
  | done a => trivial
  | ask r next ih =>
    intro answer ha
    refine ⟨ih answer (hp.2 answer ha), ?_⟩
    intro hconf
    exact absurd (hp.1 _ (target?_of_configures hconf)) hk

end Proc.Resumes

/-- Keeping an object goes on with a restart if what comes after it begins with one when the object was replaced. -/
theorem resumes_keeping_bind {α : Type} {k : Kind} {desired : k.Object} {revise : k.Object → Option k.Object} {idle : Outcome}
    {ns ns' name : String} {f : Except Failure Synced → Proc α} (hk : k.key desired = .ok (ns', name))
    (hf : ∀ answer, (f answer).Resumes ns) {g : Except Failure (List Synced) → Proc α}
    (hrestart : f (.ok ⟨k, name, .updated⟩) = (Steps.restart ns).run >>= g)
    (hg : ∀ restarted, (g restarted).Leaves Serves (KeepsNote ns)) :
    ((keeping k desired revise idle).run >>= f).Resumes ns := by
  rw [run_keeping hk, Proc.ask_bind]
  intro created _
  refine ⟨?_, nofun⟩
  rcases created with e | (_ | _)
  · exact hf _
  · exact hf _
  · dsimp only
    rw [Proc.ask_bind]
    intro found _
    refine ⟨?_, nofun⟩
    rcases found with e | (_ | live)
    · exact hf _
    · exact hf _
    · dsimp only
      cases hrev : revise live with
      | none => exact hf _
      | some x =>
        rw [run_writing_some, Proc.ask_bind]
        intro updated _
        cases updated with
        | error e => exact ⟨hf _, nofun⟩
        | ok z => exact ⟨hf _, fun _ => ⟨g, hrestart, hg⟩⟩

variable {ingress : ManagementIngress} {ns : String}

/-- What is left of a program on its way resumes. -/
theorem Reaches.resumes {α : Type} {p q : Proc α} {w w' : SharedStore} {turns : List Turn} (hr : Reaches p w turns q w')
    (hw : w.Sound) (hp : p.Resumes ns) : w'.Sound ∧ q.Resumes ns := by
  induction hr with
  | start => exact ⟨hw, hp⟩
  | foreign _ hi ih =>
    obtain ⟨hw', hq⟩ := ih
    exact ⟨hw'.interferes hi, hq⟩
  | own _ hs ih =>
    obtain ⟨hw', hq⟩ := ih
    exact ⟨hw'.serves hs, (hq _ (hs.sensible hw')).1⟩

/-- What steps bring to a desired form is not the operand's configuration. -/
theorem Tracked.ne_configuration {step : Step} {k : OwnedKind} {desired : k.kind.Object}
    (hw : Tracked ingress ns step k desired) {name : String} (hk : k.kind.key desired = .ok (ns, name)) :
    Kind.configMap.keyAt ns Names.config ≠ k.kind.keyAt ns name := by
  intro he
  obtain ⟨hkind, -, rfl⟩ := Kind.keyAt_inj.1 he
  cases hw with
  | bindInfo host =>
    have hname : some Names.bindInfo = some Names.config := (Kind.key_eq_ok.1 hk).2
    exact absurd hname (by decide)
  | clusterInfo info =>
    have hname : some Names.clusterInfo = some Names.config := (Kind.key_eq_ok.1 hk).2
    exact absurd hname (by decide)
  | _ => cases hkind

namespace Pass

/-- What is left of keeping a config map when it is known how that ended: a restart if it was replaced. -/
def afterConfiguration (ns : String) : Except Failure Synced → Proc (Except Failure (List Synced))
  | .error e => .done (.error e)
  | .ok synced =>
    if synced.outcome == .updated then
      (Steps.restart ns).run >>= fun restarted => .done (restarted.map (synced :: ·))
    else .done (.ok [synced])

/-- A config map that the operand reads is kept, and what is left then is done. -/
theorem run_configMap {desired : ConfigMap} {name : String} (hk : Kind.configMap.key desired = .ok (ns, name)) :
    (Steps.configMap ingress desired true).run = (ensure ingress .configMap desired).run >>= afterConfiguration ns := by
  have hns : desired.metadata.ns = some ns := (Kind.key_eq_ok.1 hk).1
  unfold Steps.configMap
  rw [ExceptT.run_bind, hns]
  refine bind_congr fun answer => ?_
  cases answer with
  | error e => rfl
  | ok synced =>
    simp only [afterConfiguration, Bool.true_and]
    split
    · rw [ExceptT.run_bind]
      refine bind_congr fun restarted => ?_
      cases restarted <;> rfl
    · rfl

/-- Keeping the operand's configuration goes on with a restart when it was replaced. -/
theorem resumes_configMap {desired : ConfigMap} (hk : Kind.configMap.key desired = .ok (ns, Names.config)) :
    (Steps.configMap ingress desired true).run.Resumes ns := by
  have hdone {answer : Except Failure (List Synced)} : (Proc.done answer).Leaves Serves (KeepsNote ns) :=
    (chains_keepsNote ns).composes.done _
  have hensure := ensure_eq ingress .configMap desired
  rw [run_configMap hk, hensure]
  refine resumes_keeping_bind (key_owned ingress hk) ?_ rfl fun _ => hdone
  intro answer
  cases answer with
  | error e => exact .done _
  | ok synced =>
    simp only [afterConfiguration]
    split
    · have hrestart : (Steps.restart ns).run.Resumes ns := by
        refine .of_writesOnly (writesOnly_restart ns) ?_
        simp [Kind.keyAt, Kind.name]
      exact hrestart.bind fun restarted => ⟨.done _, hdone⟩
    · exact .done _

/-- A pass goes on with a restart as soon as it has replaced the configuration, and keeps the note of the time of the change. -/
theorem resumes_entire (setup : Setup) (ingress : ManagementIngress) (ns : String) :
    Entire setup.steps True ingress ns fun p => p.Resumes ns ∧ p.Leaves Serves (KeepsNote ns) := by
  have hnote := keepsNote_whole ingress ns
  have hpieces := hnote.toParts.pieces setup.steps
  have hrequest {r : Request} (hr : r.target? ≠ some (Kind.configMap.keyAt ns Names.config)) : (Proc.request r).Resumes ns := by
    intro answer _
    refine ⟨trivial, ?_⟩
    intro hconf
    exact absurd (target?_of_configures hconf) hr
  have hpeeks : Proc.Peeks True fun p => p.Resumes ns ∧ p.Leaves Serves (KeepsNote ns) :=
    { done := fun a => ⟨trivial, hnote.done a⟩
      bind := fun hp hf => ⟨hp.1.bind hf, hnote.bind hp.2 fun a => (hf a).2⟩
      look := fun r hr => ⟨hrequest (by simp [hr.looks.target?_eq_none]), hpieces.look r hr⟩
      discover := fun hd r hr => ⟨hrequest (by simp [hr.looks.target?_eq_none]), hpieces.discover hd r hr⟩ }
  refine { hpeeks with ensure := ?_, configuration := ?_, proxyRoute := ?_, legacy := ?_, report := ?_ }
  · intro step k desired hm hw
    obtain ⟨name, hk⟩ := hw.sought.key
    refine ⟨.of_writesOnly (writesOnly_ensure ingress hk hw.sought.same) ?_, hpieces.ensure hm hw⟩
    intro hmem
    exact hw.ne_configuration hk (List.mem_singleton.1 hmem)
  · intro hm
    exact ⟨resumes_configMap rfl, hpieces.configuration hm⟩
  · intro hm host
    refine ⟨.of_writesOnly (writesOnly_ensureCreated ingress rfl) ?_, hpieces.proxyRoute hm host⟩
    simp [Kind.keyAt, Kind.name]
  · refine hpeeks.removeLegacy ⟨hrequest ?_, hnote.remove⟩
    simp [Request.target?, Kind.keyAt, Kind.name]
  · intro status
    have hne : Request.target? (.updateStatus ingress status) ≠ some (Kind.configMap.keyAt ns Names.config) :=
      Kind.objectKey?_ne (k := .managementIngress) (by decide) ingress ns Names.config
    exact ⟨hrequest hne, hnote.report status⟩

/-! ### Passes one after the other -/

/-- Passes in a namespace, one after the other, between which other clients may write anything but the deployment of the operand:
what they ask for, and the store as it is then. -/
inductive Series (ns : String) : SharedStore → List Exchange → SharedStore → Prop where
  | done (w : SharedStore) : Series ns w [] w
  | pass {setup : Setup} {ingress : ManagementIngress} {result : Except PassFailure PassOutcome} {t t' : List Exchange}
    {w w₁ w' : SharedStore} (hns : ingress.metadata.ns = some ns) (hy : (run setup ingress).Yields Serves w result t w₁)
    (hs : Series ns w₁ t' w') : Series ns w (t ++ t') w'
  | foreign {key : ObjectKey} {t : List Exchange} {w w₁ w' : SharedStore} (hk : key ≠ Kind.deployment.keyAt ns Names.app)
    (hi : w.Interferes key w₁) (hs : Series ns w₁ t w') : Series ns w t w'

/-- A note is kept through passes one after the other. -/
theorem Series.keepsNote {w w' : SharedStore} {t : List Exchange} (hs : Series ns w t w') : KeepsNote ns w t w' := by
  induction hs with
  | done w => exact (chains_keepsNote ns).refl w
  | @pass setup ingress result t t' w w₁ w' hns hy hs ih =>
    have hpass : (run setup ingress).Leaves Serves (KeepsNote ns) := (keepsNote_whole ingress ns).run setup hns
    exact (chains_keepsNote ns).trans (hpass hy) ih
  | @foreign key t w w₁ w' hk hi hs ih =>
    have hframe : w₁.stored (Kind.deployment.keyAt ns Names.app) = w.stored (Kind.deployment.keyAt ns Names.app) := by
      cases hi with
      | put fresh => exact stored_put_of_ne _ _ hk.symm
      | erase => exact if_neg hk.symm
    have hother : KeepsNote ns w [] w₁ := keepsNote_of_frame (fun hw => hw.interferes hi) hframe
    exact (chains_keepsNote ns).trans hother ih

/-! ### The restart -/

/-- Whether exchanges begin with an attempt to replace the pods of the operand that failed: the deployment could not be read, or
could not be replaced. -/
inductive RestartFails (ns : String) : List Exchange → Prop where
  | unread (e : Failure) (t : List Exchange) : RestartFails ns (⟨.get .deployment ns Names.app, .error e⟩ :: t)
  | refused (d : Deployment) (now : Instant) (e : Failure) (t : List Exchange) :
    RestartFails ns (⟨.get .deployment ns Names.app, .ok (some d)⟩ :: ⟨.now, now⟩ ::
      ⟨.update .deployment (Steps.stamped d now), .error e⟩ :: t)

/-- Whatever calls fail and whatever was done before: once a pass has replaced the configuration while the deployment was stored,
either its attempt to replace the pods fails at once, or after any further passes the pods are to be others than they were then,
unless the deployment was deleted since or a clock that was read since shows the very time that they had noted. -/
theorem configuration_restarts {setup : Setup} (hns : ingress.metadata.ns = some ns) {w₀ v v₁ w₁ w₂ : SharedStore}
    (hw : w₀.Sound) {turns : List Turn} {r : Request} {next : r.Answer → Proc (Except PassFailure PassOutcome)}
    (hr : Reaches (run setup ingress) w₀ turns (.ask r next) v) {answer : r.Answer} (hs : v.Serves r answer v₁)
    (hconf : (⟨r, answer⟩ : Exchange).configures ns = true) {d : Deployment} (hd : v.operand? ns = some d)
    {result : Except PassFailure PassOutcome} {t t' : List Exchange} (hy : (next answer).Yields Serves v₁ result t w₁)
    (hseries : Series ns w₁ t' w₂) (hkept : ¬ Removed ns (t ++ t'))
    (hclock : ∀ now : Instant, (⟨.now, now⟩ : Exchange) ∈ t ++ t' → d.template.note? ≠ some (Rfc2822.encode now)) :
    RestartFails ns t ∨ ∃ d', w₂.operand? ns = some d' ∧ d'.template ≠ d.template := by
  have hpass := (resumes_entire setup ingress ns).run hns (fun _ hm => hm) fun _ => trivial
  obtain ⟨hv, hq⟩ := Reaches.resumes hr hw hpass.1
  obtain ⟨-, hresume⟩ := hq answer (hs.sensible hv)
  obtain ⟨f, hf, hleaves⟩ := hresume hconf
  -- the deployment is as it was when the configuration was replaced
  have hd₁ : v₁.operand? ns = some d := by
    have hframe : v₁.stored (Kind.deployment.keyAt ns Names.app) = v.stored (Kind.deployment.keyAt ns Names.app) := by
      refine hs.frame ?_
      rw [target?_of_configures hconf]
      simp [Kind.keyAt, Kind.name]
    exact (operand?_congr hframe).trans hd
  have hv₁ : v₁.Sound := hv.serves hs
  rw [hf] at hy
  obtain ⟨restarted, u, v₂, u', hrestart, hrest, rfl⟩ := hy.of_bind
  obtain ⟨synced, rfl, hcase⟩ := Restarts.of_yields hv₁ hrestart
  cases hcase with
  | unread e => exact .inl (.unread e u')
  | refused hj hx now e => exact .inl (.refused _ now e u')
  | missing hn =>
    rw [operand?, hn] at hd₁
    cases hd₁
  | @made j live z version hj hx now =>
    right
    -- the note that was left is kept, or gives way to a later one
    have hnoted := operand?_put v₁ ns version (Kind.withVersion .deployment (Steps.stamped live now) version)
    have hv₂ := hv₁.yields hrestart
    obtain ⟨-, hkeeps⟩ := (chains_keepsNote ns).trans (hleaves _ hrest) hseries.keepsNote hv₂
    rcases hkeeps _ hnoted with hremoved | ⟨d', hd', hnote⟩
    · refine absurd ?_ hkept
      rw [List.append_assoc]
      exact hremoved.right
    refine ⟨d', hd', ?_⟩
    intro he
    have hlast : ∃ last : Instant, (⟨.now, last⟩ : Exchange) ∈
        [⟨.get .deployment ns Names.app, .ok (some live)⟩, ⟨.now, now⟩, ⟨.update .deployment (Steps.stamped live now), .ok z⟩] ++
          u' ++ t' ∧ d'.template.note? = some (Rfc2822.encode last) := by
      rcases hnote with hnote | ⟨last, hm, hnote⟩
      · exact ⟨now, by simp, hnote.trans (note?_stamped live now)⟩
      · refine ⟨last, ?_, hnote⟩
        rw [List.append_assoc]
        exact List.mem_append_right _ hm
    obtain ⟨last, hm, hnote⟩ := hlast
    rw [he] at hnote
    exact hclock last hm hnote

/-! ### On a small cluster -/

open Cluster

namespace Reconfigured

/-- A custom resource like that of the small cluster, with another configuration of the operand. -/
def resource : ManagementIngress :=
  { Small.ingress with spec := { Small.ingress.spec with config := .ofList [("ssl-ciphers", "HIGH")] } }

/-- The config map that the operand has read. -/
def configuration : ConfigMap :=
  Kind.withVersion .configMap (owned Small.ingress .configMap (Desired.configMap "ns" Names.config ∅)) "3"

/-- The deployment of the operand, as a pass over the small cluster leaves it. -/
def workload : Deployment :=
  Kind.withVersion .deployment (owned Small.ingress .deployment (Desired.deployment Small.ingress {
    ns := "ns"
    image := "icr.io/op:1"
    clusterDomain := Names.plainClusterDomain
    allowedHostHeader := Desired.allowedHostHeader Small.ingress.spec (Host.plainConsole "example.com") "ns"
    namespacedWatch := false })) "4"

/-- The small cluster with these two. -/
def cluster : Cluster :=
  { Small.cluster with
    objects := (Small.cluster.objects.put (Kind.configMap.keyAt "ns" Names.config) (Kind.encode .configMap configuration)).put
      (Kind.deployment.keyAt "ns" Names.app) (Kind.encode .deployment workload)
    version := 4 }

/-- The same cluster, in which the deployment cannot be replaced once. -/
def faulty : Cluster := { cluster with faults := [{ verb := .update, kind := Kind.deployment.name }] }

/-- The object of a name that a cluster keeps, if there is one and it can be read. -/
def object? (k : Kind) (name : String) (c : Cluster) : Option k.Object :=
  (c.objects.get? (k.keyAt "ns" name)).bind k.decode?

/-- Whether exchanges begin with a restart that does not fail. -/
def restarts : List Exchange → Bool
  | ⟨.get .deployment _ _, .ok (some _)⟩ :: ⟨.now, _⟩ :: ⟨.update .deployment _, .ok _⟩ :: _ => true
  | _ => false

/-- Whether a request asks for an object to be deleted. -/
def deletes : Request → Bool
  | .delete _ _ _ => true
  | _ => false

/-- Whether the next request of what is left of a pass replaces the configuration, a restart follows, and nothing is deleted then,
while the pods noted no time before. -/
def restartsNext : Proc (Except PassFailure PassOutcome) × Cluster → Bool
  | (.ask r next, c) =>
    let answer := (Direct.handler r c).1
    let t := (next answer).trace Direct.handler (Direct.handler r c).2
    (⟨r, answer⟩ : Exchange).configures "ns" && (object? .deployment Names.app c).any (fun d => (Deployment.template d).note?.isNone) &&
      restarts t && t.all fun x => !deletes x.request
  | _ => false

/-- Whether a pass ended well and replaced the configuration, while the pods stayed as they were. -/
def losesRestart : Except PassFailure PassOutcome × Cluster → Bool
  | (.ok (.completed _), c) =>
    (object? .configMap Names.config c).any (fun after => ConfigMap.data after != configuration.data) &&
      (object? .deployment Names.app c).any fun d' => Deployment.template d' == workload.template
  | _ => false

/-- Nothing happens in that cluster on its own. -/
theorem calm : cluster.Calm {} := by
  have hdeployment : Filed (Kind.deployment.keyAt "ns" Names.app) (Kind.encode .deployment workload) :=
    filed_encode rfl rfl rfl
  have hconfiguration : Filed (Kind.configMap.keyAt "ns" Names.config) (Kind.encode .configMap configuration) :=
    filed_encode rfl rfl rfl
  exact (Small.calm.put hconfiguration 3 {}).put hdeployment 4 {}

/-- A store that keeps what that cluster does. -/
def store : SharedStore where
  stored key := cluster.objects.get? key
  given _ := ["1", "2", "3", "4"]

/-- Its documents are of the versions that were given. -/
theorem sound_store : store.Sound := by
  intro key j hj
  refine ⟨calm.filed key j hj, ?_⟩
  simp only [store, cluster, Objects.get?_put] at hj
  split at hj
  · cases hj
    exact ⟨"4", by simp [store], versionOf_encode .deployment workload⟩
  · split at hj
    · cases hj
      exact ⟨"3", by simp [store], versionOf_encode .configMap configuration⟩
    · obtain ⟨-, version, hgiven, hversion⟩ := sound_smallStore key j hj
      refine ⟨version, ?_, hversion⟩
      rcases List.mem_cons.1 hgiven with rfl | hgiven
      · simp [store]
      · rw [List.mem_singleton.1 hgiven]
        simp [store]

/-- No version was given there that the cluster is still to give. -/
theorem mirrors : Mirrors {} cluster store where
  calm := calm
  stored _ := rfl
  given key version hm := by
    simp only [store, List.mem_cons, List.not_mem_nil, or_false] at hm
    rcases hm with rfl | rfl | rfl | rfl
    · exact ⟨1, by decide, rfl⟩
    · exact ⟨2, by decide, rfl⟩
    · exact ⟨3, by decide, rfl⟩
    · exact ⟨4, by decide, rfl⟩

end Reconfigured

open Reconfigured in
/-- On that cluster the pods are replaced when the configuration is, and stay so. -/
theorem reconfigured_restarts :
    ∃ (v v₁ w₁ : SharedStore) (turns : List Turn) (r : Request) (next : r.Answer → Proc (Except PassFailure PassOutcome))
      (answer : r.Answer) (result : Except PassFailure PassOutcome) (t : List Exchange) (d d' : Deployment),
      store.Sound ∧ Reaches (run Small.setup resource) store turns (.ask r next) v ∧ v.Serves r answer v₁ ∧
        (⟨r, answer⟩ : Exchange).configures "ns" = true ∧ v.operand? "ns" = some d ∧ (next answer).Yields Serves v₁ result t w₁ ∧
          ¬ Removed "ns" t ∧ w₁.operand? "ns" = some d' ∧ d'.template ≠ d.template := by
  have hsparing : (run Small.setup resource).Asks (fun _ _ => True) Direct.Sparing := careful_sparing (careful_run _ _)
  obtain ⟨turns, v, hr, hm⟩ := Direct.reaches_advance (.start (p := run Small.setup resource)) mirrors hsparing 7
  have hcheck : restartsNext ((run Small.setup resource).advance Direct.handler 7 cluster) = true := by decide +kernel
  generalize (run Small.setup resource).advance Direct.handler 7 cluster = left at hcheck hr hm
  obtain ⟨q, c⟩ := left
  cases q with
  | done result => cases hcheck
  | ask r next =>
    simp only [restartsNext, Bool.and_eq_true] at hcheck
    obtain ⟨⟨⟨hconf, hnote⟩, hrestarts⟩, hkeeps⟩ := hcheck
    obtain ⟨d, hd, hnone⟩ := (Option.any_eq_true _ _).1 hnote
    have hd' : v.operand? "ns" = some d := by
      rw [operand?, hm.stored]
      exact hd
    -- what is left of the pass does not replace custom resources either
    obtain ⟨-, hand, hcareful, -⟩ := hr.holding sound_store (careful_run _ _)
    obtain ⟨hspares, hrest⟩ := careful_sparing hcareful
    obtain ⟨v₁, hs, hm₁⟩ := Direct.serves hm r hspares
    obtain ⟨w₁, hy, -⟩ := Direct.yields (hrest _ trivial) hm₁
    have hkept : ¬ Removed "ns" ((next (Direct.handler r c).1).trace Direct.handler (Direct.handler r c).2) := by
      intro hremoved
      have hdeletes := List.all_eq_true.1 hkeeps _ hremoved
      cases hdeletes
    have hclock (now : Instant) : (Deployment.template d).note? ≠ some (Rfc2822.encode now) := by
      rw [Option.isNone_iff_eq_none.1 hnone]
      exact (Option.some_ne_none _).symm
    have hmain := configuration_restarts rfl sound_store hr hs hconf hd' hy (.done w₁) (by rw [List.append_nil]; exact hkept)
      fun now _ => hclock now
    rcases hmain with hfails | ⟨d', hafter, htemplate⟩
    · generalize (next (Direct.handler r c).1).trace Direct.handler (Direct.handler r c).2 = t at hfails hrestarts
      cases hfails <;> cases hrestarts
    · exact ⟨v, v₁, w₁, _, r, next, _, _, _, d, d', sound_store, hr, hs, hconf, hd', hy, hkept, hafter, htemplate⟩

open Reconfigured in
/-- A restart that fails is lost, although the pass succeeds: it is not so that a pass which succeeds, after it has replaced the
configuration that was there, leaves the pods others than they were. -/
theorem restart_lost :
    ¬ ∀ (setup : Setup) (ingress : ManagementIngress) (c : Cluster) (synced : List Synced) (before after : ConfigMap)
      (d d' : Deployment), ((run setup ingress).run Direct.handler c).1 = .ok (.completed synced) →
        object? .configMap Names.config c = some before →
          object? .configMap Names.config ((run setup ingress).run Direct.handler c).2 = some after → after.data ≠ before.data →
            object? .deployment Names.app c = some d →
              object? .deployment Names.app ((run setup ingress).run Direct.handler c).2 = some d' → d'.template ≠ d.template := by
  intro hclaim
  have hcheck : losesRestart ((run Small.setup resource).run Direct.handler faulty) = true := by decide +kernel
  have hbefore : object? .configMap Names.config faulty = some configuration := by
    have hj : faulty.objects.get? (Kind.configMap.keyAt "ns" Names.config) = some (Kind.encode .configMap configuration) := by
      rw [faulty, cluster, Objects.get?_put, if_neg (by decide), Objects.get?_put, if_pos rfl]
    rw [object?, hj, Option.bind_some]
    exact Kind.decode?_encode (k := .configMap) nofun configuration
  have hd : object? .deployment Names.app faulty = some workload := by
    have hj : faulty.objects.get? (Kind.deployment.keyAt "ns" Names.app) = some (Kind.encode .deployment workload) := by
      rw [faulty, cluster, Objects.get?_put, if_pos rfl]
    rw [object?, hj, Option.bind_some]
    exact Kind.decode?_encode (k := .deployment) nofun workload
  have hcounter := hclaim Small.setup resource faulty
  generalize (run Small.setup resource).run Direct.handler faulty = ended at hcheck hcounter
  obtain ⟨result, c⟩ := ended
  rcases result with e | (synced | seconds)
  · cases hcheck
  · simp only [losesRestart, Bool.and_eq_true, Option.any_eq_true] at hcheck
    obtain ⟨⟨after, hafter, hdata⟩, d', hd', htemplate⟩ := hcheck
    refine hcounter synced configuration after workload d' rfl hbefore hafter ?_ hd hd' ?_
    · simpa using hdata
    · simpa using htemplate
  · cases hcheck

end Pass

end IngressOperator
