import IngressOperator.Proofs.Cluster.Even
import IngressOperator.Proofs.Pass.Level

/-!
# Private keys

The private keys in the secrets that a pass waits for reach the console route and nothing else. Of the secret of the service nothing
but certificates is read; the key in that of the route goes into the route if all the rest is there, whatever the key is. Two passes
for which only the keys are others therefore run abreast, but for the update of that route.

## Main statements

* `Pass.private_keys_confined`: what a pass comes to for other private keys.
* `Pass.private_key_drops_members`: what the console route holds besides may depend on whether its key was changed.
-/

namespace IngressOperator

variable {σ : Type} {h : Proc.Handler σ}

/-! ### Secrets -/

namespace Secret

/-- A secret without its private key. -/
def keyless (x : Secret) : Secret := { x with data := x.data.map (·.erase "tls.key") }

/-- Whether a secret is the same as another one but for the private key, and has one if the other does. -/
def Rekeyed (x y : Secret) : Prop := x.keyless = y.keyless ∧ (x.value "tls.key" = [] ↔ y.value "tls.key" = [])

/-- Whether two documents are the same, or related secrets are read from them. -/
inductive Alike (R : Secret → Secret → Prop) : Option Json → Option Json → Prop where
  | same (o : Option Json) : Alike R o o
  | read {j j' : Json} {x y : Secret} (hx : Kind.decode? .secret j = some x) (hy : Kind.decode? .secret j' = some y)
    (hr : R x y) : Alike R (some j) (some j')

/-- Secrets that are the same but for their private keys hold the same besides. -/
theorem value_congr {x y : Secret} (hs : x.keyless = y.keyless) {name : String} (hn : name ≠ "tls.key") :
    x.value name = y.value name := by
  have hvalue (z : Secret) : z.keyless.value name = z.value name := by
    cases hd : z.data with
    | none => simp [value, keyless, hd]
    | some data => simp [value, keyless, hd, SortedMap.get?_erase, hn]
  rw [← hvalue x, ← hvalue y, hs]

/-- They have come if one of them has. -/
theorem Alike.issued? {R : Secret → Secret → Prop} {o o' : Option Json} (ha : Alike R o o') (hR : ∀ x, R x x)
    (hkeyless : ∀ x y, R x y → x.keyless = y.keyless) : Option.Rel R (Steps.issued? o) (Steps.issued? o') := by
  cases ha with
  | same =>
    cases Steps.issued? o with
    | none => exact .none
    | some x => exact .some (hR x)
  | @read j j' x y hx hy hr =>
    have hcertificate : Steps.hasCertificate x = Steps.hasCertificate y := by
      rw [Steps.hasCertificate, Steps.hasCertificate, value_congr (hkeyless x y hr) (by decide)]
    simp only [Steps.issued?, Option.bind_some, hx, hy, Option.filter, hcertificate]
    split
    · exact .some hr
    · exact .none

end Secret

/-! ### Routes -/

namespace Desired

/-- Whether material is the same as other material but for the private key, and has one if the other does. -/
def TlsMaterial.Rekeyed (m m' : TlsMaterial) : Prop :=
  { m with key := "" } = { m' with key := "" } ∧ m.key.isEmpty = m'.key.isEmpty

/-- Of the secret of the service the private key is not used. -/
theorem rekeyed_ofSecrets {route route' service service' : Secret} (hr : route.Rekeyed route')
    (hs : service.keyless = service'.keyless) :
    (TlsMaterial.ofSecrets route service).Rekeyed (TlsMaterial.ofSecrets route' service') := by
  have hempty (bytes : List UInt8) : (Utf8.decode bytes).isEmpty = true ↔ bytes = [] := by
    rw [String.isEmpty_iff, Utf8.decode_eq_empty_iff]
  constructor
  · simp only [TlsMaterial.ofSecrets, Secret.value_congr hr.1 (show "tls.crt" ≠ "tls.key" by decide),
      Secret.value_congr hr.1 (show caKey ≠ "tls.key" by decide), Secret.value_congr hs (show caKey ≠ "tls.key" by decide)]
  · rw [Bool.eq_iff_iff]
    exact (hempty _).trans (hr.2.trans (hempty _).symm)

/-- Routes that are desired for material with other private keys are the same but for these. -/
theorem same_route {b : Blur} (hb : b.key = true) (ns name service host : String) {m m' : Option TlsMaterial}
    (hm : Option.Rel TlsMaterial.Rekeyed m m') :
    b.Same .route (route ns name service host m) (route ns name service host m') := by
  refine (Blur.same_route_iff hb).2 ⟨rfl, ?_⟩
  cases hm with
  | none => rfl
  | @some m m' hr =>
    obtain ⟨hrest, hkey⟩ := hr
    obtain ⟨hcertificate, -, hca, hdestination⟩ := TlsMaterial.mk.inj hrest
    have hcomplete : m.isComplete = m'.isComplete := by
      rw [TlsMaterial.isComplete, TlsMaterial.isComplete, hcertificate, hkey, hca, hdestination]
    cases hc : m'.isComplete with
    | false => simp [Route.keyless, route, routeTls, Option.filter_some, hcomplete, hc]
    | true => simp [Route.keyless, route, routeTls, Option.filter_some, hcomplete, hc, hcertificate, hca, hdestination]

end Desired

/-! ### Views -/

/-- The version is passed over, and of a route the private key. -/
def Blur.privateKey : Blur where
  key := true

/-- Private keys are passed over in the console route and nowhere else. -/
def Blur.console (ns : String) (key : ObjectKey) : Blur :=
  if key = Kind.route.keyAt ns Names.consoleRoute then .privateKey else {}

theorem Blur.console_self (ns : String) : console ns (Kind.route.keyAt ns Names.consoleRoute) = .privateKey := if_pos rfl

theorem Blur.console_key {ns : String} {key : ObjectKey} (hk : key ≠ Kind.route.keyAt ns Names.consoleRoute) :
    (console ns key).key = false := by
  rw [console, if_neg hk]

/-- Runs are compared where the clocks tell the same, whatever is asked for, but for the private key of the console route. -/
abbrev View.keyless (ns : String) (Around : σ → σ → Prop) : View σ := .level (.free fun _ => True) (.console ns) Around

/-- An even store treats alike what is not told apart if an update of the console route leaves the surroundings. -/
theorem ObjectStore.Even.fair_keyless {S : ObjectStore h} {ns : String} {Around : σ → σ → Prop}
    (hE : S.Even (Blur.console ns) Around)
    (hidle : ∀ {x : Route} {s t}, S.Holds s → S.Holds t →
      Kind.objectKey? .route x = some (Kind.route.keyAt ns Names.consoleRoute) → Around s t →
        Around (h (.update .route x) s).2 t ∧ Around s (h (.update .route x) t).2) :
    S.Fair (View.keyless ns Around) := by
  refine hE.fair (fun _ _ _ => trivial) ?_ fun _ _ _ => ⟨trivial, trivial⟩
  intro k x key s t hs ht hkey hb ha
  by_cases hk : key = Kind.route.keyAt ns Names.consoleRoute
  · rw [hk] at hkey
    obtain rfl : Kind.route = k := Kind.name_injective (Kind.of_objectKey? hkey).1
    exact hidle hs ht hkey ha
  · exact absurd ((Blur.console_key hk).symm.trans hb) nofun

/-! ### Steps -/

section

variable {S : ObjectStore h} {ns : String} {Around : σ → σ → Prop} (hF : S.Fair (View.keyless ns Around))
  {ingress : ManagementIngress} {before before' : ObjectKey → Option Json}

include hF

/-- The console route is kept for material with other private keys: the same is done, but for an update. -/
theorem tandem_consoleRoute (host : String) {m m' : Option Desired.TlsMaterial} (hm : Option.Rel Desired.TlsMaterial.Rekeyed m m') :
    Proc.Tandem h (View.keyless ns Around).toPace (S.Aligned (View.keyless ns Around) ingress ns before before')
      (Echoes (Synced.Alike .privateKey .route Names.consoleRoute))
      (ensure ingress .route (Desired.route ns Names.consoleRoute Names.service host m)).run
      (ensure ingress .route (Desired.route ns Names.consoleRoute Names.service host m')).run := by
  have hself : (View.keyless ns Around).blur (Kind.route.keyAt ns Names.consoleRoute) = .privateKey := Blur.console_self ns
  have hb : ((View.keyless ns Around).blur (Kind.route.keyAt ns Names.consoleRoute)).key = true := by
    rw [hself]
    rfl
  have hsame := Desired.same_route hb ns Names.consoleRoute Names.service host hm
  have hsought (m : Option Desired.TlsMaterial) :
      Sought ns .route (Desired.route ns Names.consoleRoute Names.service host m) := sought_route rfl rfl
  have hmem : Kind.route.keyAt ns Names.consoleRoute ∈ ownedKeys ns := by simp [ownedKeys]
  rw [← hself]
  exact tandem_ensure_alike (k := .route) hF (hsought m) (hsought m') rfl hmem hsame fun x y hs =>
    Blur.revision_keyless hb hs (hsame.owned ingress)

variable
  (hservice : Secret.Alike (fun x y : Secret => x.keyless = y.keyless) (before (Kind.secret.keyAt ns Names.serviceSecret))
    (before' (Kind.secret.keyAt ns Names.serviceSecret)))
  (hroute : Secret.Alike Secret.Rekeyed (before (Kind.secret.keyAt ns Names.routeSecret))
    (before' (Kind.secret.keyAt ns Names.routeSecret)))

section

include hservice

/-- The secret of the service is waited for alike. -/
theorem tandem_serviceSecret (wait : WaitPolicy) :
    Proc.Tandem h (View.keyless ns Around).toPace (S.Aligned (View.keyless ns Around) ingress ns before before')
      (Echoes fun x y : Secret => x.keyless = y.keyless) (Steps.awaitSecret wait ns Names.serviceSecret).run
      (Steps.awaitSecret wait ns Names.serviceSecret).run :=
  Steps.tandem_awaitSecret_clocked hF (tlsSecrets_not_mem_ownedKeys ns ns).1 (hservice.issued? (fun _ => rfl) fun _ _ hr => hr) wait
    fun _ _ hn => hn

end

section

include hroute

/-- So is that of the route. -/
theorem tandem_routeSecret (wait : WaitPolicy) :
    Proc.Tandem h (View.keyless ns Around).toPace (S.Aligned (View.keyless ns Around) ingress ns before before')
      (Echoes Secret.Rekeyed) (Steps.awaitSecret wait ns Names.routeSecret).run (Steps.awaitSecret wait ns Names.routeSecret).run :=
  Steps.tandem_awaitSecret_clocked hF (tlsSecrets_not_mem_ownedKeys ns ns).2
    (hroute.issued? (fun _ => ⟨rfl, Iff.rfl⟩) fun _ _ hr => hr.1) wait fun _ _ hn => hn

/-- The certificates of the console route are the same but for the private key. -/
theorem tandem_routeMaterial (wait : WaitPolicy) {x y : Secret} (hs : x.keyless = y.keyless) :
    Proc.Tandem h (View.keyless ns Around).toPace (S.Aligned (View.keyless ns Around) ingress ns before before')
      (Echoes fun m m' => Option.Rel Desired.TlsMaterial.Rekeyed m.1 m'.1 ∧ m.2.keyless = m'.2.keyless)
      (Steps.routeMaterial ingress wait ns x).run (Steps.routeMaterial ingress wait ns y).run := by
  unfold Steps.routeMaterial
  split
  · exact Proc.Tandem.done (.ok ⟨.none, hs⟩)
  · exact (tandem_routeSecret hF hroute wait).action_map fun _ _ hr => ⟨.some (Desired.rekeyed_ofSecrets hr hs), hr.1⟩

end

/-- The same authority is published. -/
theorem tandem_clusterCa {x y : Secret} (hs : x.keyless = y.keyless) :
    Proc.Tandem h (View.keyless ns Around).toPace (S.Aligned (View.keyless ns Around) ingress ns before before') (Echoes Eq)
      (Steps.clusterCa ingress ns x).run (Steps.clusterCa ingress ns y).run := by
  have hne : Kind.secret.keyAt ns Names.clusterCa ≠ Kind.route.keyAt ns Names.consoleRoute := by simp [Kind.keyAt_inj]
  have hmem : Kind.secret.keyAt ns Names.clusterCa ∈ ownedKeys ns := by simp [ownedKeys]
  rw [Steps.clusterCa, Steps.clusterCa, Secret.value_congr hs (show Desired.caKey ≠ "tls.key" by decide)]
  exact (tandem_ensure (k := .secret) hF (sought_clusterCa ns _) rfl hmem (Blur.console_key hne)).echoes

/-- The authority and the routes are published alike. -/
theorem tandem_publish (host proxyHost : String) {m m' : Option Desired.TlsMaterial}
    (hm : Option.Rel Desired.TlsMaterial.Rekeyed m m') {x y : Secret} (hs : x.keyless = y.keyless) :
    Proc.Tandem h (View.keyless ns Around).toPace (S.Aligned (View.keyless ns Around) ingress ns before before')
      (Echoes (List.Forall₂ (Synced.Alike .privateKey .route Names.consoleRoute)))
      (Steps.publish ingress ns host proxyHost m x).run (Steps.publish ingress ns host proxyHost m' y).run := by
  have hne : Kind.route.keyAt ns Names.proxyRoute ≠ Kind.route.keyAt ns Names.consoleRoute := by
    simp [Kind.keyAt_inj, Names.proxyRoute, Names.consoleRoute]
  have hmem : Kind.route.keyAt ns Names.proxyRoute ∈ ownedKeys ns := by simp [ownedKeys]
  have hproxy : Proc.Tandem h (View.keyless ns Around).toPace (S.Aligned (View.keyless ns Around) ingress ns before before') Eq
      (ensureCreated ingress .route (Desired.route ns Names.proxyRoute Names.proxyService proxyHost none)).run
      (ensureCreated ingress .route (Desired.route ns Names.proxyRoute Names.proxyService proxyHost none)).run :=
    tandem_ensureCreated (k := .route) hF rfl hmem (Blur.console_key hne)
  refine (tandem_clusterCa hF hs).action fun ca _ hca => ?_
  refine (tandem_consoleRoute hF host hm).action fun console console' hconsole => ?_
  exact hproxy.echoes.action_map fun proxy _ hproxy => .cons (.inl hca) (.cons hconsole (.cons (.inl hproxy) .nil))

include hservice hroute

/-- The routes are kept alike. -/
theorem tandem_routes (wait : WaitPolicy) (host proxyHost : String) :
    Proc.Tandem h (View.keyless ns Around).toPace (S.Aligned (View.keyless ns Around) ingress ns before before')
      (Echoes (List.Forall₂ (Synced.Alike .privateKey .route Names.consoleRoute)))
      (Steps.routes ingress wait ns host proxyHost).run (Steps.routes ingress wait ns host proxyHost).run := by
  refine (tandem_serviceSecret hF hservice wait).action fun x y hs => ?_
  exact (tandem_routeMaterial hF hroute wait hs).action fun m m' hm => tandem_publish hF host proxyHost hm.1 hm.2

/-- So is the authority on a cluster without routes. -/
theorem tandem_clusterCaOnly (wait : WaitPolicy) :
    Proc.Tandem h (View.keyless ns Around).toPace (S.Aligned (View.keyless ns Around) ingress ns before before')
      (Echoes (List.Forall₂ (Synced.Alike .privateKey .route Names.consoleRoute)))
      (Steps.clusterCaOnly ingress wait ns).run (Steps.clusterCaOnly ingress wait ns).run := by
  have hawait : Proc.Tandem h (View.keyless ns Around).toPace (S.Aligned (View.keyless ns Around) ingress ns before before')
      (Echoes fun x y : Secret => x.keyless = y.keyless)
      (Steps.awaitSecret wait ns (if ingress.spec.ignoreRouteCert then Names.serviceSecret else Names.routeSecret)).run
      (Steps.awaitSecret wait ns (if ingress.spec.ignoreRouteCert then Names.serviceSecret else Names.routeSecret)).run := by
    split
    · exact tandem_serviceSecret hF hservice wait
    · exact (tandem_routeSecret hF hroute wait).imp fun _ _ he => he.imp fun _ _ hr => hr.1
  refine hawait.action fun x y hs => ?_
  exact (tandem_clusterCa hF hs).action_map fun ca _ hca => .cons (.inl hca) .nil

/-- A step of a pass runs abreast of itself for other private keys: the same is done, but for an update of the console route. -/
theorem Pass.tandem_runStep_keyless (setup : Setup) (host : String) (base : Option String) {step : Step}
    (hm : step ∈ setup.steps) :
    Proc.Tandem h (View.keyless ns Around).toPace (S.Aligned (View.keyless ns Around) ingress ns before before')
      (Echoes fun x y => List.Forall₂ (Synced.Alike .privateKey .route Names.consoleRoute) x.1 y.1 ∧ x.2 = y.2)
      ((runStep setup ingress ns host step).run base).run ((runStep setup ingress ns host step).run base).run := by
  by_cases hr : step = .routes
  · subst hr
    refine ((tandem_inquires hF).baseDomain trivial base).echoes.action ?_
    rintro ⟨domain, base⟩ _ rfl
    exact (tandem_routes hF hservice hroute _ _ _).action_map fun _ _ hl => ⟨hl, rfl⟩
  · by_cases hc : step = .clusterCa
    · subst hc
      exact (tandem_clusterCaOnly hF hservice hroute _).action_map fun _ _ hl => ⟨hl, rfl⟩
    · -- none of the other steps goes by a secret
      have hunits : Units [step] True ingress ns fun p =>
          Proc.Tandem h (View.keyless ns Around).toPace (S.Aligned (View.keyless ns Around) ingress ns before before') Eq p p := by
        refine units_tandem hF (fun hstep hkey => Blur.console_key ?_) fun hsecrets => ?_
        · rintro hconsole
          rw [List.mem_singleton.1 hstep, hconsole] at hkey
          exact hr (Step.eq_routes hkey)
        · rcases hsecrets with hs | hs
          · exact absurd (List.mem_singleton.1 hs).symm hr
          · exact absurd (List.mem_singleton.1 hs).symm hc
      refine (hunits.runStep host List.mem_cons_self (fun _ => trivial) base).imp fun x _ hxy => ?_
      rw [← hxy]
      exact (echoes_same x).imp fun a b hab => ⟨hab.1.imp fun _ _ h => .inl h, hab.2⟩

end

/-! ### Passes -/

/-- Objects that are the same but for their versions are written as such documents. -/
theorem Blur.Same.sameButVersion {k : Kind} {x y : k.Object} (hs : Blur.Same {} k x y) :
    SameButVersion (some (k.encode x)) (some (k.encode y)) := by
  have hcontent (z : k.Object) : Blur.content {} k z = z := by
    cases k <;> rfl
  simp only [SameButVersion, Option.map_some, Cluster.withVersion_encode, Kind.withVersion]
  rw [hs.filled hcontent (fun m => { m with resourceVersion := some "" }) fun _ => rfl]

theorem Blur.Matches.sameButVersion {k : Kind} {o o' : Option Json} (hm : Blur.Matches {} k o o') : SameButVersion o o' := by
  cases hm with
  | same => rfl
  | written hs => exact hs.sameButVersion
  | read hb => exact absurd hb nofun

/-- Private keys reach only the console route.

Two passes for which nothing but the private keys in the secrets of the service and of the route are others end in the same way, with
the same failure or with the same accounts but for an update of the console route on one side, and take as long. Every other object
is left the same but for its version, the custom resource and its status included, the two secrets are left as they were, and what
the console routes are read as is the same but for version and private key. -/
theorem Pass.private_keys_confined (S : ObjectStore h) {Around : σ → σ → Prop} (setup : Setup) {ingress : ManagementIngress}
    {ns : String} (hns : ingress.metadata.ns = some ns) (heven : S.Even (Blur.console ns) Around)
    (hidle : ∀ {x : Route} {s t}, S.Holds s → S.Holds t →
      Kind.objectKey? .route x = some (Kind.route.keyAt ns Names.consoleRoute) → Around s t →
        Around (h (.update .route x) s).2 t ∧ Around s (h (.update .route x) t).2)
    {s t s' t' : σ} {a b : Except PassFailure PassOutcome} {x y : List Exchange} (hs : S.Holds s) (ht : S.Holds t)
    (haround : Around s t)
    (hservice : Secret.Alike (fun x y : Secret => x.keyless = y.keyless) (S.stored s (Kind.secret.keyAt ns Names.serviceSecret))
      (S.stored t (Kind.secret.keyAt ns Names.serviceSecret)))
    (hroute : Secret.Alike Secret.Rekeyed (S.stored s (Kind.secret.keyAt ns Names.routeSecret))
      (S.stored t (Kind.secret.keyAt ns Names.routeSecret)))
    (hrest : ∀ key, key ≠ Kind.secret.keyAt ns Names.serviceSecret → key ≠ Kind.secret.keyAt ns Names.routeSecret →
      S.stored s key = S.stored t key)
    (hg : (run setup ingress).Goes h s a x s') (hg' : (run setup ingress).Goes h t b y t') :
    SameEnd (Synced.Alike .privateKey .route Names.consoleRoute) a b ∧ Around s' t' ∧ (h .now s').1 = (h .now t').1 ∧
      (∀ key, key ≠ Kind.secret.keyAt ns Names.serviceSecret → key ≠ Kind.secret.keyAt ns Names.routeSecret →
        key ≠ Kind.route.keyAt ns Names.consoleRoute → SameButVersion (S.stored s' key) (S.stored t' key)) ∧
      (∀ key ∈ [Kind.secret.keyAt ns Names.serviceSecret, Kind.secret.keyAt ns Names.routeSecret],
        S.stored s' key = S.stored s key ∧ S.stored t' key = S.stored t key) ∧
      Blur.privateKey.Matches .route (S.stored s' (Kind.route.keyAt ns Names.consoleRoute))
        (S.stored t' (Kind.route.keyAt ns Names.consoleRoute)) := by
  have hF := heven.fair_keyless hidle
  have hsecrets := tlsSecrets_not_mem_ownedKeys ns ns
  have hagree {k : Kind} (hk : k ≠ .secret) {key : ObjectKey} (hkind : key.kind = k.name) : S.stored s key = S.stored t key := by
    have hsecret (name : String) : key ≠ Kind.secret.keyAt ns name := by
      rintro rfl
      exact hk (Kind.name_injective (show Kind.secret.name = k.name from hkind)).symm
    exact hrest key (hsecret _) (hsecret _)
  have hcustom (key : ObjectKey) (hkey : Kind.objectKey? .managementIngress ingress = some key) :
      SameButVersion (S.stored s key) (S.stored t key) := by
    rw [hagree (k := .managementIngress) nofun (Kind.of_objectKey? hkey).1]
    rfl
  have hstart := ObjectStore.aligned_start (V := View.keyless ns Around) hs ht haround
    (fun key hm => hrest key (fun he => hsecrets.1 (he ▸ hm)) fun he => hsecrets.2 (he ▸ hm)) hcustom
  have hpods (u v : σ) (hi : S.Aligned (View.keyless ns Around) ingress ns (S.stored s) (S.stored t) u v) :
      (h (.list .pod ns s!"app={Names.app}") u).1 = (h (.list .pod ns s!"app={Names.app}") v).1 :=
    S.list u v .pod ns _ hi.holds hi.holds' fun key hk => hi.pod hk (hagree (k := .pod) nofun hk)
  have hsides := sides_level heven hF hpods fun host base step hm =>
    tandem_runStep_keyless hF hservice hroute setup host base hm
  obtain ⟨⟨hend, hi⟩, -⟩ := hsides.run hns (.refl fun _ _ _ _ _ => rfl) s t hstart a x s' hg b y t' hg' (fun _ _ => trivial)
    fun _ _ => trivial
  refine ⟨hend, hi.around, heven.now hi.holds hi.holds' hi.around, ?_, ?_, ?_⟩
  · intro key hservice hroute hconsole
    by_cases howned : key ∈ ownedKeys ns
    · obtain ⟨k, name, rfl⟩ := exists_of_mem_ownedKeys howned
      have hmatches := hi.owned howned
      rw [show (View.keyless ns Around).blur (k.kind.keyAt ns name) = {} from if_neg hconsole] at hmatches
      exact hmatches.sameButVersion
    · by_cases hkey : Kind.objectKey? .managementIngress ingress = some key
      · exact hi.custom hkey
      · obtain ⟨hafter, hafter'⟩ := hi.rest howned hkey
        rw [hafter, hafter', hrest key hservice hroute]
        rfl
  · intro key hm
    rcases List.mem_pair.1 hm with rfl | rfl
    · exact hi.secret hsecrets.1
    · exact hi.secret hsecrets.2
  · have hmatches := hi.owned (k := .route) (show Kind.route.keyAt ns Names.consoleRoute ∈ ownedKeys ns by simp [ownedKeys])
    rwa [show (View.keyless ns Around).blur _ = .privateKey from Blur.console_self ns] at hmatches

/-! ### Two private keys -/

namespace Cluster.Rekeyed

/-- A custom resource whose route has a certificate of its own. -/
def ingress : ManagementIngress where
  metadata := { name := some "default", ns := some "ns", resourceVersion := some "1", uid := some "u" }
  spec := { image := { repository := "icr.io/op", tag := "1" }, routeHost := "console.example.com" }

/-- What a pass for it depends on. -/
def setup : Setup := { certificatesServed := false }

/-- The secret of the route, with a private key. -/
def secret (key : List UInt8) : Secret where
  metadata := { name := some Names.routeSecret, ns := some "ns", resourceVersion := some "3" }
  data := some (.ofList [("tls.crt", ⟨[97]⟩), ("tls.key", ⟨key⟩), ("ca.crt", ⟨[98]⟩)])

/-- The console route as it is desired for the key `k`. -/
def route : Route :=
  Kind.withVersion .route
    (owned ingress .route
      (Desired.route "ns" Names.consoleRoute Names.service "console.example.com" (some (.ofSecrets (secret [107]) Small.secret))))
    "4"

/-- Its document, with a certificate that is kept elsewhere, which the operator knows nothing of. -/
def document : Json :=
  (Kind.encode .route route).set "spec"
    ((Wire.encode route.spec).set "tls"
      ((Wire.encode (route.spec.tls.getD {})).set "externalCertificate" (.obj [("name", .str "console-cert")])))

/-- A cluster with all of that. -/
def cluster (key : List UInt8) : Cluster where
  objects := ((((∅ : Objects).put (Kind.managementIngress.keyAt "ns" "default") (Kind.encode .managementIngress ingress)).put
    (Kind.secret.keyAt "ns" Names.serviceSecret) (Kind.encode .secret Small.secret)).put
    (Kind.route.keyAt "ns" Names.consoleRoute) document).put
    (Kind.secret.keyAt "ns" Names.routeSecret) (Kind.encode .secret (secret key))
  version := 4
  now := Small.cluster.now
  facts := Rerouted.facts

theorem calm (key : List UInt8) : (cluster key).Calm Rerouted.facts := by
  have hingress : Filed (Kind.managementIngress.keyAt "ns" "default") (Kind.encode .managementIngress ingress) :=
    filed_encode rfl rfl rfl
  have hservice : Filed (Kind.secret.keyAt "ns" Names.serviceSecret) (Kind.encode .secret Small.secret) := filed_encode rfl rfl rfl
  have hconsole : Filed (Kind.route.keyAt "ns" Names.consoleRoute) document := ⟨rfl, rfl, "4", rfl⟩
  have hroute : Filed (Kind.secret.keyAt "ns" Names.routeSecret) (Kind.encode .secret (secret key)) := filed_encode rfl rfl rfl
  have hempty : Calm {} { now := Small.cluster.now } := ⟨rfl, rfl, rfl, rfl, nofun⟩
  exact (((hempty.put hingress 1 {}).put hservice 2 {}).put hconsole 3 {}).put hroute 4 Rerouted.facts

/-- The clusters differ in the secret of the route alone. -/
theorem get?_cluster (key key' : List UInt8) {k : ObjectKey} (hk : k ≠ Kind.secret.keyAt "ns" Names.routeSecret) :
    (cluster key).objects.get? k = (cluster key').objects.get? k :=
  (Objects.get?_put.trans (if_neg hk)).trans (Objects.get?_put.trans (if_neg hk)).symm

/-- Of the secrets of the route the private keys are others. -/
theorem alike_secret {R : Secret → Secret → Prop} {key key' : List UInt8} (hr : R (secret key) (secret key')) :
    Secret.Alike R ((cluster key).objects.get? (Kind.secret.keyAt "ns" Names.routeSecret))
      ((cluster key').objects.get? (Kind.secret.keyAt "ns" Names.routeSecret)) := by
  have hstored (key : List UInt8) : (cluster key).objects.get? (Kind.secret.keyAt "ns" Names.routeSecret) =
      some (Kind.encode .secret (secret key)) := Objects.get?_put.trans (if_pos rfl)
  rw [hstored, hstored]
  exact .read (Kind.decode?_encode (k := .secret) nofun _) (Kind.decode?_encode (k := .secret) nofun _) hr

end Cluster.Rekeyed

namespace Pass

open Cluster

/-- The passes for the key with which the route is there and for another one. -/
theorem rekeyed_passes_confined :
    SameEnd (Synced.Alike .privateKey .route Names.consoleRoute)
        ((run Rekeyed.setup Rekeyed.ingress).run Direct.handler (Rekeyed.cluster [107])).1
        ((run Rekeyed.setup Rekeyed.ingress).run Direct.handler (Rekeyed.cluster [108])).1 ∧
      ((run Rekeyed.setup Rekeyed.ingress).run Direct.handler (Rekeyed.cluster [107])).2.now =
        ((run Rekeyed.setup Rekeyed.ingress).run Direct.handler (Rekeyed.cluster [108])).2.now ∧
      Blur.privateKey.Matches .route
        (((run Rekeyed.setup Rekeyed.ingress).run Direct.handler (Rekeyed.cluster [107])).2.objects.get?
          (Kind.route.keyAt "ns" Names.consoleRoute))
        (((run Rekeyed.setup Rekeyed.ingress).run Direct.handler (Rekeyed.cluster [108])).2.objects.get?
          (Kind.route.keyAt "ns" Names.consoleRoute)) := by
  have hns : Rekeyed.ingress.metadata.ns = some "ns" := rfl
  have hblur (key : ObjectKey) : (Blur.console "ns" key).given = false := by
    unfold Blur.console
    split <;> rfl
  have hkeyless : (Rekeyed.secret [107]).keyless = (Rekeyed.secret [108]).keyless := by decide +kernel
  have hservice : Secret.Alike (fun x y : Secret => x.keyless = y.keyless)
      ((Rekeyed.cluster [107]).objects.get? (Kind.secret.keyAt "ns" Names.serviceSecret))
      ((Rekeyed.cluster [108]).objects.get? (Kind.secret.keyAt "ns" Names.serviceSecret)) := by
    rw [Rekeyed.get?_cluster [107] [108] (by decide)]
    exact .same _
  obtain ⟨hend, hnow, -, -, -, hconsole⟩ := private_keys_confined (Direct.store Rerouted.facts) Rekeyed.setup hns
    (Direct.even_store Rerouted.facts hblur)
    (fun hs ht _ hn => ⟨(Direct.now_handler hs (by simp)).trans hn, hn.trans (Direct.now_handler ht (by simp)).symm⟩)
    (Rekeyed.calm [107]) (Rekeyed.calm [108]) rfl hservice (Rekeyed.alike_secret ⟨hkeyless, by decide⟩)
    (fun _ _ hk => Rekeyed.get?_cluster _ _ hk) (Proc.Goes.of_run _ _ _) (Proc.Goes.of_run _ _ _)
  exact ⟨hend, hnow, hconsole⟩

/-- What the console route holds besides may depend on whether its key was changed. -/
theorem private_key_drops_members :
    ¬ ∀ (setup : Setup) (ingress : ManagementIngress) (facts : ClusterFacts) (c d : Cluster) (ns : String) (j j' : Json),
        c.Calm facts → d.Calm facts → ingress.metadata.ns = some ns → c.now = d.now →
          Secret.Alike (fun x y => x.keyless = y.keyless ∧ x.value "tls.key" ≠ [] ∧ y.value "tls.key" ≠ [])
            (c.objects.get? (Kind.secret.keyAt ns Names.routeSecret)) (d.objects.get? (Kind.secret.keyAt ns Names.routeSecret)) →
          (∀ key, key ≠ Kind.secret.keyAt ns Names.routeSecret → c.objects.get? key = d.objects.get? key) →
          ((run setup ingress).run Direct.handler c).2.objects.get? (Kind.route.keyAt ns Names.consoleRoute) = some j →
          ((run setup ingress).run Direct.handler d).2.objects.get? (Kind.route.keyAt ns Names.consoleRoute) = some j' →
            ∀ name, name ≠ "key" → j.path? ["spec", "tls", name] = j'.path? ["spec", "tls", name] := by
  intro hclaim
  have hkept : (((run Rekeyed.setup Rekeyed.ingress).run Direct.handler (Rekeyed.cluster [107])).2.objects.get?
      (Kind.route.keyAt "ns" Names.consoleRoute)).map (fun j => (j.path? ["spec", "tls", "externalCertificate"]).isSome) =
        some true := by
    decide +kernel
  have hlost : (((run Rekeyed.setup Rekeyed.ingress).run Direct.handler (Rekeyed.cluster [108])).2.objects.get?
      (Kind.route.keyAt "ns" Names.consoleRoute)).map (fun j => (j.path? ["spec", "tls", "externalCertificate"]).isSome) =
        some false := by
    decide +kernel
  have hkeyless : (Rekeyed.secret [107]).keyless = (Rekeyed.secret [108]).keyless := by decide +kernel
  obtain ⟨j, hj, hsome⟩ := Option.map_eq_some_iff.1 hkept
  obtain ⟨j', hj', hnone⟩ := Option.map_eq_some_iff.1 hlost
  have hsame := hclaim Rekeyed.setup Rekeyed.ingress Rerouted.facts (Rekeyed.cluster [107]) (Rekeyed.cluster [108]) "ns" j j'
    (Rekeyed.calm _) (Rekeyed.calm _) rfl rfl (Rekeyed.alike_secret ⟨hkeyless, by decide, by decide⟩)
    (fun _ hk => Rekeyed.get?_cluster _ _ hk) hj hj' "externalCertificate" (by decide)
  rw [hsame, hnone] at hsome
  cases hsome

end Pass

end IngressOperator
