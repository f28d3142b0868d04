import IngressOperator.Proofs.Pass.Abreast
import IngressOperator.Proofs.Steps.Abreast

/-!
# Passes whose clocks tell the same

A store is even if it treats alike what is the same but for what is passed over: it leaves the same surroundings, completes what is
created alike, and answers reports alike. On an even store a pass runs abreast of itself where the clocks and what the cluster is
like are the same; then it takes as long on both sides.

## Main statements

* `ObjectStore.Even.fair`: an even store treats alike what is not told apart.
* `Pass.sides_level`: a pass whose steps run abreast does so.
-/

namespace IngressOperator

variable {σ : Type} {h : Proc.Handler σ}

/-! ### Even stores -/

/-- Whether two documents are the same but for their versions. -/
def SameButVersion (o o' : Option Json) : Prop :=
  o.map (Cluster.withMeta "resourceVersion" "") = o'.map (Cluster.withMeta "resourceVersion" "")

/-- A store that treats alike what is the same but for what is passed over, in surroundings that count as the same. -/
structure ObjectStore.Even (S : ObjectStore h) (blur : ObjectKey → Blur) (Around : σ → σ → Prop) : Prop where
  /-- Requests that are alike leave surroundings that count as the same. -/
  around : ∀ {r r' s t}, Request.Alike blur r r' → S.Holds s → S.Holds t → Around s t → Around (h r s).2 (h r' t).2
  /-- The cluster tells the same of itself. -/
  discovers : ∀ {r s t}, S.Holds s → S.Holds t → r.Discovers → Around s t → (h r s).1 = (h r t).1
  /-- The clock tells the same. -/
  now : ∀ {s t}, S.Holds s → S.Holds t → Around s t → (h .now s).1 = (h .now t).1
  created : S.CompletesAlike blur Around
  /-- A report about a custom resource that is the same but for its version is answered the same, and leaves such again. -/
  reported : ∀ {ingress status s t}, S.Holds s → S.Holds t → Around s t →
    (∀ key, Kind.objectKey? .managementIngress ingress = some key → SameButVersion (S.stored s key) (S.stored t key)) →
      (h (.updateStatus ingress status) s).1 = (h (.updateStatus ingress status) t).1 ∧
        ∀ key, Kind.objectKey? .managementIngress ingress = some key →
          SameButVersion (S.stored (h (.updateStatus ingress status) s).2 key)
            (S.stored (h (.updateStatus ingress status) t).2 key)

/-- Runs are compared in surroundings that count as the same; the custom resource counts as the same but for its version. -/
def View.level (P : Pace) (blur : ObjectKey → Blur) (Around : σ → σ → Prop) : View σ where
  toPace := P
  blur := blur
  Around := Around
  Clock := Eq
  Custom := SameButVersion

/-- An even store treats alike what is not told apart, if what may be left out leaves the surroundings. -/
theorem ObjectStore.Even.fair {S : ObjectStore h} {P : Pace} {blur : ObjectKey → Blur} {Around : σ → σ → Prop}
    (hE : S.Even blur Around) (hfollows : ∀ {r r'}, Request.Alike blur r r' → ∀ a a', P.Follows [⟨r, a⟩] [⟨r', a'⟩])
    (hskips : ∀ {k : Kind} {x : k.Object} {key s t}, S.Holds s → S.Holds t → k.objectKey? x = some key → (blur key).key = true →
      Around s t → Around (h (.update k x) s).2 t ∧ Around s (h (.update k x) t).2)
    (hskipped : ∀ {k : Kind} {x : k.Object} {key}, k.objectKey? x = some key → (blur key).key = true →
      ∀ a, P.Follows [⟨.update k x, a⟩] [] ∧ P.Follows [] [⟨.update k x, a⟩]) : S.Fair (View.level P blur Around) where
  around := hE.around
  follows := hfollows
  created := hE.created
  skips := hskips
  skipped := hskipped
  discovers := hE.discovers
  now hs ht ha _ _ := hE.now hs ht ha
  noted _ := .inr fun _ _ hn => hn

/-! ### Passes -/

section

variable {S : ObjectStore h} {P : Pace} {blur : ObjectKey → Blur} {Around : σ → σ → Prop} (hE : S.Even blur Around)
  (hF : S.Fair (View.level P blur Around)) {setup : Setup} {ingress : ManagementIngress} {ns : String}
  {before before' : ObjectKey → Option Json}

include hE hF

/-- A report is made on both sides, and leaves the custom resource the same but for its version. -/
theorem tandem_writeStatus (written status : IngressStatus) :
    Proc.Tandem h P (S.Aligned (View.level P blur Around) ingress ns before before')
      (fun a b => (a = .ok status ∧ b = .ok status) ∨ ∃ e, a = .error e ∧ b = .error e)
      (Pass.writeStatus ingress written status).run (Pass.writeStatus ingress written status).run := by
  by_cases hne : written = status
  · rw [hne, Pass.writeStatus_self]
    exact Proc.Tandem.done (.inl ⟨rfl, rfl⟩)
  · have hreport : Proc.Tandem h P (S.Aligned (View.level P blur Around) ingress ns before before') Eq
        (Proc.request (.updateStatus ingress status)) (Proc.request (.updateStatus ingress status)) := by
      refine Proc.Abreast.request fun s t hi _ _ => ?_
      obtain ⟨ha, hcustom⟩ : (h (.updateStatus ingress status) s).1 = (h (.updateStatus ingress status) t).1 ∧ _ :=
        hE.reported hi.holds hi.holds' hi.around fun key hkey => hi.custom hkey
      have haround := hF.around (.same (.updateStatus ingress status)) hi.holds hi.holds' hi.around
      refine ⟨⟨ha, ?_⟩, hF.follows (.same (.updateStatus ingress status)) _ _⟩
      exact hi.report (ingress.apart_ownedKeys ns) (S.holds _ s hi.holds) (S.holds _ t hi.holds') rfl haround
        (fun key hkey => S.frame _ s key hi.holds hkey) (fun key hkey => S.frame _ t key hi.holds' hkey) hcustom
    rw [Pass.run_writeStatus_of_ne hne]
    refine Proc.Tandem.bind (p := Proc.request _) hreport ?_
    rintro a _ rfl
    cases a with
    | ok _ => exact Proc.Tandem.done (.inl ⟨rfl, rfl⟩)
    | error e => exact Proc.Tandem.done (.inr ⟨e, rfl, rfl⟩)

/-- A pass whose steps run abreast does so, if the same pods are listed. -/
theorem Pass.sides_level {A : Synced → Synced → Prop}
    (hpods : ∀ s t, S.Aligned (View.level P blur Around) ingress ns before before' s t →
      (h (.list .pod ns s!"app={Names.app}") s).1 = (h (.list .pod ns s!"app={Names.app}") t).1)
    (hsteps : ∀ host base, ∀ step ∈ setup.steps,
      Proc.Tandem h P (S.Aligned (View.level P blur Around) ingress ns before before')
        (Echoes fun x y => List.Forall₂ A x.1 y.1 ∧ x.2 = y.2) ((runStep setup ingress ns host step).run base).run
        ((runStep setup ingress ns host step).run base).run) :
    Sides h P Eq (fun _ _ => S.Aligned (View.level P blur Around) ingress ns before before') A
      (S.Aligned (View.level P blur Around) ingress ns before before') setup ingress ns := by
  refine
    { legacy := fun _ _ => tandem_removeLegacy hF
      resolve := fun _ _ => (tandem_inquires hF).resolveHost setup (fun _ => trivial) none
      step := fun _ _ => hsteps
      now := fun _ _ => tandem_now hF
      pods := fun _ _ => tandem_look hF rfl fun s t hi _ _ => hpods s t hi
      write := ?_
      ends := fun _ _ _ _ hi => hi }
  intro w w' s s' hw hs
  rw [hw.eq, hs.eq]
  refine (tandem_writeStatus hE hF w' s').mono (fun _ _ hi => hi) ?_
  rintro a b u v ⟨⟨rfl, rfl⟩ | ⟨e, rfl, rfl⟩, hi⟩
  · exact .inl ⟨rfl, rfl, hi⟩
  · exact .inr ⟨e, rfl, rfl, hi⟩

end

end IngressOperator
