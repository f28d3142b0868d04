import IngressOperator.Proofs.Steps.Parts
import IngressOperator.Proofs.Store.Served

/-!
# The note of the time of a change

The pods of the operand carry a note of the time at which their configuration changed last. Nothing that a pass is made of takes
the note away: it stays as it is, or gives way to that of a time which was just read, as long as the deployment is not deleted.

## Main statements

* `note?_stamped`: noting a time leaves its note.
* `template_stamped_eq_iff`: noting a time replaces the pods unless they carry its note already.
* `keepsNote_whole`: whatever calls fail, the parts of a pass keep the note, or leave one of a time that they read.
-/

namespace IngressOperator

open SharedStore

/-! ### Notes -/

/-- The template of the pods of a deployment; one that it lacks counts as an empty one. -/
def Deployment.template (d : Deployment) : PodTemplate := (d.spec.getD {}).template

/-- The note of the time of a change that pods carry. -/
def PodTemplate.note? (t : PodTemplate) : Option String :=
  (t.metadata.bind Meta.annotations).bind fun annotations => annotations.get? Names.configUpdated

/-- Noting a time leaves its note. -/
theorem note?_stamped (d : Deployment) (now : Instant) :
    (Steps.stamped d now).template.note? = some (Rfc2822.encode now) := by
  simp [Steps.stamped, Deployment.template, PodTemplate.note?]

/-- Noting a time leaves the pods as they are exactly if they carry its note already: a second change within the second of the one
that was noted last does not replace them. -/
theorem template_stamped_eq_iff {d : Deployment} {now : Instant} :
    (Steps.stamped d now).template = d.template ↔ d.template.note? = some (Rfc2822.encode now) := by
  constructor
  · intro h
    rw [← h, note?_stamped]
  · intro h
    obtain ⟨annotations, hm, hn⟩ := Option.bind_eq_some_iff.1 h
    obtain ⟨metadata, hmetadata, hannotations⟩ := Option.bind_eq_some_iff.1 hm
    unfold Deployment.template at hmetadata
    -- the note stands in annotations that are there, so that none is put around it
    have hsame : (⟨some { metadata with annotations := some annotations }, d.template.spec⟩ : PodTemplate) = d.template := by
      rw [← hannotations]
      exact congrArg (PodTemplate.mk · d.template.spec) hmetadata.symm
    simp only [Steps.stamped, hmetadata, hannotations, Option.getD_some, SortedMap.insert_eq_self hn]
    exact hsame

/-- Bringing a deployment to the desired one leaves the metadata of its pods. -/
theorem metadata_template_merged (live desired : Deployment) :
    (Drift.deployment live desired).merged.template.metadata = live.template.metadata := by
  unfold Drift.deployment
  cases desired.spec with
  | none => rfl
  | some want =>
    dsimp only
    cases want.template.spec <;> rfl

/-- What is written over a deployment to bring it to the desired one carries the same note. -/
theorem note?_revision {desired live x : Deployment} (hx : revision .deployment desired live = some x) :
    x.template.note? = live.template.note? := by
  obtain ⟨refs, ha⟩ := adopted_eq .deployment (Drift.deployment live desired).merged desired
  have hsame : x = Kind.withMetadata .deployment (Drift.deployment live desired).merged
      { Kind.metadata .deployment (Drift.deployment live desired).merged with ownerReferences := refs } :=
    (revision_eq_some hx).trans ha
  have htemplate : x.template = (Drift.deployment live desired).merged.template := by
    rw [hsame]
    rfl
  rw [htemplate, PodTemplate.note?, metadata_template_merged, PodTemplate.note?]

/-- What takes over owners carries the same note. -/
theorem note?_adoption {desired live x : Deployment} (hx : adoption .deployment desired live = some x) :
    x.template.note? = live.template.note? := by
  unfold adoption adopted at hx
  split at hx
  · cases hx
    rfl
  · cases hx

/-! ### The stored deployment -/

/-- The deployment of the operand that is stored in a namespace, if there is one and it can be read. -/
def SharedStore.operand? (w : SharedStore) (ns : String) : Option Deployment :=
  (w.stored (Kind.deployment.keyAt ns Names.app)).bind (Kind.decode? .deployment)

theorem operand?_put (w : SharedStore) (ns version : String) (d : Deployment) :
    (w.put (Kind.deployment.keyAt ns Names.app) version (Kind.encode .deployment d)).operand? ns = some d := by
  have hd : Kind.deployment ≠ .managementIngress := nofun
  rw [operand?, stored_put_self, Option.bind_some, Kind.decode?_encode hd]

theorem operand?_congr {w w' : SharedStore} {ns : String}
    (h : w'.stored (Kind.deployment.keyAt ns Names.app) = w.stored (Kind.deployment.keyAt ns Names.app)) :
    w'.operand? ns = w.operand? ns := by
  rw [operand?, h, operand?]

/-- Whether the deployment of the operand was deleted in some exchanges. -/
def Removed (ns : String) (t : List Exchange) : Prop := (⟨.delete .deployment ns Names.app, .ok ()⟩ : Exchange) ∈ t

/-- Whether the pods of a deployment carry the note of a time that was read in some exchanges. -/
def Notes (t : List Exchange) (d : Deployment) : Prop :=
  ∃ now : Instant, (⟨.now, now⟩ : Exchange) ∈ t ∧ d.template.note? = some (Rfc2822.encode now)

/-- Whether the deployment that is stored keeps its note through some exchanges, or gets that of a time which was read in them,
unless it is deleted. -/
def KeepsNote (ns : String) (w : SharedStore) (t : List Exchange) (w' : SharedStore) : Prop :=
  w.Sound → w'.Sound ∧ ∀ d, w.operand? ns = some d →
    Removed ns t ∨ ∃ d', w'.operand? ns = some d' ∧ (d'.template.note? = d.template.note? ∨ Notes t d')

section

variable {ns : String} {w w' : SharedStore} {t t' : List Exchange}

theorem Removed.left (h : Removed ns t) : Removed ns (t ++ t') := List.mem_append_left _ h

theorem Removed.right (h : Removed ns t') : Removed ns (t ++ t') := List.mem_append_right _ h

theorem Notes.right {d : Deployment} (h : Notes t' d) : Notes (t ++ t') d := by
  obtain ⟨now, hm, hn⟩ := h
  exact ⟨now, List.mem_append_right _ hm, hn⟩

/-- A note is kept where the document of the deployment is. -/
theorem keepsNote_of_frame (hw' : w.Sound → w'.Sound)
    (h : w'.stored (Kind.deployment.keyAt ns Names.app) = w.stored (Kind.deployment.keyAt ns Names.app)) :
    KeepsNote ns w t w' := by
  intro hw
  refine ⟨hw' hw, ?_⟩
  intro d hd
  exact .inr ⟨d, (operand?_congr h).trans hd, .inl rfl⟩

/-- A note that is kept in two runs is kept in the one after the other. -/
theorem chains_keepsNote (ns : String) : Proc.Chains (KeepsNote ns) where
  refl _ := keepsNote_of_frame id rfl
  trans {w w₁ w' t t'} h h' := by
    intro hw
    obtain ⟨hw₁, hk⟩ := h hw
    obtain ⟨hw', hk'⟩ := h' hw₁
    refine ⟨hw', ?_⟩
    intro d hd
    rcases hk d hd with hr | ⟨d₁, hd₁, hn⟩
    · exact .inl hr.left
    rcases hk' d₁ hd₁ with hr | ⟨d', hd', hn' | hn'⟩
    · exact .inl hr.right
    · refine .inr ⟨d', hd', ?_⟩
      rcases hn with hn | ⟨now, hm, hn⟩
      · exact .inl (hn'.trans hn)
      · exact .inr ⟨now, List.mem_append_left _ hm, hn'.trans hn⟩
    · exact .inr ⟨d', hd', .inr hn'.right⟩

end

/-! ### What is kept when a program goes on -/

/-- What runs leave behind is kept when a program goes on, if it adds up. -/
theorem Proc.Chains.composes {σ : Type} {R : Serving σ} {Q : σ → List Exchange → σ → Prop} (hQ : Proc.Chains Q) :
    Proc.Composes fun p => p.Leaves R Q where
  done a := by
    intro s b t s' hy
    obtain ⟨rfl, rfl, rfl⟩ := hy.of_done
    exact hQ.refl s'
  bind {_ _ p f} hp hf := by
    intro s b t s' hy
    obtain ⟨a, t₁, s₁, t₂, hy₁, hy₂, rfl⟩ := hy.of_bind
    exact hQ.trans (hp hy₁) (hf a hy₂)

section

variable {ns : String}

/-- A program keeps the note that does not write the deployment. -/
theorem keepsNote_of_writesOnly {α : Type} {p : Proc α} {keys : List ObjectKey} (hp : p.WritesOnly keys)
    (hk : Kind.deployment.keyAt ns Names.app ∉ keys) : p.Leaves Serves (KeepsNote ns) := by
  intro w a t w' hy hw
  obtain ⟨hframe, -⟩ := stored_of_yields hp hw hy
  exact keepsNote_of_frame (fun hw => hw.yields hy) (hframe _ hk) hw

/-- A program keeps the note that writes one object of the pass, if it does so where that is the deployment. -/
theorem keepsNote_of_owned {α : Type} {p : Proc α} {k : OwnedKind} {name : String} (hp : p.WritesOnly [k.kind.keyAt ns name])
    (hdeployment : k = .deployment → name = Names.app → p.Leaves Serves (KeepsNote ns)) : p.Leaves Serves (KeepsNote ns) := by
  by_cases hkey : Kind.deployment.keyAt ns Names.app = k.kind.keyAt ns name
  · obtain ⟨hkind, -, hname⟩ := Kind.keyAt_inj.1 hkey
    have howned : OwnedKind.deployment = k := OwnedKind.kind_injective hkind
    exact hdeployment howned.symm hname.symm
  · exact keepsNote_of_writesOnly hp fun hm => hkey (List.mem_singleton.1 hm)

/-- Keeping the deployment keeps its note if what is written over it does. -/
theorem keepsNote_keeping {desired : Deployment} {revise : Deployment → Option Deployment} {idle : Outcome}
    (hk : Kind.deployment.key desired = .ok (ns, Names.app)) (hr : Settles .deployment desired revise)
    (hnote : ∀ {live x : Deployment}, revise live = some x → x.template.note? = live.template.note?) :
    (keeping .deployment desired revise idle).run.Leaves Serves (KeepsNote ns) := by
  intro w a t w' hy hw
  refine ⟨hw.yields hy, ?_⟩
  intro d hd
  cases Keeps.of_yields hw hk hr hy with
  | failed ht => exact .inr ⟨d, hd, .inl rfl⟩
  | created hn hc =>
    rw [operand?, hn] at hd
    cases hd
  | left hj hx hrev => exact .inr ⟨d, hd, .inl rfl⟩
  | @written j live x z version hj hx hrev =>
    have hlive : live = d := by
      rw [operand?, hj, Option.bind_some, hx] at hd
      exact Option.some.inj hd
    subst hlive
    have hsame : (Kind.withVersion .deployment x version : Deployment).template = Deployment.template x := rfl
    refine .inr ⟨_, operand?_put w ns version _, .inl ?_⟩
    rw [hsame]
    exact hnote hrev

/-- Replacing the pods of the operand notes the time that was read. -/
theorem keepsNote_restart (ns : String) : (Steps.restart ns).run.Leaves Serves (KeepsNote ns) := by
  intro w a t w' hy hw
  obtain ⟨synced, rfl, hr⟩ := Restarts.of_yields hw hy
  refine ⟨hw.yields hy, ?_⟩
  intro d hd
  cases hr with
  | unread e => exact .inr ⟨d, hd, .inl rfl⟩
  | missing hn => exact .inr ⟨d, hd, .inl rfl⟩
  | refused hj hx now e => exact .inr ⟨d, hd, .inl rfl⟩
  | @made j live z version hj hx now =>
    refine .inr ⟨_, operand?_put w ns version _, .inr ⟨now, ?_, note?_stamped live now⟩⟩
    exact List.mem_cons_of_mem _ List.mem_cons_self

namespace Pass

/-- Whatever calls fail, the parts of a pass keep the note, or leave one of a time that they read. -/
theorem keepsNote_whole (ingress : ManagementIngress) (ns : String) :
    Whole ingress ns fun p => p.Leaves Serves (KeepsNote ns) where
  toComposes := (chains_keepsNote ns).composes
  look r hr := by
    intro w a t w' hy
    obtain ⟨hs, rfl⟩ := hy.of_request
    rw [hs.eq_of_looks hr]
    exact keepsNote_of_frame id rfl
  ensure k desired hd _ := by
    obtain ⟨name, hk⟩ := hd.key
    refine keepsNote_of_owned (writesOnly_ensure ingress hk hd.same) ?_
    rintro rfl rfl
    rw [ensure_eq]
    exact keepsNote_keeping (key_owned ingress hk) (settles_revision .deployment (changed_owned ingress hd.same)) note?_revision
  ensureCreated k desired hd := by
    obtain ⟨name, hk⟩ := hd.key
    refine keepsNote_of_owned (writesOnly_ensureCreated ingress hk) ?_
    rintro rfl rfl
    rw [ensureCreated_eq]
    exact keepsNote_keeping (key_owned ingress hk) (settles_adoption .deployment _) note?_adoption
  restart := keepsNote_restart ns
  remove := by
    intro w a t w' hy
    obtain ⟨hs, rfl⟩ := hy.of_request
    cases a with
    | error e =>
      rw [hs.of_delete_error]
      exact keepsNote_of_frame id rfl
    | ok u =>
      intro hw
      exact ⟨hw.serves hs, fun d hd => .inl List.mem_cons_self⟩
  report status := by
    intro w a t w' hy
    obtain ⟨hs, rfl⟩ := hy.of_request
    refine keepsNote_of_frame (fun hw => hw.serves hs) (hs.frame ?_)
    exact Kind.objectKey?_ne (k := .managementIngress) (by decide) ingress ns Names.app

end Pass

end

end IngressOperator
