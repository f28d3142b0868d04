import IngressOperator.Proofs.Cluster.Shared
import IngressOperator.Proofs.Status.Reported

/-!
# What a new status leaves

A status is put into the document of its custom resource, and makes another version of it. All else that the document says is left.

## Main statements

* `SharedStore.Reporting`: how a store answers that puts a status nowhere else.
* `Cluster.Direct.yields_reporting`: direct access to calm clusters answers so.
-/

namespace IngressOperator

/-- Whether a document is another one of which nothing but the status and the version was replaced. -/
structure Json.Restated (j j' : Json) : Prop where
  member : ∀ name, name ≠ "metadata" → name ≠ "status" → j'.get? name = j.get? name
  metadata : ∀ name, name ≠ "resourceVersion" → j'.path? ["metadata", name] = j.path? ["metadata", name]

namespace Json.Restated

theorem refl (j : Json) : j.Restated j := ⟨fun _ _ _ => rfl, fun _ _ => rfl⟩

theorem trans {j₁ j₂ j₃ : Json} (h : j₁.Restated j₂) (h' : j₂.Restated j₃) : j₁.Restated j₃ where
  member name hm hs := (h'.member name hm hs).trans (h.member name hm hs)
  metadata name hv := (h'.metadata name hv).trans (h.metadata name hv)

end Json.Restated

/-- Whether a document is there or not just as before, if need be restated. -/
def Restates : Option Json → Option Json → Prop := Option.Rel Json.Restated

namespace Restates

theorem refl : (doc : Option Json) → Restates doc doc
  | none => .none
  | some j => .some (.refl j)

theorem trans {a b c : Option Json} (h : Restates a b) (h' : Restates b c) : Restates a c := by
  cases h with
  | none => exact h'
  | some h =>
    cases h' with
    | some h' => exact .some (h.trans h')

end Restates

/-- What a request comes to on a store that puts a new status into the document of the custom resource, and nowhere else. -/
structure SharedStore.Reporting (w : SharedStore) (r : Request) (answer : r.Answer) (w' : SharedStore) : Prop where
  serves : w.Serves r answer w'
  restates : r.Reports → ∀ key, Restates (w.stored key) (w'.stored key)

namespace Cluster

/-- A document into which a status was put, as the next version, is restated. -/
theorem Filed.restated {key : ObjectKey} {j : Json} (h : Filed key j) (status : Json) (version : String) :
    j.Restated (withMeta "resourceVersion" version (j.set "status" status)) := by
  obtain ⟨members, ms, _, rfl, hm, -, -, -⟩ := h.members
  rw [withVersion_reported hm]
  constructor
  · intro name hmetadata hstatus
    have hm' : compare name "metadata" ≠ .eq := fun he => hmetadata (Std.LawfulEqCmp.eq_of_compare he)
    have hs' : compare name "status" ≠ .eq := fun he => hstatus (Std.LawfulEqCmp.eq_of_compare he)
    simp only [Json.get?, Json.members?, Option.bind_some, Entries.find?_insert, if_neg hm', if_neg hs']
  · intro name hversion
    have hv' : compare name "resourceVersion" ≠ .eq := fun he => hversion (Std.LawfulEqCmp.eq_of_compare he)
    have hmeta : Entries.find? "metadata" (Entries.insert "metadata" (.obj (Entries.insert "resourceVersion" (.str version) ms))
        (Entries.insert "status" status members)) = some (.obj (Entries.insert "resourceVersion" (.str version) ms)) := by
      rw [Entries.find?_insert, if_pos Std.ReflCmp.compare_self]
    rw [Json.path?_obj hmeta, Json.path?_obj hm, Entries.find?_insert, if_neg hv']

namespace Direct

variable {facts : ClusterFacts} {c : Cluster} {w : SharedStore}

/-- A new status is put into the document of the custom resource, and nowhere else. -/
theorem restates_updateStatus (h : c.Calm facts) (ingress : ManagementIngress) (status : IngressStatus) (key : ObjectKey) :
    Restates (c.objects.get? key) ((handler (.updateStatus ingress status) c).2.objects.get? key) := by
  by_cases hk : Kind.objectKey? .managementIngress ingress = some key
  · cases hj : c.objects.get? key with
    | none =>
      rw [handler_updateStatus_absent h hk status hj]
      change Restates none (c.objects.get? key)
      rw [hj]
      exact .none
    | some j =>
      obtain ⟨c', hc, hw⟩ := handler_updateStatus h hk status hj
      rw [hc, hw.stored]
      exact .some ((h.filed key j hj).restated _ _)
  · rw [(handler_calm h (.updateStatus ingress status)).2 key hk]
    exact .refl _

/-- What a program yields on a calm cluster it may yield on a store that puts a new status nowhere else. -/
theorem yields_reporting {α : Type} {p : Proc α} (hp : p.Asks (fun _ _ => True) Sparing) (h : Mirrors facts c w) :
    ∃ w', p.Yields SharedStore.Reporting w (p.run handler c).1 (p.trace handler c) w' ∧
      Mirrors facts (p.run handler c).2 w' := by
  refine Proc.Yields.of_run (I := Mirrors facts) hp ?_ h
  intro c w r hr h
  obtain ⟨w', hs, h'⟩ := serves h r hr
  refine ⟨w', ⟨hs, ?_⟩, h'⟩
  intro hreports key
  rw [h.stored, h'.stored]
  cases r with
  | updateStatus ingress status => exact restates_updateStatus h.calm ingress status key
  | _ => exact absurd hreports id

end Direct

end Cluster

end IngressOperator
