import IngressOperator.Proofs.Status.Stored
import IngressOperator.Proofs.Steps.Parts

/-!
# What is reported in a run

The status that a run leaves stored is the last one that was accepted, whatever else is answered. No part of a pass asks for a
new status but those that report.

## Main statements

* `Pass.reported_writeStatus`: a status that is written is the one that is stored then.
* `Pass.unreporting_parts`: steps ask for no new status.
-/

namespace IngressOperator

/-! ### Stored statuses -/

/-- Whether a request is one for a new status. -/
def Request.Reports : Request → Prop
  | .updateStatus _ _ => True
  | _ => False

/-- The status that is stored after some exchanges: the last one that was accepted, or else the one that was stored before. -/
def reported (t : List Exchange) (status : IngressStatus) : IngressStatus :=
  t.foldl (fun status exchange =>
    match exchange with
    | ⟨.updateStatus _ new, .ok _⟩ => new
    | _ => status) status

/-- Whether an exchange does not refuse a new status. -/
def Exchange.accepted : Exchange → Bool
  | ⟨.updateStatus _ _, .error _⟩ => false
  | _ => true

/-- Whether every new status that was asked for was accepted. -/
def Accepted (t : List Exchange) : Prop := ∀ x ∈ t, x.accepted = true

section

variable {t t' : List Exchange} {status : IngressStatus}

theorem reported_append (t t' : List Exchange) (status : IngressStatus) :
    reported (t ++ t') status = reported t' (reported t status) := List.foldl_append

/-- A status stays if no new one is asked for. -/
theorem reported_eq_self (ht : ∀ x ∈ t, ¬ x.request.Reports) : reported t status = status := by
  induction t with
  | nil => rfl
  | cons x t ih =>
    have hx := ht x List.mem_cons_self
    have hrest := ih fun y hy => ht y (List.mem_cons_of_mem _ hy)
    obtain ⟨r, answer⟩ := x
    cases r with
    | updateStatus ingress new => exact absurd trivial hx
    | _ => exact hrest

theorem Accepted.left (ha : Accepted (t ++ t')) : Accepted t := fun x hx => ha x (List.mem_append_left _ hx)

theorem Accepted.right (ha : Accepted (t ++ t')) : Accepted t' := fun x hx => ha x (List.mem_append_right _ hx)

end

/-! ### Programs that do not report -/

/-- Whether a program asks for no new status, whatever it is answered. -/
def Proc.Unreporting {α : Type} (p : Proc α) : Prop := p.Asks (fun _ _ => True) fun r => ¬ r.Reports

variable {σ α : Type} {h : Proc.Handler σ}

/-- In a run of a program that does not report no new status is asked for. -/
theorem Proc.Unreporting.goes {p : Proc α} (hp : p.Unreporting) {a : α} {t : List Exchange} {s s' : σ}
    (hg : p.Goes h s a t s') : ∀ x ∈ t, ¬ x.request.Reports := by
  obtain ⟨-, rfl⟩ := hg
  exact hp.all_trace h s

/-- A status stays in a run of a program that does not report. -/
theorem Proc.Unreporting.reported {p : Proc α} (hp : p.Unreporting) {a : α} {t : List Exchange} {s s' : σ}
    (hg : p.Goes h s a t s') (status : IngressStatus) : reported t status = status :=
  reported_eq_self (hp.goes hg)

namespace Pass

/-- Steps ask for no new status. -/
theorem unreporting_parts (ingress : ManagementIngress) (ns : String) : Parts ingress ns fun p => p.Unreporting := by
  refine asks_parts ingress ns ?_ (fun _ _ => id) fun _ _ => id
  intro r hr hreports
  cases r with
  | updateStatus _ _ => exact hr
  | _ => exact hreports

/-! ### Reports -/

variable {ingress : ManagementIngress} {written status : IngressStatus} {t : List Exchange} {s s' : σ}

/-- A status that is written is the one that is stored then. -/
theorem reported_writeStatus {answer : Except Failure IngressStatus}
    (hg : (writeStatus ingress written status).run.Goes h s answer t s') (ht : Accepted t) :
    answer = .ok status ∧ reported t written = status := by
  by_cases hne : written = status
  · rw [hne, writeStatus_self] at hg
    obtain ⟨rfl, rfl, -⟩ := hg.of_done
    exact ⟨rfl, hne⟩
  · rw [run_writeStatus_of_ne hne] at hg
    obtain ⟨hrun, rfl⟩ := hg
    rw [Proc.trace_ask] at ht ⊢
    have haccepted := ht _ List.mem_cons_self
    rw [Proc.run_ask] at hrun
    cases ha : (h (.updateStatus ingress status) s).1 with
    | error e =>
      rw [ha] at haccepted
      cases haccepted
    | ok _ =>
      rw [ha] at hrun
      cases hrun
      exact ⟨rfl, rfl⟩

/-- A report of the host is gone on with, and else one is begun. -/
theorem reported_announceHost {host : String} {answer : Except Failure IngressStatus}
    (hg : (announceHost ingress written host).run.Goes h s answer t s') (ht : Accepted t) :
    ∃ status, answer = .ok status ∧ reported t written = status ∧
      (ofHost written host ∧ status = written ∨ ¬ ofHost written host ∧ ∃ now, status = begun host now) := by
  by_cases ho : ofHost written host
  · rw [announceHost_same ingress ho] at hg
    obtain ⟨rfl, rfl, -⟩ := hg.of_done
    exact ⟨written, rfl, rfl, .inl ⟨ho, rfl⟩⟩
  · rw [run_announceHost_of_not ho] at hg
    obtain ⟨now, t₁, s₁, t₂, ⟨hn, rfl⟩, hw, rfl⟩ := Proc.Goes.of_bind (p := Proc.request .now) hg
    obtain ⟨ha, hr⟩ := reported_writeStatus hw ht.right
    refine ⟨begun host now, ha, ?_, .inr ⟨ho, now, rfl⟩⟩
    rw [reported_append]
    exact hr

/-- A pass whose steps all ran leaves a status that tells of the pods and of success. -/
theorem reported_finish {ns : String} {answer : Except Failure Unit}
    (hg : (finish ingress ns written status).run.Goes h s answer t s') (ht : Accepted t) :
    answer = .ok () ∧ ∃ pods, reported t written = concluded status pods := by
  rw [run_finish] at hg
  obtain ⟨pods, t₁, s₁, t', ⟨hlist, rfl⟩, hrest, rfl⟩ := Proc.Goes.of_bind (p := Proc.request _) hg
  obtain ⟨written', t₂, s₂, t₃, hw, hd, rfl⟩ := hrest.of_bind
  obtain ⟨rfl, hr⟩ := reported_writeStatus hw ht.right.left
  obtain ⟨rfl, rfl, -⟩ := hd.of_done
  refine ⟨rfl, pods, ?_⟩
  rw [reported_append, List.append_nil]
  exact hr

end Pass

end IngressOperator
