import IngressOperator.Pass
import IngressOperator.Proofs.Status.Mark
import IngressOperator.Proofs.Steps.Targets

/-!
# The status that is stored

What a pass reports is stored with the custom resource, and is there when that is read the next time: the resource is then the
one that was read before, as another version and with the new status.

## Main statements

* `ObjectStore.reports_writeStatus`: a status that is written is the one that is stored.
* `Pass.finish_goes`: what is stored after a pass whose steps all ran.
-/

namespace IngressOperator

/-- The custom resource as another version and with another status. -/
def ManagementIngress.again (i : ManagementIngress) (version : Option String) (status : Option IngressStatus) :
    ManagementIngress :=
  { i with metadata := { i.metadata with resourceVersion := version }, status := status }

variable {σ α : Type} {h : Proc.Handler σ} (S : ObjectStore h) {ingress : ManagementIngress} {key : ObjectKey}

/-- Whether the custom resource is stored under a key, as whichever version, with a status. -/
def ObjectStore.Reports (ingress : ManagementIngress) (key : ObjectKey) (status : IngressStatus) (s : σ) : Prop :=
  ∃ j version stored, S.stored s key = some j ∧ Kind.decode? .managementIngress j = some (ingress.again version stored) ∧
    stored.getD {} = status

/-- The status of a custom resource that is stored is that with which it is read. -/
theorem ObjectStore.reports_self {s : σ} {j : Json} (hj : S.stored s key = some j)
    (hx : Kind.decode? .managementIngress j = some ingress) : S.Reports ingress key (ingress.status.getD {}) s :=
  ⟨j, ingress.metadata.resourceVersion, ingress.status, hj, hx, rfl⟩

/-- The status of a custom resource stays if nobody writes it. -/
theorem ObjectStore.Reports.congr {S : ObjectStore h} {status : IngressStatus} {s s' : σ} (hr : S.Reports ingress key status s)
    (hs : S.stored s' key = S.stored s key) : S.Reports ingress key status s' := by
  obtain ⟨j, version, stored, hj, hx, he⟩ := hr
  exact ⟨j, version, stored, hs.trans hj, hx, he⟩

namespace Pass

/-! ### Writing a status -/

/-- The key of the custom resource, if it has one, is one of its kind. -/
theorem eq_keyAt_of_mem {key : ObjectKey} (hm : key ∈ (Kind.objectKey? .managementIngress ingress).toList) :
    key = Kind.managementIngress.keyAt key.ns key.name := by
  exact Kind.eq_keyAt_of_objectKey? (Option.mem_toList.1 hm)

/-- An object of an owned kind is not the custom resource. -/
theorem owned_ne_ingress (k : OwnedKind) (ns name : String) :
    k.kind.keyAt ns name ∉ (Kind.objectKey? .managementIngress ingress).toList := by
  intro hm
  obtain ⟨hkind, -⟩ := Kind.keyAt_inj.1 (eq_keyAt_of_mem hm)
  cases k <;> cases hkind

/-- A status that is written anew is asked for to be stored, and nothing else is asked for. -/
theorem run_writeStatus_of_ne {written status : IngressStatus} (hne : written ≠ status) :
    (writeStatus ingress written status).run =
      Proc.ask (.updateStatus ingress status) fun answer => .done (answer.map fun _ => status) := by
  unfold writeStatus
  rw [if_neg hne]
  refine congrArg (Proc.ask _) (funext fun answer => ?_)
  cases answer <;> rfl

/-- A status that was written is not written again. -/
theorem writeStatus_self (ingress : ManagementIngress) (status : IngressStatus) :
    (writeStatus ingress status status).run = .done (.ok status) := by
  unfold writeStatus
  rw [if_pos rfl]
  rfl

/-- Writing a status writes nothing but the custom resource. -/
theorem writesOnly_writeStatus (ingress : ManagementIngress) (written status : IngressStatus) :
    (writeStatus ingress written status).run.WritesOnly (Kind.objectKey? .managementIngress ingress).toList := by
  by_cases hne : written = status
  · rw [hne, writeStatus_self]
    trivial
  · rw [run_writeStatus_of_ne hne]
    exact ⟨fun key hkey => Option.mem_toList.2 hkey, fun answer _ => trivial⟩

/-- A status whose times lie in the calendar is stored if it is written. -/
theorem reports_writeStatus {s s' : σ} {written status : IngressStatus} {answer : Except Failure IngressStatus}
    {t : List Exchange} (hs : S.Holds s) (hk : Kind.objectKey? .managementIngress ingress = some key)
    (hr : S.Reports ingress key written s) (hc : status.InCalendar)
    (hg : (writeStatus ingress written status).run.Goes h s answer t s') :
    answer = .ok status ∧ S.Reports ingress key status s' := by
  by_cases hne : written = status
  · rw [hne, writeStatus_self] at hg
    obtain ⟨rfl, -, rfl⟩ := hg.of_done
    exact ⟨rfl, hne ▸ hr⟩
  · obtain ⟨j, version, stored, hj, hx, -⟩ := hr
    obtain ⟨ha, j', v, hj', hx'⟩ := S.updateStatus s ingress status key j _ hs hk hj hx (Wire.decode?_encode_status hc)
    rw [run_writeStatus_of_ne hne] at hg
    obtain ⟨hrun, -⟩ := hg
    rw [Proc.run_ask, ha] at hrun
    cases hrun
    exact ⟨rfl, j', some v, some status, hj', hx', rfl⟩

/-! ### Beginning a report -/

/-- Whether a report is of a host, so that none has to be begun. -/
def ofHost (written : IngressStatus) (host : String) : Prop := (written.host.isEmpty || written.host != host) = false

/-- The status with which a report of a host begins. -/
def begun (host : String) (now : Instant) : IngressStatus :=
  ({ host := host } : IngressStatus).withOperand .deploying s!"Get router host for management ingress at {now.plainText}"

/-- A report is of its own host. -/
theorem ofHost_self {written : IngressStatus} (hne : written.host ≠ "") : ofHost written written.host := by
  simp [ofHost, hne]

theorem ofHost.host {written : IngressStatus} {host : String} (ho : ofHost written host) : written.host = host := by
  unfold ofHost at ho
  simp only [Bool.or_eq_false_iff] at ho
  simpa using ho.2

/-- A report of the host is not begun anew. -/
theorem announceHost_same (ingress : ManagementIngress) {written : IngressStatus} {host : String} (ho : ofHost written host) :
    (announceHost ingress written host).run = .done (.ok written) := by
  unfold ofHost at ho
  unfold announceHost
  rw [ho]
  rfl

/-- A report of another host is begun at the time that the clock tells. -/
theorem run_announceHost_of_not {written : IngressStatus} {host : String} (ho : ¬ ofHost written host) :
    (announceHost ingress written host).run =
      Proc.ask .now fun now => (writeStatus ingress written (begun host now)).run := by
  unfold ofHost at ho
  rw [Bool.not_eq_false] at ho
  unfold announceHost
  rw [ho]
  rfl

/-- Beginning a report writes nothing but the custom resource. -/
theorem writesOnly_announceHost (ingress : ManagementIngress) (written : IngressStatus) (host : String) :
    (announceHost ingress written host).run.WritesOnly (Kind.objectKey? .managementIngress ingress).toList := by
  by_cases ho : ofHost written host
  · rw [announceHost_same ingress ho]
    trivial
  · rw [run_announceHost_of_not ho]
    exact Proc.writesOnly_ask rfl fun now => writesOnly_writeStatus ingress _ _

theorem inCalendar_begun (host : String) (now : Instant) : (begun host now).InCalendar :=
  fun _ he => absurd he List.not_mem_nil

/-- A report that was begun is stored, and it is of the host. -/
theorem reports_announceHost {s s' : σ} {written : IngressStatus} {host : String} {answer : Except Failure IngressStatus}
    {t : List Exchange} (hs : S.Holds s) (hk : Kind.objectKey? .managementIngress ingress = some key)
    (hr : S.Reports ingress key written s) (hc : written.InCalendar)
    (hg : (announceHost ingress written host).run.Goes h s answer t s') :
    ∃ status, answer = .ok status ∧ status.host = host ∧ status.InCalendar ∧ S.Reports ingress key status s' := by
  by_cases ho : ofHost written host
  · rw [announceHost_same ingress ho] at hg
    obtain ⟨rfl, -, rfl⟩ := hg.of_done
    exact ⟨written, rfl, ho.host, hc, hr⟩
  · rw [run_announceHost_of_not ho] at hg
    obtain ⟨now, t₁, s₁, t₂, ⟨hn, -⟩, hw, -⟩ := Proc.Goes.of_bind (p := Proc.request .now) hg
    cases hn
    have hnow := S.stored_of_untargeted (r := .now) hs rfl key
    obtain ⟨ha, hr'⟩ := reports_writeStatus S (S.holds .now s hs) hk (hr.congr hnow) (inCalendar_begun host _) hw
    exact ⟨_, ha, rfl, inCalendar_begun host _, hr'⟩

/-! ### Ending a report -/

/-- The status of a pass whose steps all ran, given what is known of the pods. -/
def concluded (status : IngressStatus) (pods : Except Failure (List Pod)) : IngressStatus :=
  (match pods with
    | .ok pods => status.withPods pods
    | .error _ => status).withOperand .successful successMessage

/-- A pass whose steps all ran asks for the pods, and reports. -/
theorem run_finish (ingress : ManagementIngress) (ns : String) (written status : IngressStatus) :
    (finish ingress ns written status).run =
      Proc.ask (.list .pod ns s!"app={Names.app}") fun pods =>
        (writeStatus ingress written (concluded status pods)).run >>= fun answer => .done (answer.map fun _ => ()) := by
  refine congrArg (Proc.ask _) (funext fun pods => ?_)
  change (writeStatus ingress written (concluded status pods) >>= fun _ => pure ()).run = _
  rw [ExceptT.run_bind]
  refine bind_congr fun answer => ?_
  cases answer <;> rfl

/-- Reporting the pods leaves what is said of the kinds. -/
theorem conditions_concluded (status : IngressStatus) (pods : Except Failure (List Pod)) :
    (concluded status pods).conditions = status.conditions := by
  cases pods <;> rfl

theorem host_concluded (status : IngressStatus) (pods : Except Failure (List Pod)) :
    (concluded status pods).host = status.host := by
  cases pods <;> rfl

theorem inCalendar_concluded {status : IngressStatus} (hs : status.InCalendar) (pods : Except Failure (List Pod)) :
    (concluded status pods).InCalendar := by
  cases pods <;> exact hs

/-- Reporting the same pods once more changes nothing. -/
theorem concluded_concluded (status : IngressStatus) (pods : Except Failure (List Pod)) :
    concluded (concluded status pods) pods = concluded status pods := by
  cases pods <;> rfl

/-- Ending a report writes nothing but the custom resource. -/
theorem writesOnly_finish (ingress : ManagementIngress) (ns : String) (written status : IngressStatus) :
    (finish ingress ns written status).run.WritesOnly (Kind.objectKey? .managementIngress ingress).toList := by
  rw [run_finish]
  exact Proc.writesOnly_ask rfl fun pods => (writesOnly_writeStatus ingress _ _).bind fun _ => trivial

/-- What is stored after a pass whose steps all ran. -/
theorem finish_goes {ns : String} {s s' : σ} {written status : IngressStatus} {answer : Except Failure Unit} {t : List Exchange}
    (hs : S.Holds s) (hk : Kind.objectKey? .managementIngress ingress = some key) (hr : S.Reports ingress key written s)
    (hc : status.InCalendar) (hg : (finish ingress ns written status).run.Goes h s answer t s') :
    ∃ pods, (h (.list .pod ns s!"app={Names.app}") s).1 = pods ∧ answer = .ok () ∧
      S.Reports ingress key (concluded status pods) s' := by
  rw [run_finish] at hg
  obtain ⟨pods, t₁, s₁, t₂, ⟨hlist, -⟩, hg, -⟩ := Proc.Goes.of_bind (p := Proc.request _) hg
  cases hlist
  obtain ⟨written', t₃, s₃, t₄, hw, hd, -⟩ := hg.of_bind
  have hlist := S.stored_of_untargeted (r := .list .pod ns s!"app={Names.app}") hs rfl key
  obtain ⟨ha, hr'⟩ := reports_writeStatus S (S.holds _ s hs) hk (hr.congr hlist) (inCalendar_concluded hc _) hw
  subst ha
  obtain ⟨rfl, -, rfl⟩ := hd.of_done
  exact ⟨_, rfl, rfl, hr'⟩

/-- A status that tells of the pods already is not written at the end of a pass. -/
theorem finish_concluded (ingress : ManagementIngress) {ns : String} {z : σ} {status : IngressStatus}
    {pods : Except Failure (List Pod)} (hp : (h (.list .pod ns s!"app={Names.app}") z).1 = pods) (hc : concluded status pods = status) :
    (finish ingress ns status status).run.Goes h z (.ok ()) [⟨.list .pod ns s!"app={Names.app}", pods⟩]
      (h (.list .pod ns s!"app={Names.app}") z).2 := by
  subst hp
  rw [run_finish]
  refine Proc.Goes.last (.request h (.list .pod ns s!"app={Names.app}") z) ?_
  rw [hc, writeStatus_self]
  rfl

end Pass

end IngressOperator
