import IngressOperator.Proofs.Cluster.Direct
import IngressOperator.Proofs.Program.Yields
import IngressOperator.Proofs.Time.Digits

/-!
# Direct access is to a shared store

A calm cluster numbers its writes, so that every version that it gives is a new one, and it refuses an update of any version but
the one that is stored. Whatever a program asks of it is answered as a shared store may answer.

## Main statements

* `Cluster.Direct.serves`: a calm cluster answers a request as a shared store may.
* `Cluster.Direct.reaches_advance`: a program on a calm cluster comes no farther than on a shared store.
* `Cluster.Direct.yields`: what it yields there it may yield on a shared store.
-/

namespace IngressOperator

/-- What is left of a program after so many requests, with the state that they leave. -/
def Proc.advance {σ α : Type} (h : Handler σ) : Nat → Proc α → σ → Proc α × σ
  | 0, p, s => (p, s)
  | _ + 1, done a, s => (done a, s)
  | n + 1, ask r next, s => (next (h r s).1).advance h n (h r s).2

namespace Cluster

/-- Whether a store mirrors a calm cluster: it keeps the same documents, and no version has been given there that the cluster is
still to give. -/
structure Mirrors (facts : ClusterFacts) (c : Cluster) (w : SharedStore) : Prop where
  calm : c.Calm facts
  stored : ∀ key, w.stored key = c.objects.get? key
  given : ∀ key version, version ∈ w.given key → ∃ n ≤ c.version, version = toString n

variable {facts : ClusterFacts} {c c' : Cluster} {w : SharedStore}

/-- A cluster in which nothing but the calls and the clock has changed is mirrored by the same store. -/
theorem Mirrors.same (h : Mirrors facts c w) (hc : Unwritten facts c c') : Mirrors facts c' w := by
  refine ⟨hc.calm, ?_, ?_⟩
  · rw [hc.objects]
    exact h.stored
  · rw [hc.version]
    exact h.given

/-- A version that the cluster has not reached was not given. -/
theorem Mirrors.unused (h : Mirrors facts c w) {n : Nat} (hn : c.version < n) (key : ObjectKey) : toString n ∉ w.given key := by
  intro hm
  obtain ⟨m, hle, he⟩ := h.given key _ hm
  have hsame := Digits.toString_injective he
  omega

/-- A write under a later version gives none that a cluster of that version is still to give. -/
theorem Mirrors.given_put (h : Mirrors facts c w) {n : Nat} (hn : c.version < n) (key : ObjectKey) (doc : Json)
    (other : ObjectKey) (version : String) (hm : version ∈ (w.put key (toString n) doc).given other) :
    ∃ m ≤ n, version = toString m := by
  rcases SharedStore.eq_or_mem_of_mem_given_put hm with rfl | hm
  · exact ⟨n, Nat.le_refl n, rfl⟩
  · obtain ⟨m, hle, he⟩ := h.given other version hm
    exact ⟨m, Nat.le_trans hle (Nat.le_of_lt hn), he⟩

/-- What is written to a calm cluster is fresh, and put into the store that mirrors it. -/
theorem Mirrors.written (h : Mirrors facts c w) {key : ObjectKey} {doc : Json} (hw : Written facts c key doc c') :
    w.Fresh key (toString c'.version) doc ∧ Mirrors facts c' (w.put key (toString c'.version) doc) := by
  have hn : c.version < c'.version := by
    rw [hw.version]
    exact Nat.lt_succ_self _
  refine ⟨⟨hw.calm.filed key doc hw.stored, hw.ofVersion, h.unused hn key⟩, hw.calm, fun other => ?_, h.given_put hn key doc⟩
  by_cases ho : other = key
  · rw [ho, SharedStore.stored_put_self, hw.stored]
  · rw [SharedStore.stored_put_of_ne _ _ ho, hw.frame other ho, h.stored]

namespace Direct

/-- Whether a request does not replace a custom resource as a whole, which might not be read back. -/
def Sparing : Request → Prop
  | .update k _ => k ≠ .managementIngress
  | _ => True

/-- What an object is read as in a calm cluster it may be read as in a shared store. -/
theorem serves_reading (h : Mirrors facts c w) (k : Kind) (ns name : String) :
    w.Serves (.get k ns name) (k.reading refusal (c.objects.get? (k.keyAt ns name))) w := by
  rw [← h.stored]
  cases hj : w.stored (k.keyAt ns name) with
  | none => exact .absent hj
  | some j =>
    cases hx : k.decode? j with
    | none =>
      simp only [Kind.reading, hx]
      exact .unmoved trivial
    | some x =>
      simp only [Kind.reading, hx]
      exact .found hj hx

/-- What a request to a calm cluster comes to it may come to in a shared store. -/
theorem Answers.serves (h : Mirrors facts c w) {r : Request} (hr : Sparing r) {answer : r.Answer}
    (ha : Answers facts c r answer c') : ∃ w', w.Serves r answer w' ∧ Mirrors facts c' w' := by
  cases ha with
  | read same => exact ⟨w, serves_reading h _ _ _, h.same same⟩
  | created hk hn written =>
    obtain ⟨hfresh, hmirrors⟩ := h.written written
    exact ⟨_, .created hk ((h.stored _).trans hn) (completes_created _ _ _ _) hfresh, hmirrors⟩
  | present hk hj same => exact ⟨w, .exists hk ((h.stored _).trans hj), h.same same⟩
  | updated hk hj hv written =>
    obtain ⟨hfresh, hmirrors⟩ := h.written written
    rw [Cluster.read, Kind.decode?_encode hr]
    rw [written.version] at hfresh hmirrors
    refine ⟨_, .updated hk ((h.stored _).trans hj) ?_ hfresh, hmirrors⟩
    rw [hv, versionOf_encode]
  | deleted calm version gone =>
    refine ⟨_, .deleted, calm, fun key => ?_, ?_⟩
    · rw [gone, ← h.stored]
      rfl
    · rw [version]
      exact h.given
  | reported hk _ written =>
    obtain ⟨hfresh, hmirrors⟩ := h.written written
    exact ⟨_, .reported hk hfresh, hmirrors⟩
  | unmoved hu same => exact ⟨w, .unmoved hu, h.same same⟩

/-- A calm cluster answers a request as a shared store may. -/
theorem serves (h : Mirrors facts c w) (r : Request) (hr : Sparing r) :
    ∃ w', w.Serves r (handler r c).1 w' ∧ Mirrors facts (handler r c).2 w' :=
  (answers h.calm r).serves h hr

/-- A program on a calm cluster comes no farther than on a shared store, in turns that are all its own. -/
theorem reaches_advance_own {α : Type} {p q : Proc α} {w₀ : SharedStore} {t : List Turn} (hr : Reaches p w₀ t q w)
    (h : Mirrors facts c w) (hq : q.Asks (fun _ _ => True) Sparing) (n : Nat) :
    ∃ u w', Reaches p w₀ (u ++ t) (q.advance handler n c).1 w' ∧ Mirrors facts (q.advance handler n c).2 w' ∧
      ∀ key, Turn.foreign key ∉ u := by
  induction n generalizing q c w t with
  | zero => exact ⟨[], w, hr, h, fun _ => List.not_mem_nil⟩
  | succ n ih =>
    cases q with
    | done a => exact ⟨[], w, hr, h, fun _ => List.not_mem_nil⟩
    | ask r next =>
      obtain ⟨w₁, hs, h₁⟩ := serves h r hq.1
      obtain ⟨u, w', hr', h', hown⟩ := ih (hr.own hs) h₁ (hq.2 _ trivial)
      refine ⟨u ++ [.own ⟨r, (handler r c).1⟩], w', by rw [List.append_assoc]; exact hr', h', ?_⟩
      intro key hm
      rcases List.mem_append.1 hm with hm | hm
      · exact hown key hm
      · cases List.mem_singleton.1 hm

/-- A program on a calm cluster comes no farther than on a shared store. -/
theorem reaches_advance {α : Type} {p q : Proc α} {w₀ : SharedStore} {t : List Turn} (hr : Reaches p w₀ t q w)
    (h : Mirrors facts c w) (hq : q.Asks (fun _ _ => True) Sparing) (n : Nat) :
    ∃ u w', Reaches p w₀ (u ++ t) (q.advance handler n c).1 w' ∧ Mirrors facts (q.advance handler n c).2 w' := by
  obtain ⟨u, w', hr', h', -⟩ := reaches_advance_own hr h hq n
  exact ⟨u, w', hr', h'⟩

/-- What a program yields on a calm cluster it may yield on a shared store. -/
theorem yields {α : Type} {p : Proc α} (hp : p.Asks (fun _ _ => True) Sparing) (h : Mirrors facts c w) :
    ∃ w', p.Yields SharedStore.Serves w (p.run handler c).1 (p.trace handler c) w' ∧ Mirrors facts (p.run handler c).2 w' :=
  Proc.Yields.of_run (I := Mirrors facts) hp (fun r hr h => serves h r hr) h

end Direct

end Cluster

end IngressOperator
