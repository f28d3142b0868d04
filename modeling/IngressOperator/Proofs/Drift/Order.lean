import Mathlib.Data.List.Nodup
import Mathlib.Data.List.Perm.Subperm
import IngressOperator.Proofs.Drift.Desired

/-!
# Comparisons in any order

Environments and volumes are compared by their lengths, by the names on either side, and by the one element that a name stands for.
Where the desired names are distinct this is a comparison element by element, in some order: as many names as there are distinct
desired ones leave no room for a live name that occurs twice. What is found by name is then the same whether the first or the last
element of a name is taken.

## Main statements

* `Drift.named_iff_rearranged`: a comparison by length, names and elements of one name is one of a rearrangement.
* `Drift.same_iff_rearranged`: what environments and volumes that are compared as the same are like, whatever their order.
-/

namespace IngressOperator

/-! ### Elements that agree -/

/-- Whether two sources of a value refer to the same, in each of the four kinds of references. -/
structure EnvSource.Agrees (a b : EnvSource) : Prop where
  field : a.fieldRef = b.fieldRef
  resourceField : a.resourceFieldRef = b.resourceFieldRef
  configMapKey : a.configMapKeyRef = b.configMapKeyRef
  secretKey : a.secretKeyRef = b.secretKeyRef

/-- Whether two variables have one name, one literal value, where an absent one is empty, and either no source or sources that
agree. -/
structure EnvVar.Agrees (a b : EnvVar) : Prop where
  name : a.name = b.name
  value : a.value.getD "" = b.value.getD ""
  source : Option.Rel EnvSource.Agrees a.valueFrom b.valueFrom

/-- Whether two volumes have the same content: the first of secret, config map and path that both have is the same one. -/
inductive Volume.Alike (a b : Volume) : Prop
  | secret {x y : SecretVolume} (ha : a.secret = some x) (hb : b.secret = some y) (hsame : x.secretName = y.secretName)
  | configMap {x y : ConfigMapVolume} (hsecret : a.secret = none ∨ b.secret = none) (ha : a.configMap = some x)
      (hb : b.configMap = some y) (hsame : x.name = y.name)
  | hostPath {x y : HostPathVolume} (hsecret : a.secret = none ∨ b.secret = none)
      (hconfig : a.configMap = none ∨ b.configMap = none) (ha : a.hostPath = some x) (hb : b.hostPath = some y)
      (hsame : x.path = y.path)

/-- Whether two volumes have one name and the same content. -/
structure Volume.Agrees (a b : Volume) : Prop where
  name : a.name = b.name
  content : a.Alike b

/-- Whether a list can be brought into an order in which it agrees with another one, element by element. -/
def Rearranged {α : Type} (R : α → α → Prop) (a b : List α) : Prop := ∃ l, a.Perm l ∧ List.Forall₂ R l b

/-- The order of two lists does not matter to whether one can be rearranged to agree with the other. -/
theorem Rearranged.reorder {α : Type} {R : α → α → Prop} {a a' b b' : List α} (h : Rearranged R a b) (ha : a.Perm a')
    (hb : b.Perm b') : Rearranged R a' b' := by
  obtain ⟨l, hl, hagrees⟩ := h
  have hcomp : Relation.Comp (List.Forall₂ R) List.Perm l b' := ⟨b, hagrees, hb⟩
  rw [List.forall₂_comp_perm_eq_perm_comp_forall₂] at hcomp
  obtain ⟨l', hl', hagrees'⟩ := hcomp
  exact ⟨l', (ha.symm.trans hl).trans hl', hagrees'⟩

namespace Drift

theorem agrees_iff_eq {a b : EnvSource} : a.Agrees b ↔ a = b := by
  obtain ⟨configMapKey, field, resourceField, secretKey⟩ := a
  obtain ⟨configMapKey', field', resourceField', secretKey'⟩ := b
  rw [EnvSource.mk.injEq]
  constructor
  · rintro ⟨hfield, hresource, hconfig, hsecret⟩
    exact ⟨hconfig, hfield, hresource, hsecret⟩
  · rintro ⟨hconfig, hfield, hresource, hsecret⟩
    exact ⟨hfield, hresource, hconfig, hsecret⟩

/-- Variables of one name have the same value exactly if they agree. -/
theorem agrees_iff_sameValue {a b : EnvVar} : a.Agrees b ↔ a.name = b.name ∧ sameValue a b = true := by
  have hsource : Option.Rel EnvSource.Agrees a.valueFrom b.valueFrom ↔ a.valueFrom = b.valueFrom := by
    cases a.valueFrom <;> cases b.valueFrom <;> simp [agrees_iff_eq]
  simp only [sameValue, Bool.and_eq_true, beq_iff_eq]
  constructor
  · rintro ⟨hname, hvalue, hfrom⟩
    exact ⟨hname, hvalue, hsource.mp hfrom⟩
  · rintro ⟨hname, hvalue, hfrom⟩
    exact ⟨hname, hvalue, hsource.mpr hfrom⟩

theorem none_or_none {β : Type} {x y : Option β} (h : ∀ u v, x = some u → y = some v → False) : x = none ∨ y = none := by
  cases x with
  | none => exact .inl rfl
  | some u =>
    cases y with
    | none => exact .inr rfl
    | some v => exact (h u v rfl rfl).elim

/-- Volumes have the same content exactly if they have the same source. -/
theorem alike_iff_sameSource {a b : Volume} : a.Alike b ↔ sameSource a b = true := by
  unfold sameSource
  constructor
  · intro h
    cases h with
    | secret ha hb hsame => simp [ha, hb, hsame]
    | configMap hsecret ha hb hsame =>
      rcases hsecret with hs | hs
      · simp [hs, ha, hb, hsame]
      · simp [hs, ha, hb, hsame]
    | hostPath hsecret hconfig ha hb hsame =>
      rcases hsecret with hs | hs <;> rcases hconfig with hc | hc <;> simp [hs, hc, ha, hb, hsame]
  · intro h
    split at h
    · rename_i x y ha hb
      exact .secret ha hb (beq_iff_eq.mp h)
    · rename_i hsecret
      split at h
      · rename_i x y ha hb
        exact .configMap (none_or_none hsecret) ha hb (beq_iff_eq.mp h)
      · rename_i hconfig
        split at h
        · rename_i x y ha hb
          exact .hostPath (none_or_none hsecret) (none_or_none hconfig) ha hb (beq_iff_eq.mp h)
        · cases h

theorem agrees_iff_sameSource {a b : Volume} : a.Agrees b ↔ a.name = b.name ∧ sameSource a b = true := by
  rw [← alike_iff_sameSource]
  exact ⟨fun h => ⟨h.name, h.content⟩, fun h => ⟨h.1, h.2⟩⟩

/-! ### By name and in any order -/

section

variable {α : Type} {name : α → String} {a b : List α}

/-- As many names as there are distinct desired ones, among them all of these, are the desired ones. -/
theorem names_perm (hdistinct : (b.map name).Nodup) (hlength : a.length = b.length) (hnames : sameNames name a b = true) :
    (a.map name).Perm (b.map name) := by
  have hsubset : b.map name ⊆ a.map name := by
    intro s hs
    obtain ⟨y, hy, rfl⟩ := List.mem_map.mp hs
    simp only [sameNames, Bool.and_eq_true, List.all_eq_true, List.any_eq_true, beq_iff_eq] at hnames
    obtain ⟨x, hx, hname⟩ := hnames.2 y hy
    exact hname ▸ List.mem_map_of_mem hx
  have hsub := List.subperm_of_subset hdistinct hsubset
  exact (hsub.perm_of_length_le (by simp [hlength])).symm

/-- Elements can be put in the order of the names that they have. -/
theorem rearranged_names (hnames : (a.map name).Perm (b.map name)) : Rearranged (fun x y => name x = name y) a b := by
  have hcomp : Relation.Comp (List.Forall₂ fun x s => name x = s) List.Perm a (b.map name) :=
    ⟨a.map name, List.forall₂_map_right_iff.mpr (List.forall₂_same.mpr fun _ _ => rfl), hnames⟩
  rw [List.forall₂_comp_perm_eq_perm_comp_forall₂] at hcomp
  obtain ⟨l, hl, hagrees⟩ := hcomp
  exact ⟨l, hl, List.forall₂_map_right_iff.mp hagrees⟩

theorem exists_of_mem_left {R : α → α → Prop} (h : List.Forall₂ R a b) {x : α} (hx : x ∈ a) : ∃ y ∈ b, R x y := by
  induction h with
  | nil => cases hx
  | cons hxy _ ih =>
    rcases List.mem_cons.mp hx with rfl | hx
    · exact ⟨_, List.mem_cons_self, hxy⟩
    · obtain ⟨y, hy, hagrees⟩ := ih hx
      exact ⟨y, List.mem_cons_of_mem _ hy, hagrees⟩

/-- Where the desired names are distinct, lists of one length and the same names whose elements of one name agree are those that can
be rearranged to agree. -/
theorem named_iff_rearranged {R : α → α → Prop} (hdistinct : (b.map name).Nodup) (hR : ∀ x y, R x y → name x = name y) :
    (a.length = b.length ∧ sameNames name a b = true ∧ ∀ x ∈ a, ∃ y ∈ b, name y = name x ∧ R x y) ↔ Rearranged R a b := by
  constructor
  · rintro ⟨hlength, hnames, heach⟩
    obtain ⟨l, hl, hsame⟩ := rearranged_names (names_perm hdistinct hlength hnames)
    rw [List.forall₂_iff_zip] at hsame
    refine ⟨l, hl, List.forall₂_iff_zip.mpr ⟨hsame.1, fun {x y} hxy => ?_⟩⟩
    obtain ⟨hx, hy⟩ := List.of_mem_zip hxy
    obtain ⟨z, hz, hname, hagrees⟩ := heach x (hl.mem_iff.mpr hx)
    have hzy : z = y := List.inj_on_of_nodup_map hdistinct hz hy (hname.trans (hsame.2 hxy))
    exact hzy ▸ hagrees
  · rintro ⟨l, hl, hagrees⟩
    have hleft : ∀ x ∈ a, ∃ y ∈ b, R x y := fun x hx => exists_of_mem_left hagrees (hl.mem_iff.mp hx)
    have hright : ∀ y ∈ b, ∃ x ∈ a, R x y := by
      intro y hy
      obtain ⟨x, hx, hxy⟩ := exists_of_mem_left hagrees.flip hy
      exact ⟨x, hl.mem_iff.mpr hx, hxy⟩
    refine ⟨hl.length_eq.trans hagrees.length_eq, ?_, ?_⟩
    · simp only [sameNames, Bool.and_eq_true, List.all_eq_true, List.any_eq_true, beq_iff_eq]
      constructor
      · intro x hx
        obtain ⟨y, hy, hxy⟩ := hleft x hx
        exact ⟨y, hy, (hR x y hxy).symm⟩
      · intro y hy
        obtain ⟨x, hx, hxy⟩ := hright y hy
        exact ⟨x, hx, hR x y hxy⟩
    · intro x hx
      obtain ⟨y, hy, hxy⟩ := hleft x hx
      exact ⟨y, hy, (hR x y hxy).symm, hxy⟩

/-- What is found by name among distinct names agrees exactly if something of the name does. -/
theorem found_iff {R : α → α → Prop} {same : α → α → Bool} (hdistinct : (b.map name).Nodup)
    (hR : ∀ x y, R x y ↔ name x = name y ∧ same x y = true) (x : α) :
    (b.find? fun y => name y == name x).any (same x) = true ↔ ∃ y ∈ b, name y = name x ∧ R x y := by
  rw [Option.any_eq_true]
  constructor
  · rintro ⟨y, hfound, hsame⟩
    have hname := List.find?_some (p := fun y => name y == name x) hfound
    rw [beq_iff_eq] at hname
    exact ⟨y, List.mem_of_find?_eq_some hfound, hname, (hR x y).mpr ⟨hname.symm, hsame⟩⟩
  · rintro ⟨y, hy, hname, hagrees⟩
    rw [← hname, find?_name name hdistinct hy]
    exact ⟨y, rfl, ((hR x y).mp hagrees).2⟩

end

/-- Environments whose desired names are distinct are the same exactly if the live one can be rearranged to agree. -/
theorem sameEnv_iff_rearranged {live desired : List EnvVar} (hdistinct : (desired.map (·.name)).Nodup) :
    sameEnv live desired = true ↔ Rearranged EnvVar.Agrees live desired := by
  rw [← named_iff_rearranged hdistinct fun x y h => h.name]
  simp only [sameEnv, Bool.and_eq_true, beq_iff_eq, List.all_eq_true, and_assoc]
  refine and_congr_right fun _ => and_congr_right fun _ => forall₂_congr fun x _ => ?_
  rw [← found_iff hdistinct (fun x y => agrees_iff_sameValue) x]
  cases desired.find? fun y => y.name == x.name <;> rfl

/-- Lists of volumes whose desired names are distinct are the same exactly if the live one can be rearranged to agree. -/
theorem sameVolumes_iff_rearranged {live desired : List Volume} (hdistinct : (desired.map (·.name)).Nodup) :
    sameVolumes live desired = true ↔ Rearranged Volume.Agrees live desired := by
  have hreverse : (desired.reverse.map (·.name)).Nodup := by
    rw [List.map_reverse]
    exact List.nodup_reverse.mpr hdistinct
  rw [← named_iff_rearranged hdistinct fun x y h => h.name]
  simp only [sameVolumes, Bool.and_eq_true, beq_iff_eq, List.all_eq_true, and_assoc]
  refine and_congr_right fun _ => and_congr_right fun _ => forall₂_congr fun x _ => ?_
  -- among distinct names the last volume of a name is the only one
  have hfound := found_iff hreverse (fun x y => agrees_iff_sameSource) x
  simp only [List.mem_reverse] at hfound
  rw [← hfound]
  cases desired.reverse.find? fun y => y.name == x.name <;> rfl

/-- A comparison that is one of rearrangements does not depend on the order of either list. -/
theorem reordered_eq {α : Type} {R : α → α → Prop} {name : α → String} {same : List α → List α → Bool}
    (hsame : ∀ {a b : List α}, (b.map name).Nodup → (same a b = true ↔ Rearranged R a b)) {a a' b b' : List α}
    (hdistinct : (b.map name).Nodup) (ha : a.Perm a') (hb : b.Perm b') : same a' b' = same a b := by
  have hdistinct' : (b'.map name).Nodup := (hb.map name).nodup_iff.mp hdistinct
  rw [Bool.eq_iff_iff, hsame hdistinct, hsame hdistinct']
  exact ⟨fun h => h.reorder ha.symm hb.symm, fun h => h.reorder ha hb⟩

/-- Environments and lists of volumes whose desired names are distinct are the same exactly if the live one can be rearranged so that
it agrees with the desired one, element by element; the order of either list makes no difference. -/
theorem same_iff_rearranged :
    (∀ live desired : List EnvVar, (desired.map (·.name)).Nodup →
      (sameEnv live desired = true ↔ Rearranged EnvVar.Agrees live desired) ∧
      ∀ live' desired', live.Perm live' → desired.Perm desired' → sameEnv live' desired' = sameEnv live desired) ∧
    ∀ live desired : List Volume, (desired.map (·.name)).Nodup →
      (sameVolumes live desired = true ↔ Rearranged Volume.Agrees live desired) ∧
      ∀ live' desired', live.Perm live' → desired.Perm desired' → sameVolumes live' desired' = sameVolumes live desired := by
  constructor
  · intro live desired hdistinct
    exact ⟨sameEnv_iff_rearranged hdistinct, fun live' desired' => reordered_eq sameEnv_iff_rearranged hdistinct⟩
  · intro live desired hdistinct
    exact ⟨sameVolumes_iff_rearranged hdistinct, fun live' desired' => reordered_eq sameVolumes_iff_rearranged hdistinct⟩

/-- Two variables and two volumes that are listed the other way round are the same, and the live ones can be rearranged. -/
theorem same_iff_rearranged_swapped :
    (sameEnv [⟨"B", none, none⟩, ⟨"A", some "1", none⟩] [⟨"A", some "1", none⟩, ⟨"B", some "", none⟩] = true ∧
      Rearranged EnvVar.Agrees [⟨"B", none, none⟩, ⟨"A", some "1", none⟩] [⟨"A", some "1", none⟩, ⟨"B", some "", none⟩]) ∧
    Rearranged Volume.Agrees [{ name := "ca", hostPath := some { path := "/ca" } }, { name := "tls", secret := some {} }]
      [{ name := "tls", secret := some {} }, { name := "ca", hostPath := some { path := "/ca" } }] := by
  have henv := (same_iff_rearranged.1 [⟨"B", none, none⟩, ⟨"A", some "1", none⟩] [⟨"A", some "1", none⟩, ⟨"B", some "", none⟩]
    (by decide)).1
  have hvolumes := (same_iff_rearranged.2
    [{ name := "ca", hostPath := some { path := "/ca" } }, { name := "tls", secret := some {} }]
    [{ name := "tls", secret := some {} }, { name := "ca", hostPath := some { path := "/ca" } }] (by decide)).1
  exact ⟨⟨by decide, henv.mp (by decide)⟩, hvolumes.mp (by decide)⟩

end Drift

end IngressOperator
