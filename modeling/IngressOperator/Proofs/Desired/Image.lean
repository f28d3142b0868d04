import IngressOperator.Desired.Deployment
import IngressOperator.Proofs.Text.Trim

/-!
# The image of the operand

An image is written as a registry, a repository and a tag, of which the first and the last may be missing. What a user writes around
the repository does not matter, nor do blanks around the registry and slashes right after it. But slashes that stand after a blank
leave it there, and a tag stands as it was written.

## Main statements

* `Desired.registryOf_eq_iff`: what is kept of a registry.
* `Desired.image_of_parts`: which image is used, and when two ways to write it give the same one.
-/

namespace IngressOperator.Desired

open Text

/-! ### Parts of an image -/

/-- The specification with another registry, repository and tag of the image. -/
def withImage (spec : IngressSpec) (registry repository tag : String) : IngressSpec :=
  { spec with imageRegistry := registry, image := { repository := repository, tag := tag } }

/-- An image as it is written: a registry and a slash, unless there is none, a repository, and a colon and a tag, unless there is
none. -/
def imageOf (registry repository tag : List Char) : List Char :=
  (if registry = [] then [] else registry ++ ['/']) ++ (repository ++ if tag = [] then [] else ':' :: tag)

/-- Whether this is kept of a registry: what is left without the blanks around it and the slashes before those at the end. It does
not end in a slash, and it does not end in a blank unless slashes follow. -/
structure RegistryPart (registry kept : List Char) : Prop where
  text : ∃ before count after, registry = before ++ (kept ++ List.replicate count '/' ++ after) ∧
    Blank before ∧ Blank after ∧ (count = 0 → EndsSolid kept)
  begins : BeginsSolid kept
  ends : kept.getLast? ≠ some '/'

/-! ### Registries -/

section

variable {kept before after : List Char}

/-- No blank is among slashes. -/
theorem solid_of_mem_slashes {count : Nat} : ∀ c ∈ List.replicate count '/', isBlank c = false := by
  intro c hc
  rw [List.eq_of_mem_replicate hc]
  decide

theorem endsSolid_append_slashes (cs : List Char) (count : Nat) :
    EndsSolid (cs ++ List.replicate count '/') ↔ (count = 0 → EndsSolid cs) := by
  cases count with
  | zero => simp
  | succ count =>
    rw [endsSolid_append (by simp)]
    exact iff_of_true (endsSolid_of_forall solid_of_mem_slashes) nofun

/-- What is kept of a registry. -/
theorem registryOf_eq_iff {text : String} : registryOf text = kept ↔ RegistryPart text.toList kept := by
  rw [registryOf, dropEndWhile_eq_iff]
  constructor
  · rintro ⟨⟨count, htrim⟩, hlast⟩
    obtain ⟨⟨before, after, htext, hbefore, hafter⟩, hbegins, hends⟩ := trim_eq_iff.mp htrim
    have hends := (endsSolid_append_slashes kept count).mp hends
    exact ⟨⟨before, count, after, htext, hbefore, hafter, hends⟩, hbegins.of_append, hlast⟩
  · rintro ⟨⟨before, count, after, htext, hbefore, hafter, hends⟩, hbegins, hlast⟩
    refine ⟨⟨count, trim_eq_iff.mpr ⟨⟨before, after, htext, hbefore, hafter⟩, ?_, ?_⟩⟩, hlast⟩
    · exact beginsSolid_append hbegins (beginsSolid_of_forall solid_of_mem_slashes)
    · exact (endsSolid_append_slashes kept count).mpr hends

/-- Nothing is kept of blanks. -/
theorem registryOf_blank {text : String} (h : Blank text.toList) : registryOf text = [] := by
  rw [registryOf, trim_eq_nil_iff.mpr h]
  rfl

/-- Blanks after a registry do not matter. -/
theorem registryOf_append_blank {text ending : String} (h : Blank ending.toList) :
    registryOf (text ++ ending) = registryOf text := by
  rw [registryOf, String.toList_append]
  exact congrArg (dropEndWhile (· == '/')) (trim_surrounded blank_nil h text.toList)

/-- Blanks that stand before slashes are kept with what is before them. -/
theorem registryOf_slashed {text ending : String} {count : Nat} (hafter : Blank after)
    (hending : ending.toList = before ++ (List.replicate (count + 1) '/' ++ after)) :
    registryOf (text ++ ending) = dropEndWhile (· == '/') ((text.toList ++ before).dropWhile isBlank) := by
  have htrim : trim (text ++ ending).toList = (text.toList ++ before).dropWhile isBlank ++ List.replicate (count + 1) '/' := calc
    trim (text ++ ending).toList = trim ([] ++ (text.toList ++ before ++ List.replicate (count + 1) '/' ++ after)) := by
      rw [String.toList_append, hending, List.nil_append, List.append_assoc, List.append_assoc]
    _ = trim (text.toList ++ before ++ List.replicate (count + 1) '/') := trim_surrounded blank_nil hafter _
    _ = (text.toList ++ before).dropWhile isBlank ++ List.replicate (count + 1) '/' :=
      trim_append (by simp) (beginsSolid_of_forall solid_of_mem_slashes) (endsSolid_of_forall solid_of_mem_slashes) _
  rw [registryOf, htrim]
  exact dropEndWhile_append_of_all fun c hc => beq_iff_eq.mpr (List.eq_of_mem_replicate hc)

/-- What ends in a blank ends in no slash. -/
theorem dropEndWhile_slash_of_blank {cs : List Char} (h : ¬ EndsSolid cs) : dropEndWhile (· == '/') cs = cs := by
  refine dropEndWhile_eq_iff.mpr ⟨⟨0, (List.append_nil cs).symm⟩, fun hlast => h fun c hc => ?_⟩
  cases hlast.symm.trans hc
  decide

/-- The blanks at the end may be dropped before the slashes are, or not, exactly if there are none. -/
theorem dropEndWhile_slash_iff {cs : List Char} :
    dropEndWhile (· == '/') cs = dropEndWhile (· == '/') (dropEndWhile isBlank cs) ↔ EndsSolid cs := by
  constructor
  · intro h
    by_contra hblank
    rw [dropEndWhile_slash_of_blank hblank] at h
    -- no more is left without the blanks than with them
    have hlength : cs.length ≤ (dropEndWhile isBlank cs).length := by
      rw [congrArg List.length h]
      exact (List.rdropWhile_prefix (· == '/') _).length_le
    have hall : dropEndWhile isBlank cs = cs := (List.rdropWhile_prefix isBlank cs).eq_of_length_le hlength
    exact hblank (dropEndWhile_eq_iff_of_class.mp hall).2
  · intro h
    rw [h.dropEndWhile_eq]

/-- No more is kept of a registry than there is without the blanks at its beginning. -/
theorem length_registryOf_le (text : String) : (registryOf text).length ≤ (text.toList.dropWhile isBlank).length :=
  ((List.rdropWhile_prefix (· == '/') _).trans (List.rdropWhile_prefix isBlank _)).length_le

/-- Blanks and slashes that are not blank are slashes with blanks after them and, before them, nothing or what ends in a blank. -/
theorem exists_slashes {ending : List Char} (hmix : ∀ c ∈ ending, isBlank c = true ∨ c = '/') (hsolid : ¬ Blank ending) :
    ∃ before count after, ending = before ++ (List.replicate (count + 1) '/' ++ after) ∧ Blank after ∧
      (before ≠ [] → ¬ EndsSolid before) := by
  obtain ⟨⟨after, hending, hafter⟩, hends⟩ := dropEndWhile_eq_iff_of_class.mp (rfl : dropEndWhile isBlank ending = _)
  generalize dropEndWhile isBlank ending = rest at hending hends
  obtain ⟨⟨count, hrest⟩, hlast⟩ := dropEndWhile_eq_iff.mp (rfl : dropEndWhile (· == '/') rest = _)
  generalize dropEndWhile (· == '/') rest = before at hrest hlast
  subst hrest hending
  -- the last character of what is a mix is a blank or a slash
  have hbefore : before ≠ [] → ¬ EndsSolid before := by
    intro hne hsolid'
    have hend := List.getLast?_eq_some_getLast hne
    rcases hmix (before.getLast hne) (by simp [List.getLast_mem hne]) with hblank | hslash
    · rw [hsolid' _ hend] at hblank
      cases hblank
    · exact hlast (hslash ▸ hend)
  cases count with
  | succ count => exact ⟨before, count, after, List.append_assoc _ _ _, hafter, hbefore⟩
  | zero =>
    rw [List.replicate_zero, List.append_nil] at hends hsolid
    have hnone : before = [] := by_contra fun hne => hbefore hne hends
    exact absurd (hnone ▸ hafter) hsolid

/-- Blanks and slashes after a registry do not matter exactly if they are blanks, or slashes with blanks after them and nothing but
blanks before them or a registry that does not end in a blank. -/
theorem registryOf_append_iff {text ending : String} (hmix : ∀ c ∈ ending.toList, isBlank c = true ∨ c = '/') :
    registryOf (text ++ ending) = registryOf text ↔ Blank ending.toList ∨
      ∃ before count after, ending.toList = before ++ (List.replicate count '/' ++ after) ∧ Blank after ∧
        (Blank (text.toList ++ before) ∨ before = [] ∧ EndsSolid text.toList) := by
  constructor
  · intro h
    by_cases hblank : Blank ending.toList
    · exact .inl hblank
    obtain ⟨before, count, after, hending, hafter, hbefore⟩ := exists_slashes hmix hblank
    refine .inr ⟨before, count + 1, after, hending, hafter, ?_⟩
    rw [registryOf_slashed hafter hending] at h
    by_cases hnone : before = []
    · rw [hnone, List.append_nil, registryOf, trim, dropEndWhile_slash_iff, endsSolid_dropWhile] at h
      rw [hnone, List.append_nil]
      exact h.imp_right fun hends => ⟨rfl, hends⟩
    · -- what ends in a blank is kept as a whole, which is more than the registry alone
      left
      by_contra hsolid
      have hends : ¬ EndsSolid ((text.toList ++ before).dropWhile isBlank) := by
        rw [endsSolid_dropWhile, or_iff_right hsolid, endsSolid_append hnone]
        exact hbefore hnone
      rw [dropEndWhile_slash_of_blank hends, List.dropWhile_append] at h
      split at h
      · next hempty =>
        have htext : Blank text.toList := dropWhile_eq_nil_iff.mp (List.isEmpty_iff.mp hempty)
        rw [registryOf_blank htext, dropWhile_eq_nil_iff] at h
        exact hsolid (blank_append.mpr ⟨htext, h⟩)
      · have hlength := length_registryOf_le text
        have hpos := List.length_pos_iff.mpr hnone
        rw [← h, List.length_append] at hlength
        omega
  · rintro (hblank | ⟨before, count, after, hending, hafter, hbefore⟩)
    · exact registryOf_append_blank hblank
    · cases count with
      | zero =>
        refine registryOf_append_blank ?_
        rw [hending, blank_append]
        rcases hbefore with hbefore | ⟨rfl, -⟩
        · exact ⟨(blank_append.mp hbefore).2, hafter⟩
        · exact ⟨blank_nil, hafter⟩
      | succ count =>
        rw [registryOf_slashed hafter hending]
        rcases hbefore with hbefore | ⟨rfl, hends⟩
        · rw [dropWhile_eq_nil_iff.mpr hbefore, registryOf_blank (blank_append.mp hbefore).1]
          rfl
        · rw [List.append_nil, registryOf, trim, dropEndWhile_slash_iff, endsSolid_dropWhile]
          exact .inr hends

end

/-! ### Images -/

section

variable {spec : IngressSpec} {registry registry' repository repository' tag tag' : String} {fallback : Option String}

/-- If a repository is named, the image is that of its parts. -/
theorem operandImage_of_repository (h : ¬ Blank repository.toList) :
    operandImage (withImage spec registry repository tag) fallback =
      .ok (String.ofList (imageOf (registryOf registry) (trim repository.toList) tag.toList)) := by
  have hnamed : (trim repository.toList).isEmpty = false := by
    rw [← Bool.not_eq_true, List.isEmpty_iff, trim_eq_nil_iff]
    exact h
  unfold operandImage withImage imageOf
  simp only [hnamed, List.isEmpty_iff]
  by_cases hregistry : registryOf registry = [] <;> by_cases htag : tag.toList = [] <;> simp [hregistry, htag]

/-- If no repository is named, the image is the fallback. -/
theorem operandImage_of_blank (h : Blank repository.toList) :
    operandImage (withImage spec registry repository tag) fallback =
      match fallback.filter fun image => !image.isEmpty with
      | some image => .ok image
      | none => .error (.invalidArgument .noOperandImage) := by
  have hunnamed : (trim repository.toList).isEmpty = true := by
    rw [List.isEmpty_iff, trim_eq_nil_iff]
    exact h
  unfold operandImage withImage
  simp only [hunnamed]
  rfl

theorem imageOf_registry_inj {r r' p t : List Char} : imageOf r p t = imageOf r' p t ↔ r = r' := by
  rw [imageOf, imageOf, List.append_left_inj]
  cases r with
  | nil => cases r' <;> simp
  | cons c r => cases r' <;> simp

theorem imageOf_tag_inj {r p t t' : List Char} : imageOf r p t = imageOf r p t' ↔ t = t' := by
  rw [imageOf, imageOf, List.append_right_inj, List.append_right_inj]
  cases t with
  | nil => cases t' <;> simp
  | cons c t => cases t' <;> simp

/-- Of a registry and a repository only what is left of them matters. -/
theorem operandImage_congr (hregistry : registryOf registry = registryOf registry')
    (hrepository : trim repository.toList = trim repository'.toList) :
    operandImage (withImage spec registry repository tag) fallback =
      operandImage (withImage spec registry' repository' tag) fallback := by
  unfold operandImage withImage
  simp only [hregistry, hrepository]

/-- Two registries give the same image only if the same is left of them, unless no repository is named. -/
theorem operandImage_registry_iff :
    operandImage (withImage spec registry repository tag) fallback =
        operandImage (withImage spec registry' repository tag) fallback ↔
      Blank repository.toList ∨ registryOf registry = registryOf registry' := by
  by_cases h : Blank repository.toList
  · exact iff_of_true (by rw [operandImage_of_blank h, operandImage_of_blank h]) (.inl h)
  · rw [operandImage_of_repository h, operandImage_of_repository h, or_iff_right h, Except.ok.injEq, String.ofList_inj,
      imageOf_registry_inj]

/-- Two tags give the same image only if they are the same, unless no repository is named. -/
theorem operandImage_tag_iff :
    operandImage (withImage spec registry repository tag) fallback =
        operandImage (withImage spec registry repository tag') fallback ↔
      Blank repository.toList ∨ tag = tag' := by
  by_cases h : Blank repository.toList
  · exact iff_of_true (by rw [operandImage_of_blank h, operandImage_of_blank h]) (.inl h)
  · rw [operandImage_of_repository h, operandImage_of_repository h, or_iff_right h, Except.ok.injEq, String.ofList_inj,
      imageOf_tag_inj, String.toList_inj]

/-- The image is made of what is kept of the registry, of the repository without the blanks around it and of the tag as it stands,
and is the fallback if no repository is named. Blanks around the registry and the repository do not matter. Blanks and slashes after
the registry do not matter exactly if no blank stands between what is kept of it and a slash; and of two tags each gives an image of
its own, be it that they differ in blanks only. -/
theorem image_of_parts (spec : IngressSpec) (registry repository tag : String) (fallback : Option String) :
    (¬ Blank repository.toList → ∃ kept trimmed, RegistryPart registry.toList kept ∧ Trimmed repository.toList trimmed ∧
      operandImage (withImage spec registry repository tag) fallback = .ok (String.ofList (imageOf kept trimmed tag.toList))) ∧
    (Blank repository.toList → operandImage (withImage spec registry repository tag) fallback =
      match fallback.filter fun image => !image.isEmpty with
      | some image => .ok image
      | none => .error (.invalidArgument .noOperandImage)) ∧
    (∀ before after before' after' : String,
      Blank before.toList → Blank after.toList → Blank before'.toList → Blank after'.toList →
      operandImage (withImage spec (before ++ (registry ++ after)) (before' ++ (repository ++ after')) tag) fallback =
        operandImage (withImage spec registry repository tag) fallback) ∧
    (∀ ending : String, (∀ c ∈ ending.toList, isBlank c = true ∨ c = '/') →
      (operandImage (withImage spec (registry ++ ending) repository tag) fallback =
          operandImage (withImage spec registry repository tag) fallback ↔
        Blank repository.toList ∨ Blank ending.toList ∨
          ∃ before count after, ending.toList = before ++ (List.replicate count '/' ++ after) ∧ Blank after ∧
            (Blank (registry.toList ++ before) ∨ before = [] ∧ EndsSolid registry.toList))) ∧
    ∀ tag', operandImage (withImage spec registry repository tag') fallback =
        operandImage (withImage spec registry repository tag) fallback ↔ Blank repository.toList ∨ tag' = tag := by
  refine ⟨fun h => ?_, operandImage_of_blank, ?_, ?_, fun tag' => operandImage_tag_iff⟩
  · exact ⟨_, _, registryOf_eq_iff.mp rfl, trim_eq_iff.mp rfl, operandImage_of_repository h⟩
  · intro before after before' after' hbefore hafter hbefore' hafter'
    refine operandImage_congr ?_ ?_
    · rw [registryOf, String.toList_append, String.toList_append, trim_surrounded hbefore hafter, registryOf]
    · rw [String.toList_append, String.toList_append, trim_surrounded hbefore' hafter']
  · intro ending hmix
    rw [operandImage_registry_iff, registryOf_append_iff hmix]

end

/-- A registry with blanks around it and slashes at its end, and a repository between blanks, give the image that they give
without. -/
theorem image_of_parts_spaced :
    operandImage (withImage {} " \t quay.io/ops// \n" "\u00A0ingress " "1.0") none = .ok "quay.io/ops/ingress:1.0" := by
  obtain ⟨-, -, hspaced, -, -⟩ := image_of_parts {} "quay.io/ops//" "ingress" "1.0" none
  obtain ⟨-, -, -, hslashed, -⟩ := image_of_parts {} "quay.io/ops" "ingress" "1.0" none
  have hsolid : EndsSolid "quay.io/ops".toList := by decide
  calc operandImage (withImage {} " \t quay.io/ops// \n" "\u00A0ingress " "1.0") none
    _ = operandImage (withImage {} "quay.io/ops//" "ingress" "1.0") none :=
      hspaced " \t " " \n" "\u00A0" " " (by decide) (by decide) (by decide) (by decide)
    _ = operandImage (withImage {} "quay.io/ops" "ingress" "1.0") none :=
      (hslashed "//" (by simp)).mpr (.inr (.inr ⟨[], 2, [], rfl, blank_nil, .inr ⟨rfl, hsolid⟩⟩))
    _ = .ok "quay.io/ops/ingress:1.0" := by decide

/-- A blank before a slash at the end of a registry is kept in the image, and so are blanks around a tag. -/
theorem blanks_reach_image :
    (¬ ∀ (spec : IngressSpec) (registry ending repository tag : String) (fallback : Option String),
      (∀ c ∈ ending.toList, isBlank c = true ∨ c = '/') →
        operandImage (withImage spec (registry ++ ending) repository tag) fallback =
          operandImage (withImage spec registry repository tag) fallback) ∧
    ¬ ∀ (spec : IngressSpec) (registry repository before tag after : String) (fallback : Option String),
      Blank before.toList → Blank after.toList →
        operandImage (withImage spec registry repository (before ++ (tag ++ after))) fallback =
          operandImage (withImage spec registry repository tag) fallback := by
  constructor
  · intro hclaim
    have hsame := hclaim {} "quay.io" " /" "ingress" "1.0" none (by simp [isBlank])
    have hkept : operandImage (withImage {} "quay.io /" "ingress" "1.0") none = .ok "quay.io /ingress:1.0" := by decide
    have hwanted : operandImage (withImage {} "quay.io" "ingress" "1.0") none = .ok "quay.io/ingress:1.0" := by decide
    rw [hwanted] at hsame
    exact absurd (hkept.symm.trans hsame) (by decide)
  · intro hclaim
    have hsame := hclaim {} "quay.io" "ingress" " " "1.0" " " none (by decide) (by decide)
    have hkept : operandImage (withImage {} "quay.io" "ingress" " 1.0 ") none = .ok "quay.io/ingress: 1.0 " := by decide
    have hwanted : operandImage (withImage {} "quay.io" "ingress" "1.0") none = .ok "quay.io/ingress:1.0" := by decide
    rw [hwanted] at hsame
    exact absurd (hkept.symm.trans hsame) (by decide)

end IngressOperator.Desired
