import IngressOperator.Json.Basic

/-!
# The objects of a cluster

A cluster keeps every object as JSON under its kind, its namespace and its name, and lists the objects of a kind by namespace and
name.

## Main statements

* `Objects.get?_put`, `Objects.get?_erase`: a change is seen under its own key and nowhere else.
-/

namespace IngressOperator

/-- What an object is found by. -/
structure ObjectKey where
  kind : String
  ns : String
  name : String
deriving DecidableEq, Inhabited

namespace ObjectKey

/-- The key in words. -/
def text (k : ObjectKey) : String := s!"{k.kind} {k.ns}/{k.name}"

/-- The key of an object of a kind; what its metadata do not say is empty. -/
def ofObject (kind : String) (object : Json) : ObjectKey :=
  let said (member : String) : String := ((object.path? ["metadata", member]).bind Json.str?).getD ""
  ⟨kind, said "namespace", said "name"⟩

end ObjectKey

/-- The objects of a cluster. -/
structure Objects where
  /-- The objects by kind, namespace and name. -/
  byKind : Dict (Dict (Dict Json)) := ∅

namespace Objects

instance : EmptyCollection Objects := ⟨{}⟩

instance : Inhabited Objects := ⟨∅⟩

/-- The objects of a kind by namespace and name. -/
def ofKind (o : Objects) (kind : String) : Dict (Dict Json) := (o.byKind.get? kind).getD ∅

/-- The objects of a kind in a namespace by name. -/
def within (o : Objects) (kind ns : String) : Dict Json := ((o.ofKind kind).get? ns).getD ∅

/-- The object under a key. -/
def get? (o : Objects) (k : ObjectKey) : Option Json := (o.within k.kind k.ns).get? k.name

/-- Puts other objects into a namespace. -/
def replace (o : Objects) (kind ns : String) (objects : Dict Json) : Objects :=
  ⟨o.byKind.insert kind ((o.ofKind kind).insert ns objects)⟩

/-- Puts an object under a key. -/
def put (o : Objects) (k : ObjectKey) (object : Json) : Objects :=
  o.replace k.kind k.ns ((o.within k.kind k.ns).insert k.name object)

/-- Removes the object under a key. -/
def erase (o : Objects) (k : ObjectKey) : Objects := o.replace k.kind k.ns ((o.within k.kind k.ns).erase k.name)

/-- All objects in the order of their keys. -/
def toList (o : Objects) : List (ObjectKey × Json) :=
  o.byKind.toList.flatMap fun kind => kind.2.toList.flatMap fun ns => ns.2.toList.map fun e => (⟨kind.1, ns.1, e.1⟩, e.2)

/-- The objects that are not what they were; `none` is said of one that is gone. -/
def changes (before after : Objects) : List (ObjectKey × Option Json) :=
  let written := after.toList.filter fun e => before.get? e.1 != some e.2
  let gone := before.toList.filter fun e => (after.get? e.1).isNone
  written.map (fun e => (e.1, some e.2)) ++ gone.map fun e => (e.1, none)

theorem within_replace {o : Objects} {kind ns kind' ns' : String} {objects : Dict Json} :
    (o.replace kind ns objects).within kind' ns' =
      if compare kind' kind = .eq ∧ compare ns' ns = .eq then objects else o.within kind' ns' := by
  simp only [within, replace, ofKind, SortedMap.get?_insert]
  by_cases hk : compare kind' kind = .eq
  · have := Std.LawfulEqCmp.eq_of_compare hk
    subst this
    by_cases hn : compare ns' ns = .eq <;> simp [hn, SortedMap.get?_insert]
  · simp [hk]

/-- What is put under a key is found there, and nothing else has changed. -/
theorem get?_put {o : Objects} {j k : ObjectKey} {object : Json} :
    (o.put k object).get? j = if j = k then some object else o.get? j := by
  obtain ⟨jk, jn, jm⟩ := j
  obtain ⟨kk, kn, km⟩ := k
  simp only [get?, put, within_replace, Std.LawfulEqCmp.compare_eq_iff_eq, ObjectKey.mk.injEq]
  by_cases h : jk = kk ∧ jn = kn
  · obtain ⟨rfl, rfl⟩ := h
    simp [SortedMap.get?_insert]
  · rw [if_neg h, if_neg fun e => h ⟨e.1, e.2.1⟩]

/-- What is removed is not found any more, and nothing else has changed. -/
theorem get?_erase {o : Objects} {j k : ObjectKey} : (o.erase k).get? j = if j = k then none else o.get? j := by
  obtain ⟨jk, jn, jm⟩ := j
  obtain ⟨kk, kn, km⟩ := k
  simp only [get?, erase, within_replace, Std.LawfulEqCmp.compare_eq_iff_eq, ObjectKey.mk.injEq]
  by_cases h : jk = kk ∧ jn = kn
  · obtain ⟨rfl, rfl⟩ := h
    simp [SortedMap.get?_erase]
  · rw [if_neg h, if_neg fun e => h ⟨e.1, e.2.1⟩]

end Objects

end IngressOperator
