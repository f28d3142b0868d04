import IngressOperator.Console
import IngressOperator.Proofs.Text.Split

/-!
# The address in a URL

The console publishes a URL of the form `https://host:port`. What is read from it is what is left without any number of schemes
before and slashes after, divided at the last colon. So every URL of that form gives its host and its port, but it is not looked
whether the scheme was there, nor whether what is left is a host and a port at all.

## Main statements

* `Console.address?_eq_some_iff`: the address that is read from a URL.
* `Console.read_address`: what is read of a configuration, given the URL that it holds.
-/

namespace IngressOperator.Console

/-! ### URLs and addresses -/

/-- What stands before the host. -/
def scheme : List Char := "https://".toList

/-- An address as it stands in a URL. -/
def hostPort (a : ApiAddress) : List Char := a.host.toList ++ ':' :: a.port.toList

/-- A number of slashes after the address. -/
def slashes (count : Nat) : List Char := List.replicate count '/'

/-- Whether a URL is of the stated form, with this host and this port: the scheme stands before a host, which has no slash, and a
colon and digits after it, and at most slashes follow. -/
structure States (url : String) (a : ApiAddress) : Prop where
  text : ∃ count, url.toList = scheme ++ (hostPort a ++ slashes count)
  host_ne : a.host ≠ ""
  host_plain : '/' ∉ a.host.toList
  port_ne : a.port ≠ ""
  port_digits : ∀ c ∈ a.port.toList, Digits.isDigit c = true

/-- Whether an address is what is left of a URL: as many schemes as there are before it are dropped, and the slashes after it, and
its port is what stands after the last colon. -/
structure Leaves (url : String) (a : ApiAddress) : Prop where
  text : ∃ schemes count, url.toList = (List.replicate schemes scheme).flatten ++ (hostPort a ++ slashes count) ∧
    ¬ scheme <+: hostPort a ++ slashes count
  host_ne : a.host ≠ ""
  port_ne : a.port ≠ ""
  port_plain : ':' ∉ a.port.toList
  port_end : a.port.toList.getLast? ≠ some '/'

/-! ### Repeated beginnings -/

section

variable {beginning cs rest : List Char} {fuel : Nat}

/-- Repetitions of a beginning are dropped up to where the text begins otherwise. -/
theorem dropAll_append (hne : beginning ≠ []) (hother : ¬ beginning <+: rest) (count : Nat)
    (hfuel : ((List.replicate count beginning).flatten ++ rest).length ≤ fuel) :
    dropAll beginning fuel ((List.replicate count beginning).flatten ++ rest) = rest := by
  have hpos : 0 < beginning.length := List.length_pos_iff.mpr hne
  induction fuel generalizing count with
  | zero =>
    have hnil := List.length_eq_zero_iff.mp (Nat.le_zero.mp hfuel)
    rw [dropAll, hnil, (List.append_eq_nil_iff.mp hnil).2]
  | succ fuel ih =>
    cases count with
    | zero =>
      have hbegins : beginning.isPrefixOf rest = false := by
        rwa [← Bool.not_eq_true, List.isPrefixOf_iff_prefix]
      simp [dropAll, hbegins]
    | succ count =>
      rw [List.replicate_succ, List.flatten_cons, List.append_assoc] at hfuel ⊢
      rw [List.length_append] at hfuel
      have hbegins : beginning.isPrefixOf (beginning ++ ((List.replicate count beginning).flatten ++ rest)) = true :=
        List.isPrefixOf_iff_prefix.mpr (List.prefix_append _ _)
      rw [dropAll, if_pos hbegins, List.drop_left]
      exact ih count (by omega)

/-- A text is a number of repetitions of a beginning and what begins otherwise. -/
theorem exists_repetitions (hne : beginning ≠ []) (cs : List Char) :
    ∃ count rest, cs = (List.replicate count beginning).flatten ++ rest ∧ ¬ beginning <+: rest := by
  have hpos : 0 < beginning.length := List.length_pos_iff.mpr hne
  induction hlength : cs.length using Nat.strongRecOn generalizing cs with
  | ind length ih =>
    by_cases hbegins : beginning <+: cs
    · obtain ⟨tail, rfl⟩ := hbegins
      rw [List.length_append] at hlength
      obtain ⟨count, rest, rfl, hother⟩ := ih tail.length (by omega) tail rfl
      exact ⟨count + 1, rest, by rw [List.replicate_succ, List.flatten_cons, List.append_assoc], hother⟩
    · exact ⟨0, cs, rfl, hbegins⟩

/-- What is left of a text without the repetitions of a beginning begins otherwise. -/
theorem dropAll_eq_iff (hne : beginning ≠ []) (hfuel : cs.length ≤ fuel) :
    dropAll beginning fuel cs = rest ↔
      (∃ count, cs = (List.replicate count beginning).flatten ++ rest) ∧ ¬ beginning <+: rest := by
  constructor
  · rintro rfl
    obtain ⟨count, rest, rfl, hother⟩ := exists_repetitions hne cs
    rw [dropAll_append hne hother count hfuel]
    exact ⟨⟨count, rfl⟩, hother⟩
  · rintro ⟨⟨count, rfl⟩, hother⟩
    exact dropAll_append hne hother count hfuel

end

/-! ### The address of a URL -/

section

variable {url : String} {a : ApiAddress}

/-- What is left of a URL without the schemes before and the slashes after it. -/
def left (url : String) : List Char := Text.dropEndWhile (· == '/') (dropAll scheme url.toList.length url.toList)

theorem left_eq_iff {body : List Char} :
    left url = body ↔
      (∃ schemes count, url.toList = (List.replicate schemes scheme).flatten ++ (body ++ slashes count) ∧
        ¬ scheme <+: body ++ slashes count) ∧ body.getLast? ≠ some '/' := by
  have hdrop {rest : List Char} := @dropAll_eq_iff scheme url.toList rest url.toList.length (by decide) (Nat.le_refl _)
  rw [left, Text.dropEndWhile_eq_iff]
  refine and_congr_left fun _ => ?_
  constructor
  · rintro ⟨count, hrest⟩
    obtain ⟨⟨schemes, htext⟩, hother⟩ := hdrop.mp hrest
    exact ⟨schemes, count, htext, hother⟩
  · rintro ⟨schemes, count, htext, hother⟩
    exact ⟨count, hdrop.mpr ⟨⟨schemes, htext⟩, hother⟩⟩

/-- A host and a port stand before and after the last colon of what is left. -/
theorem address?_eq_some : address? url = some a ↔ left url = hostPort a ∧ ':' ∉ a.port.toList ∧ a.host ≠ "" ∧ a.port ≠ "" := by
  have hleft : Text.dropEndWhile (· == '/') (dropAll "https://".toList url.toList.length url.toList) = left url := rfl
  rw [hostPort, ← and_assoc, ← Text.splitLast?_eq_some_iff]
  simp only [address?, hleft]
  cases Text.splitLast? ':' (left url) with
  | none => simp
  | some parts =>
    obtain ⟨host, port⟩ := parts
    constructor
    · intro h
      dsimp only at h
      split at h
      · cases h
      · next hfilled =>
        cases h
        rw [Bool.or_eq_true, not_or, List.isEmpty_iff, List.isEmpty_iff] at hfilled
        simpa using hfilled
    · rintro ⟨hparts, hhost, hport⟩
      cases hparts
      simp [hhost, hport]

/-- The end of an address is that of its port. -/
theorem getLast?_hostPort (h : a.port ≠ "") : (hostPort a).getLast? = a.port.toList.getLast? := by
  have hne : a.port.toList ≠ [] := fun he => h (String.toList_eq_nil_iff.mp he)
  rw [hostPort, List.getLast?_append_of_ne_nil _ (List.cons_ne_nil _ _), List.getLast?_cons_of_ne_nil hne]

/-- The address that is read from a URL is the one that it leaves. -/
theorem address?_eq_some_iff : address? url = some a ↔ Leaves url a := by
  rw [address?_eq_some, left_eq_iff]
  constructor
  · rintro ⟨⟨htext, hend⟩, hplain, hhost, hport⟩
    exact ⟨htext, hhost, hport, hplain, getLast?_hostPort hport ▸ hend⟩
  · rintro ⟨htext, hhost, hport, hplain, hend⟩
    exact ⟨⟨htext, (getLast?_hostPort hport).symm ▸ hend⟩, hplain, hhost, hport⟩

/-! ### URLs of the stated form -/

/-- A host without slashes and a port of digits do not begin with a scheme. -/
theorem not_scheme_prefix (hhost : '/' ∉ a.host.toList) (hport : a.port ≠ "")
    (hdigits : ∀ c ∈ a.port.toList, Digits.isDigit c = true) (count : Nat) : ¬ scheme <+: hostPort a ++ slashes count := by
  rintro ⟨tail, htail⟩
  have hplain : ∀ c ∈ hostPort a, (c != '/') = true := by
    intro c hc
    rw [hostPort, List.mem_append, List.mem_cons] at hc
    rw [bne_iff_ne]
    rintro rfl
    rcases hc with hc | hc | hc
    · exact hhost hc
    · exact absurd hc (by decide)
    · exact absurd (hdigits '/' hc) (by decide)
  -- up to the first slash there would be a host and a port on one side, and a colon at the end on the other
  have hscheme : (scheme ++ tail).takeWhile (· != '/') = "https:".toList := rfl
  have haddress : (hostPort a ++ slashes count).takeWhile (· != '/') = hostPort a := by
    rw [List.takeWhile_append_of_pos hplain]
    cases count <;> simp [slashes, List.replicate_succ]
  have hcolon : (hostPort a).getLast? = some ':' := by
    rw [← haddress, ← htail, hscheme]
    rfl
  rw [getLast?_hostPort hport] at hcolon
  exact absurd (hdigits ':' (List.mem_of_getLast? hcolon)) (by decide)

/-- A URL of the stated form leaves its host and its port. -/
theorem States.leaves (h : States url a) : Leaves url a where
  text := by
    obtain ⟨count, htext⟩ := h.text
    refine ⟨1, count, ?_, not_scheme_prefix h.host_plain h.port_ne h.port_digits count⟩
    rw [htext]
    simp
  host_ne := h.host_ne
  port_ne := h.port_ne
  port_plain hcolon := absurd (h.port_digits ':' hcolon) (by decide)
  port_end hend := absurd (h.port_digits '/' (List.mem_of_getLast? hend)) (by decide)

end

/-! ### Configurations -/

/-- What is read of a configuration that holds a URL. -/
theorem read_of_url {text url : String} (hurl : (Yaml.Document.read? text).bind url? = some url) :
    read text = match address? url with
      | none => .error (.discovery (.badConsoleUrl url))
      | some address => .ok address := by
  cases ha : address? url <;> simp [read, hurl, ha]

/-- Of a configuration that holds a URL the address is read that the URL leaves, and if it leaves none it is told that the URL is
not of the stated form. Every URL of that form leaves its host and its port; that no other one is read is so of a URL exactly if
it leaves nothing but what it states. -/
theorem read_address {text url : String} (hurl : (Yaml.Document.read? text).bind url? = some url) :
    (∀ a, read text = .ok a ↔ Leaves url a) ∧ ((∀ a, ¬ Leaves url a) → read text = .error (.discovery (.badConsoleUrl url))) ∧
      (∀ a, States url a → read text = .ok a) ∧
      ((∀ a, read text = .ok a ↔ States url a) ↔ ∀ a, Leaves url a → States url a) := by
  have hok (a : ApiAddress) : read text = .ok a ↔ Leaves url a := by
    rw [read_of_url hurl, ← address?_eq_some_iff]
    cases address? url <;> simp
  refine ⟨hok, fun hnone => ?_, fun a hstates => (hok a).mpr hstates.leaves, fun hexact a hleaves => ?_, fun hexact a => ?_⟩
  · rw [read_of_url hurl]
    cases ha : address? url with
    | none => rfl
    | some a => exact absurd (address?_eq_some_iff.mp ha) (hnone a)
  · exact (hexact a).mp ((hok a).mpr hleaves)
  · exact (hok a).trans ⟨hexact a, States.leaves⟩

/-- A configuration whose URL ends in a slash. -/
def slashed : String := "clusterInfo:\n  masterPublicURL: https://api.example.com:6443/\n"

/-- The host and the port of a URL that ends in a slash are read. -/
theorem read_address_slashed :
    (Yaml.Document.read? slashed).bind url? = some "https://api.example.com:6443/" ∧
      States "https://api.example.com:6443/" ⟨"api.example.com", "6443"⟩ ∧ read slashed = .ok ⟨"api.example.com", "6443"⟩ := by
  have hurl : (Yaml.Document.read? slashed).bind url? = some "https://api.example.com:6443/" := by decide +kernel
  have hstates : States "https://api.example.com:6443/" ⟨"api.example.com", "6443"⟩ :=
    ⟨⟨1, by decide⟩, by decide, by decide, by decide, List.all_eq_true.mp (by decide)⟩
  exact ⟨hurl, hstates, (read_address hurl).2.2.1 _ hstates⟩

/-- Of a URL of another scheme an address is read, with the scheme in its host. -/
theorem foreign_scheme_read :
    ¬ ∀ text url, (Yaml.Document.read? text).bind url? = some url → ∀ a, read text = .ok a ↔ States url a := by
  intro hclaim
  have hurl : (Yaml.Document.read? "clusterInfo:\n  masterPublicURL: http://api.example.com:6443\n").bind url? =
      some "http://api.example.com:6443" := by decide +kernel
  have hread : read "clusterInfo:\n  masterPublicURL: http://api.example.com:6443\n" =
      .ok ⟨"http://api.example.com", "6443"⟩ := by
    rw [read_of_url hurl]
    rfl
  have hstates := (hclaim _ _ hurl _).mp hread
  exact hstates.host_plain (by decide)

end IngressOperator.Console
