import IngressOperator.Drift.Object
import IngressOperator.Proofs.Wire.Resources

/-!
# Members without a model, through a merge

A route or a certificate is read, merged with a desired one and written back. Of its specification the fields are then written as
they were merged, and all else as it was read, whatever it is.

## Main statements

* `Unmodelled.rewrites_fill`: what is written of fields and of the members that were read beside them.
* `Drift.unmodelled_rewritten`: what is written of a route or a certificate after a merge.
-/

namespace IngressOperator

namespace Unmodelled

variable {fields : List String} {held : List (String × Option Json)}

/-- Whether an object is what becomes of one that was read, where fields of some names hold something now: it has no name twice, it
has under the names of the fields what they hold, and under any other name what was there, or nothing if nothing was. -/
structure Rewrites (fields : List String) (held : List (String × Option Json)) (read written : Json) : Prop where
  sorted : ∃ ms, written = .obj ms ∧ Entries.Sorted ms
  modelled : ∀ name ∈ fields, written.get? name = Json.field? name held
  unmodelled : ∀ name, name ∉ fields → written.get? name = read.get? name

theorem sorted_insertAll {entries ms : Json.Members} (h : Entries.Sorted ms) : Entries.Sorted (insertAll entries ms) := by
  induction entries with
  | nil => exact h
  | cons e entries ih => exact ih.insert

/-- Fields and the members that were read beside them are written as what becomes of the object that was read. -/
theorem rewrites_fill (h : ∀ name, name ∉ fields → Json.field? name held = none) (ms : Json.Members) :
    Rewrites fields held (.obj ms) ((ofMembers fields ms).fill held) where
  sorted := ⟨_, rfl, sorted_insertAll Json.sorted_recordMembers⟩
  modelled name hname := by rw [find?_fill, if_pos hname]
  unmodelled name hname := by
    rw [find?_fill, if_neg hname, h name hname, Option.or_none]
    exact get?_collect.trans (if_neg hname)

end Unmodelled

/-! ### Specifications of foreign kinds -/

namespace Wire

/-- A specification of which a part has a model: the fields hold something each, under no other names than their own, and all other
members of what is read are kept beside them. -/
class Foreign (α : Type) [Wire α] where
  fields : List String
  held : α → List (String × Option Json)
  extra : α → Unmodelled fields
  encode_eq (x : α) : encode x = (extra x).fill (held x)
  field?_held (x : α) (name : String) (h : name ∉ fields) : Json.field? name (held x) = none
  extra_of_decode? {j : Json} {x : α} (h : decode? j = some x) : ∃ ms, j = .obj ms ∧ extra x = .ofMembers fields ms

/-- A specification with the other members of one that was read is written as what becomes of that one. -/
theorem Foreign.rewrites_encode {α : Type} [Wire α] [Foreign α] {j : Json} {x y : α} (h : decode? j = some x)
    (hextra : extra y = extra x) : Unmodelled.Rewrites (fields α) (held y) j (encode y) := by
  obtain ⟨ms, rfl, hread⟩ := extra_of_decode? h
  rw [encode_eq, hextra, hread]
  exact Unmodelled.rewrites_fill (field?_held y) ms

/-- Only an object has members. -/
theorem eq_obj_of_members? {j : Json} {ms : Json.Members} (h : j.members? = some ms) : j = .obj ms := by
  cases j with
  | obj _ =>
    cases h
    rfl
  | _ => cases h

end Wire

open Wire

/-- What the fields of a route's specification hold, as it is written. -/
def RouteSpec.held (x : RouteSpec) : List (String × Option Json) := [
  text "host" x.host, always "to" x.target, present "port" x.port, present "tls" x.tls, present "wildcardPolicy" x.wildcardPolicy]

instance : Foreign RouteSpec where
  fields := RouteSpec.fields
  held := RouteSpec.held
  extra := RouteSpec.extra
  encode_eq _ := rfl
  field?_held x name h := by
    simp only [RouteSpec.mem_fields, not_or] at h
    simp [RouteSpec.held, h]
  extra_of_decode? h := by
    simp only [decode?, Option.bind_eq_bind, Option.bind_eq_some_iff] at h
    obtain ⟨ms, hms, _, -, _, -, _, -, _, -, _, -, hx⟩ := h
    cases hx
    exact ⟨ms, eq_obj_of_members? hms, rfl⟩

/-- What the fields of a certificate's specification hold, as it is written. -/
def CertificateSpec.held (x : CertificateSpec) : List (String × Option Json) := [
  present "commonName" x.commonName, present "duration" x.duration, present "renewBefore" x.renewBefore,
  always "secretName" x.secretName, always "issuerRef" x.issuerRef, items "dnsNames" x.dnsNames,
  items "ipAddresses" x.ipAddresses, items "usages" x.usages]

instance : Foreign CertificateSpec where
  fields := CertificateSpec.fields
  held := CertificateSpec.held
  extra := CertificateSpec.extra
  encode_eq _ := rfl
  field?_held x name h := by
    simp only [CertificateSpec.mem_fields, not_or] at h
    simp [CertificateSpec.held, h]
  extra_of_decode? h := by
    simp only [decode?, Option.bind_eq_bind, Option.bind_eq_some_iff] at h
    obtain ⟨ms, hms, _, -, _, -, _, -, _, -, _, -, _, -, _, -, _, -, hx⟩ := h
    cases hx
    exact ⟨ms, eq_obj_of_members? hms, rfl⟩

/-! ### Resources -/

namespace Wire

/-- The specification in the JSON of a resource. -/
def specOf? (j : Json) : Option Json := (positional? ["metadata", "spec"] j).bind (Entries.find? "spec")

/-- What is read as the specification stands in the JSON of the resource. -/
theorem specOf?_eq_some {α : Type} [Wire α] {j : Json} {ms : Json.Members} {spec : α}
    (hms : positional? ["metadata", "spec"] j = some ms) (hspec : required? ms "spec" = some spec) :
    ∃ read, specOf? j = some read ∧ decode? read = some spec := by
  obtain ⟨read, hread, hdecode⟩ := Option.bind_eq_some_iff.1 hspec
  refine ⟨read, ?_, hdecode⟩
  rw [specOf?, hms]
  exact hread

/-- The specification of a resource that is written stands under its name. -/
theorem specOf?_record (written : List (String × Option Json)) : specOf? (Json.record written) = Json.field? "spec" written := by
  rw [specOf?, positional?_record, Option.bind_some, Json.find?_recordMembers]

/-- The specification that is written of a resource, with the other members of one that was read, is what becomes of that one,
and it is read back. -/
theorem Foreign.rewrites_spec {α : Type} [Wire α] [Foreign α] [Lawful α] {j j' : Json} {ms : Json.Members} {x y : α}
    (hms : positional? ["metadata", "spec"] j = some ms) (hspec : required? ms "spec" = some x)
    (hwritten : specOf? j' = some (encode y)) (hextra : extra y = extra x) :
    ∃ read written, specOf? j = some read ∧ specOf? j' = some written ∧ decode? written = some y ∧
      Unmodelled.Rewrites (fields α) (held y) read written := by
  obtain ⟨read, hread, hdecode⟩ := specOf?_eq_some hms hspec
  exact ⟨read, encode y, hread, hwritten, decode?_encode y, rewrites_encode hdecode hextra⟩

end Wire

namespace Drift

theorem route_rewritten {j : Json} {live : Route} (h : decode? j = some live) (desired : Route) :
    ∃ read written, specOf? j = some read ∧ specOf? (encode (route live desired).merged) = some written ∧
      decode? written = some (route live desired).merged.spec ∧
      Unmodelled.Rewrites RouteSpec.fields (route live desired).merged.spec.held read written := by
  simp only [decode?, Option.bind_eq_bind, Option.bind_eq_some_iff] at h
  obtain ⟨ms, hms, _, -, spec, hspec, hlive⟩ := h
  cases hlive
  refine Foreign.rewrites_spec hms hspec ?_ rfl
  exact (specOf?_record _).trans (by simp)

theorem certificate_rewritten {j : Json} {live : Certificate} (h : decode? j = some live) (desired : Certificate) :
    ∃ read written, specOf? j = some read ∧ specOf? (encode (certificate live desired).merged) = some written ∧
      decode? written = some (certificate live desired).merged.spec ∧
      Unmodelled.Rewrites CertificateSpec.fields (certificate live desired).merged.spec.held read written := by
  simp only [decode?, Option.bind_eq_bind, Option.bind_eq_some_iff] at h
  obtain ⟨ms, hms, _, -, spec, hspec, hlive⟩ := h
  cases hlive
  refine Foreign.rewrites_spec hms hspec ?_ rfl
  exact (specOf?_record _).trans (by simp)

/-- A route or a certificate that was read from JSON is read back from what is written of it. After a merge with any desired one,
its specification is written, and read back, with the fields as they were merged, and with every other member as it was read and no
more. -/
theorem unmodelled_rewritten :
    (∀ (j : Json) (live : Route), decode? j = some live → decode? (encode live) = some live ∧
      ∀ desired, ∃ read written, specOf? j = some read ∧ specOf? (encode (route live desired).merged) = some written ∧
        decode? written = some (route live desired).merged.spec ∧
        Unmodelled.Rewrites RouteSpec.fields (route live desired).merged.spec.held read written) ∧
    ∀ (j : Json) (live : Certificate), decode? j = some live → decode? (encode live) = some live ∧
      ∀ desired, ∃ read written, specOf? j = some read ∧ specOf? (encode (certificate live desired).merged) = some written ∧
        decode? written = some (certificate live desired).merged.spec ∧
        Unmodelled.Rewrites CertificateSpec.fields (certificate live desired).merged.spec.held read written :=
  ⟨fun _ live h => ⟨decode?_encode live, route_rewritten h⟩,
    fun _ live h => ⟨decode?_encode live, certificate_rewritten h⟩⟩

/-! ### A route with a path and a certificate with a key -/

namespace Extended

/-- The specification of a route with a path and with a member that is null. -/
def routeSpec : Json := .record [
  ("host", some (.str "old.example.com")), ("path", some (.str "/console")), ("port", some .null), ("subdomain", some .null),
  ("to", some (.record [("kind", some (.str "Service")), ("name", some (.str "console"))]))]

/-- A route with a path. -/
def route : Json := .record [("metadata", some (.record [("name", some (.str "cp-console"))])), ("spec", some routeSpec)]

/-- A route that is wanted, of another host. -/
def wantedRoute : Route := { spec := { host := "new.example.com", target := { kind := "Service", name := "console" } } }

/-- How the key of a certificate is renewed. -/
def privateKey : Json := .record [("rotationPolicy", some (.str "Always"))]

/-- The specification of a certificate that tells how its key is renewed. -/
def certificateSpec : Json := .record [
  ("dnsNames", some (.arr [.str "old.example.com"])), ("duration", some .null),
  ("issuerRef", some (.record [("name", some (.str "cs-ca-issuer"))])), ("privateKey", some privateKey),
  ("secretName", some (.str "route-tls-secret"))]

/-- A certificate that tells how its key is renewed. -/
def certificate : Json := .record [
  ("metadata", some (.record [("name", some (.str "route-cert"))])), ("spec", some certificateSpec)]

/-- A certificate that is wanted, for another name. -/
def wantedCertificate : Certificate :=
  { spec := { secretName := "route-tls-secret", issuerRef := { name := "cs-ca-issuer" }, dnsNames := ["new.example.com"] } }

end Extended

/-- The path of a route and the key of a certificate stay, as does what is null under a name without a model; the host and the names
are those that are wanted, and a field that was null is not written. -/
theorem extended_rewritten :
    (∃ live : Route, decode? Extended.route = some live ∧
      ∃ written, specOf? (encode (route live Extended.wantedRoute).merged) = some written ∧
        written.get? "path" = some (.str "/console") ∧ written.get? "subdomain" = some .null ∧
        written.get? "host" = some (.str "new.example.com") ∧ written.get? "port" = none) ∧
    ∃ live : Certificate, decode? Extended.certificate = some live ∧
      ∃ written, specOf? (encode (certificate live Extended.wantedCertificate).merged) = some written ∧
        written.get? "privateKey" = some Extended.privateKey ∧
        written.get? "dnsNames" = some (.arr [.str "new.example.com"]) ∧ written.get? "duration" = none := by
  constructor
  · have hreads : (decode? Extended.route : Option Route).isSome = true := by decide +kernel
    obtain ⟨live, hlive⟩ := Option.isSome_iff_exists.1 hreads
    obtain ⟨-, hmerge⟩ := unmodelled_rewritten.1 Extended.route live hlive
    obtain ⟨read, written, hread, hwritten, -, hrewrites⟩ := hmerge Extended.wantedRoute
    have hspec : specOf? Extended.route = some Extended.routeSpec := by decide +kernel
    cases hread.symm.trans hspec
    refine ⟨live, hlive, written, hwritten, ?_, ?_, ?_, ?_⟩
    · exact (hrewrites.unmodelled "path" (by decide)).trans (by decide +kernel)
    · exact (hrewrites.unmodelled "subdomain" (by decide)).trans (by decide +kernel)
    · exact (hrewrites.modelled "host" (by decide)).trans (by simp [RouteSpec.held, route, Extended.wantedRoute])
    · exact (hrewrites.modelled "port" (by decide)).trans (by simp [RouteSpec.held, route, Extended.wantedRoute])
  · have hreads : (decode? Extended.certificate : Option Certificate).isSome = true := by decide +kernel
    obtain ⟨live, hlive⟩ := Option.isSome_iff_exists.1 hreads
    obtain ⟨-, hmerge⟩ := unmodelled_rewritten.2 Extended.certificate live hlive
    obtain ⟨read, written, hread, hwritten, -, hrewrites⟩ := hmerge Extended.wantedCertificate
    have hspec : specOf? Extended.certificate = some Extended.certificateSpec := by decide +kernel
    cases hread.symm.trans hspec
    refine ⟨live, hlive, written, hwritten, ?_, ?_, ?_⟩
    · exact (hrewrites.unmodelled "privateKey" (by decide)).trans (by decide +kernel)
    · exact (hrewrites.modelled "dnsNames" (by decide)).trans
        (by simp [CertificateSpec.held, certificate, Extended.wantedCertificate, encode])
    · exact (hrewrites.modelled "duration" (by decide)).trans
        (by simp [CertificateSpec.held, certificate, Extended.wantedCertificate])

end Drift

end IngressOperator
