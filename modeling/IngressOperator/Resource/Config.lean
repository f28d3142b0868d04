import IngressOperator.Resource.Meta
import IngressOperator.Text.Base64

/-!
# Config maps and secrets

Objects that only hold data under keys.
-/

namespace IngressOperator

open Wire

/-- Bytes, written in Base64; null stands for no bytes. -/
structure Bytes where
  toList : List UInt8 := []
deriving DecidableEq, Inhabited

instance : Wire Bytes where
  encode b := .str (String.ofList (Base64.encode b.toList))
  decode?
    | .null => some ⟨[]⟩
    | j => j.str?.bind fun s => (Base64.decode? s.toList).map Bytes.mk

/-- A config map: texts by key. -/
structure ConfigMap where
  metadata : Meta := {}
  data : Option (Dict String) := none
  binaryData : Option (Dict Bytes) := none
  immutable : Option Bool := none
deriving DecidableEq, Inhabited

instance : Wire ConfigMap where
  encode x := .record [always "apiVersion" "v1", always "kind" "ConfigMap", always "metadata" x.metadata,
    present "data" x.data, present "binaryData" x.binaryData, present "immutable" x.immutable]
  decode? j := do
    let ms ← j.members?
    fixed? ms "apiVersion" "v1"
    fixed? ms "kind" "ConfigMap"
    pure { metadata := ← lenient? ms "metadata", data := ← optional? ms "data", binaryData := ← optional? ms "binaryData",
           immutable := ← optional? ms "immutable" }

/-- A secret: bytes by key. -/
structure Secret where
  metadata : Meta := {}
  data : Option (Dict Bytes) := none
  stringData : Option (Dict String) := none
  type : Option String := none
  immutable : Option Bool := none
deriving DecidableEq, Inhabited

instance : Wire Secret where
  encode x := .record [always "apiVersion" "v1", always "kind" "Secret", always "metadata" x.metadata, present "data" x.data,
    present "stringData" x.stringData, present "type" x.type, present "immutable" x.immutable]
  decode? j := do
    let ms ← j.members?
    fixed? ms "apiVersion" "v1"
    fixed? ms "kind" "Secret"
    pure { metadata := ← lenient? ms "metadata", data := ← optional? ms "data", stringData := ← optional? ms "stringData",
           type := ← optional? ms "type", immutable := ← optional? ms "immutable" }

/-- The bytes that a secret holds under a key; none if it has no such key. -/
def Secret.value (s : Secret) (key : String) : List UInt8 :=
  ((s.data.bind (·.get? key)).map Bytes.toList).getD []

end IngressOperator
