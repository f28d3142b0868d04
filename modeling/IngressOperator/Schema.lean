import IngressOperator.Resource.Ingress

/-!
# The definition of the custom resource

How a cluster is told of management ingresses: the names and the version of the resource, and the fields that its specification
and its status may have. The default of a field is what an empty specification or status shows under its name.
-/

namespace IngressOperator.Schema

/-! ### Names -/

/-- The group of the resource. -/
def group : String := "operator.ibm.com"

/-- Its version. -/
def version : String := "v1alpha1"

/-- The name of its objects in paths. -/
def plural : String := "managementingresses"

/-- The name of one of its objects. -/
def singular : String := "managementingress"

/-- The names by which users may call it. -/
def shortNames : List String := ["mgmtingress"]

/-- The name of the definition. -/
def name : String := s!"{plural}.{group}"

/-- The objects of the resource belong to namespaces. -/
def scope : String := "Namespaced"

/-- The version is served, and objects are stored in it. -/
def served : Bool := true

/-! ### Fields -/

/-- What a field may hold. -/
inductive FieldType where
  | string
  | integer
  | boolean
  | array
  | object
deriving DecidableEq, Inhabited

/-- The name of a type. -/
def FieldType.name : FieldType → String
  | string => "string"
  | integer => "integer"
  | boolean => "boolean"
  | array => "array"
  | object => "object"

/-- A field of the specification or the status. -/
structure Field where
  name : String
  type : FieldType
  nullable : Bool := false
deriving DecidableEq, Inhabited

/-- The fields of the specification. -/
def specFields : List Field := [
  ⟨"managementState", .string, false⟩, ⟨"imageRegistry", .string, false⟩, ⟨"image", .object, false⟩,
  ⟨"replicas", .integer, true⟩, ⟨"resources", .object, true⟩, ⟨"nodeSelector", .object, true⟩,
  ⟨"tolerations", .array, true⟩, ⟨"allowedHostHeader", .string, false⟩, ⟨"cert", .object, false⟩,
  ⟨"routeHost", .string, false⟩, ⟨"config", .object, false⟩, ⟨"fipsEnabled", .boolean, false⟩,
  ⟨"ignoreRouteCert", .boolean, false⟩, ⟨"multipleInstancesEnabled", .boolean, false⟩]

/-- The fields of the status. -/
def statusFields : List Field := [
  ⟨"condition", .object, false⟩, ⟨"podstate", .object, false⟩, ⟨"host", .string, false⟩,
  ⟨"operandState", .object, false⟩]

/-- The default of a field of the specification. -/
def specDefault (f : Field) : Option Json := (Wire.encode ({} : IngressSpec)).get? f.name

/-- The default of a field of the status. -/
def statusDefault (f : Field) : Option Json := (Wire.encode ({} : IngressStatus)).get? f.name

end IngressOperator.Schema
