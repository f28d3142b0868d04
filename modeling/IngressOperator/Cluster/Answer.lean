import IngressOperator.Failure
import IngressOperator.Json.Reader
import IngressOperator.Wire

/-!
# Refusals of the API server

Why the API server refuses a request, and how it says so: an answer with a code and a body that describes the failure. A body
that is no such description is quoted in the description that stands for it.
-/

namespace IngressOperator

/-- Why the server refuses a request for an object. -/
inductive Refusal where
  | notFound
  | alreadyExists
  /-- The object is not of the version that is to be replaced. -/
  | modified
deriving DecidableEq, Inhabited

/-- How the server says that it refuses. -/
def Refusal.answer (kind name : String) : Refusal → ApiAnswer
  | notFound => ⟨"Failure", s!"{kind} \"{name}\" not found", "NotFound", 404⟩
  | alreadyExists => ⟨"Failure", s!"{kind} \"{name}\" already exists", "AlreadyExists", 409⟩
  | modified => ⟨"Failure", s!"{kind} \"{name}\" was modified", "Conflict", 409⟩

namespace ApiAnswer

/-- The phrases by which the codes of failed requests are known. -/
def phrases : List (Nat × String) := [
  (400, "Bad Request"), (401, "Unauthorized"), (402, "Payment Required"), (403, "Forbidden"), (404, "Not Found"),
  (405, "Method Not Allowed"), (406, "Not Acceptable"), (407, "Proxy Authentication Required"), (408, "Request Timeout"),
  (409, "Conflict"), (410, "Gone"), (411, "Length Required"), (412, "Precondition Failed"), (413, "Payload Too Large"),
  (414, "URI Too Long"), (415, "Unsupported Media Type"), (416, "Range Not Satisfiable"), (417, "Expectation Failed"),
  (418, "I'm a teapot"), (421, "Misdirected Request"), (422, "Unprocessable Entity"), (423, "Locked"),
  (424, "Failed Dependency"), (425, "Too Early"), (426, "Upgrade Required"), (428, "Precondition Required"),
  (429, "Too Many Requests"), (431, "Request Header Fields Too Large"), (451, "Unavailable For Legal Reasons"),
  (500, "Internal Server Error"), (501, "Not Implemented"), (502, "Bad Gateway"), (503, "Service Unavailable"),
  (504, "Gateway Timeout"), (505, "HTTP Version Not Supported"), (506, "Variant Also Negotiates"),
  (507, "Insufficient Storage"), (508, "Loop Detected"), (510, "Not Extended"), (511, "Network Authentication Required")]

/-- The phrase of a code. -/
def phrase (code : Nat) : String := ((phrases.find? fun p => p.1 == code).map (·.2)).getD "<unknown status code>"

/-- The value of a member that may be absent but not be repeated. -/
def unique? (members : Json.Members) (name : String) : Option (Option Json) :=
  match members.filter fun m => m.1 == name with
  | [] => some none
  | [m] => some (some m.2)
  | _ => none

/-- The text of a member; it is empty if the member is absent. -/
def optionalText? (members : Json.Members) (name : String) : Option String := do
  match ← unique? members name with
  | none => pure ""
  | some j => j.str?

/-- The code in a JSON value. -/
def code? (j : Json) : Option Nat := Wire.natBelow? UInt16.size j

/-- The description of a failure in a body: an object, or its members in a fixed order. -/
def read? (body : String) : Option ApiAnswer := do
  match ← Json.asWritten? body.toList with
  | .obj members =>
    pure {
      status := ← (← unique? members "status").bind Json.str?, message := ← optionalText? members "message",
      reason := ← optionalText? members "reason", code := ← (← unique? members "code").bind code? }
  | .arr [status, message, reason, code] =>
    pure { status := ← status.str?, message := ← message.str?, reason := ← reason.str?, code := ← code? code }
  | _ => none

/-- The description that stands for a body which is none. -/
def unreadable (code : Nat) (body : String) : ApiAnswer :=
  { status := s!"{code} {phrase code}", message := Quoted.quote body, reason := "Failed to parse error data", code := code }

/-- The description of a failure that is answered with a code and a body. -/
def ofBody (code : Nat) (body : String) : ApiAnswer := (read? body).getD (unreadable code body)

end ApiAnswer

end IngressOperator
