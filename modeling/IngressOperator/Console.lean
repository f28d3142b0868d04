import IngressOperator.Desired.Config
import IngressOperator.Failure
import IngressOperator.Yaml.Node

/-!
# The configuration of the console

The console publishes the address of the API server in its configuration, a YAML document. Members that are not asked for are
skipped; those that are must not be repeated.
-/

namespace IngressOperator.Console

open Yaml (Document Node)

/-- The entries of a mapping; nothing written stands for a mapping without entries. -/
def entries? (d : Document) (n : Node) : Option (List (Node × Node)) :=
  match d.resolve n with
  | .mapping entries => some entries
  | .scalar "" true => some []
  | _ => none

/-- The text of a scalar, as it is written. -/
def text? (d : Document) (n : Node) : Option String :=
  match d.resolve n with
  | .scalar text _ => some text
  | _ => none

/-- The value of a member that may be absent but not be repeated; every key must be a text. -/
def member? (d : Document) (name : String) (entries : List (Node × Node)) : Option (Option Node) := do
  let named ← entries.mapM fun e => (text? d e.1).map fun key => (key, e.2)
  match named.filter fun e => e.1 == name with
  | [] => pure none
  | [e] => pure (some e.2)
  | _ => none

/-- The URL that the configuration publishes; it is empty where nothing is written. -/
def url? (d : Document) : Option String :=
  match d.root with
  | none => some ""
  | some root => do
    let info ← entries? d root >>= member? d "clusterInfo"
    match info with
    | none => pure ""
    | some info =>
      let url ← entries? d info >>= member? d "masterPublicURL"
      match url with
      | none => pure ""
      | some url => text? d url

/-- What follows all repetitions of a beginning; `fuel` bounds their count. -/
def dropAll (beginning : List Char) : Nat → List Char → List Char
  | 0, cs => cs
  | fuel + 1, cs => if beginning.isPrefixOf cs then dropAll beginning fuel (cs.drop beginning.length) else cs

/-- The host and the port of a URL. -/
def address? (url : String) : Option ApiAddress :=
  let cs := url.toList
  match Text.splitLast? ':' (Text.dropEndWhile (· == '/') (dropAll "https://".toList cs.length cs)) with
  | some (host, port) =>
    if host.isEmpty || port.isEmpty then none else some ⟨String.ofList host, String.ofList port⟩
  | none => none

/-- The address of the API server in the text of a configuration. -/
def read (text : String) : Except Failure ApiAddress :=
  match (Document.read? text).bind url? with
  | none => .error (.discovery .badConsoleConfig)
  | some url =>
    match address? url with
    | none => .error (.discovery (.badConsoleUrl url))
    | some address => .ok address

end IngressOperator.Console
