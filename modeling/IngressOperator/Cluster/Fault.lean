import IngressOperator.Cluster.Answer

/-!
# Faults

A fault makes certain calls fail: a number of them, after some that it lets pass. Of several faults that fit a call, the first
one that is neither used up nor lets calls pass makes it fail; one that lets it pass counts it.
-/

namespace IngressOperator

/-- What a call does to objects. -/
inductive Verb where
  | get
  | list
  | create
  | update
  | delete
  | status
  | event
deriving DecidableEq, Inhabited

namespace Verb

/-- The name of a verb. -/
def name : Verb → String
  | get => "get"
  | list => "list"
  | create => "create"
  | update => "update"
  | delete => "delete"
  | status => "status"
  | event => "event"

/-- All verbs. -/
def all : List Verb := [get, list, create, update, delete, status, event]

/-- The verb of a name. -/
def ofName? (s : String) : Option Verb := all.find? fun v => v.name == s

end Verb

/-- A fault of the cluster. -/
structure Fault where
  verb : Verb
  kind : String
  /-- The name of the object; any if unset. -/
  name : Option String := none
  /-- So many calls fail. -/
  times : Nat := 1
  /-- So many calls pass before. -/
  skip : Nat := 0
  /-- How the server says it. -/
  answer : ApiAnswer := { status := "Failure", code := 500 }
  /-- The failure of a call that reaches the store directly, if it is not the server's answer. -/
  cause : Option Failure := none
deriving DecidableEq

namespace Fault

/-- The failure of a call that reaches the store directly. -/
def failure (f : Fault) : Failure := f.cause.getD (.api f.answer)

/-- Whether a fault fits a call and is not used up. -/
def fits (f : Fault) (verb : Verb) (kind name : String) : Bool :=
  f.verb == verb && f.kind == kind && f.name.all (· == name) && f.times != 0

/-- The fault that makes a call fail, if there is one, and the faults after the call. -/
def strike (verb : Verb) (kind name : String) : List Fault → Option Fault × List Fault
  | [] => (none, [])
  | f :: fs =>
    if f.fits verb kind name then
      if f.skip = 0 then (some f, { f with times := f.times - 1 } :: fs)
      else
        let (struck, fs) := strike verb kind name fs
        (struck, { f with skip := f.skip - 1 } :: fs)
    else
      let (struck, fs) := strike verb kind name fs
      (struck, f :: fs)

end Fault

end IngressOperator
