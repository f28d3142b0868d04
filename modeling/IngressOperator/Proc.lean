import IngressOperator.Desired.Config
import IngressOperator.Wait

/-!
# Programs

What the operator does is a program that asks for things and goes on with the answers. A `Request` is a call of the object store,
a question about the cluster, a use of the clock, or an event to be published; `Request.Answer` is the type of its answers. A
`Proc` is a tree of requests, so that a statement about a program is one about all answers that it may get, and the same program
runs on any store.

## Main statements

* `Proc.run_bind`: a program that goes on with another one runs them one after the other.
-/

namespace IngressOperator

/-- Whether an object was created, or another one had its name. -/
inductive Creation where
  | new
  | alreadyExists
deriving DecidableEq, Inhabited

/-- Whether an event tells of something done or of a failure. -/
inductive EventType where
  | normal
  | warning
deriving DecidableEq, Inhabited

/-- An event of a custom resource. -/
structure Event where
  type : EventType
  reason : String
  action : String
  note : String
deriving DecidableEq, Inhabited

/-- What a program may ask for. -/
inductive Request where
  /-- The object of a name. -/
  | get (kind : Kind) (ns name : String)
  /-- The objects of a namespace that carry certain labels. -/
  | list (kind : Kind) (ns labels : String)
  /-- Creates an object; that there is one of its name already is no failure. -/
  | create (kind : Kind) (object : kind.Object)
  /-- Replaces the object of the same version. -/
  | update (kind : Kind) (object : kind.Object)
  /-- Deletes the object of a name; that there is none is no failure. -/
  | delete (kind : Kind) (ns name : String)
  /-- Replaces the status of a custom resource. -/
  | updateStatus (ingress : ManagementIngress) (status : IngressStatus)
  /-- The domain under which routes are published. -/
  | baseDomain
  /-- The domain of names within the cluster. -/
  | clusterDomain
  /-- The address of the API server. -/
  | apiServer
  | now
  /-- Lets the given milliseconds pass. -/
  | sleep (millis : Nat)
  /-- Publishes an event; that it does not get through changes nothing. -/
  | publish (ingress : ManagementIngress) (event : Event)

/-- The answers to a request. -/
abbrev Request.Answer : Request → Type
  | get kind _ _ => Except Failure (Option kind.Object)
  | list kind _ _ => Except Failure (List kind.Object)
  | create _ _ => Except Failure Creation
  | update kind _ => Except Failure kind.Object
  | delete _ _ _ => Except Failure Unit
  | updateStatus _ _ => Except Failure Unit
  | baseDomain => Except Failure String
  | clusterDomain => Except Failure String
  | apiServer => Except Failure ApiAddress
  | now => Instant
  | sleep _ => Unit
  | publish _ _ => Unit

/-- A program that asks for things and ends with a value. -/
inductive Proc (α : Type) where
  | done (a : α)
  | ask (request : Request) (next : request.Answer → Proc α)

namespace Proc

variable {α β γ : Type}

/-- Goes on with another program. -/
protected def bind : Proc α → (α → Proc β) → Proc β
  | done a, f => f a
  | ask r next, f => ask r fun answer => (next answer).bind f

instance : Monad Proc where
  pure := done
  bind := Proc.bind

@[simp] theorem pure_eq (a : α) : (pure a : Proc α) = done a := rfl

@[simp] theorem done_bind (a : α) (f : α → Proc β) : (done a >>= f) = f a := rfl

@[simp] theorem ask_bind (r : Request) (next : r.Answer → Proc α) (f : α → Proc β) :
    (ask r next >>= f) = ask r fun answer => next answer >>= f := rfl

theorem bind_pure (p : Proc α) : p >>= pure = p := by
  induction p with
  | done a => rfl
  | ask r next ih => simp only [ask_bind, ih]

theorem bind_assoc (p : Proc α) (f : α → Proc β) (g : β → Proc γ) : p >>= f >>= g = p >>= fun a => f a >>= g := by
  induction p with
  | done a => rfl
  | ask r next ih => simp only [ask_bind, ih]

instance : LawfulMonad Proc :=
  LawfulMonad.mk' Proc (fun p => bind_pure p) (fun _ _ => rfl) (fun p f g => bind_assoc p f g)

/-- Asks for one thing. -/
def request (r : Request) : Proc r.Answer := ask r done

/-! ### Running -/

/-- How a store of states answers requests. -/
abbrev Handler (σ : Type) := (r : Request) → σ → r.Answer × σ

/-- Runs a program from a state. -/
def run {σ : Type} (h : Handler σ) : Proc α → σ → α × σ
  | done a, s => (a, s)
  | ask r next, s =>
    let (answer, s) := h r s
    (next answer).run h s

/-- A program that goes on with another one runs them one after the other. -/
theorem run_bind {σ : Type} (h : Handler σ) (p : Proc α) (f : α → Proc β) (s : σ) :
    (p >>= f).run h s = (f (p.run h s).1).run h (p.run h s).2 := by
  induction p generalizing s with
  | done a => rfl
  | ask r next ih => simp only [ask_bind, run, ih]

/-- The clock of a program. -/
def clock : Clock Proc where
  now := request .now
  sleep millis := request (.sleep millis)

end Proc

/-- A program that may fail. -/
abbrev Action := ExceptT Failure Proc

namespace Action

/-- Asks for something that may fail. -/
def ofRequest {α : Type} (p : Proc (Except Failure α)) : Action α := ExceptT.mk p

/-- The object of a name. -/
def get (kind : Kind) (ns name : String) : Action (Option kind.Object) := ofRequest (Proc.request (.get kind ns name))

/-- The objects of a namespace that carry certain labels. -/
def list (kind : Kind) (ns labels : String) : Action (List kind.Object) := ofRequest (Proc.request (.list kind ns labels))

/-- Creates an object. -/
def create (kind : Kind) (object : kind.Object) : Action Creation := ofRequest (Proc.request (.create kind object))

/-- Replaces an object. -/
def update (kind : Kind) (object : kind.Object) : Action kind.Object := ofRequest (Proc.request (.update kind object))

/-- Deletes an object. -/
def delete (kind : Kind) (ns name : String) : Action Unit := ofRequest (Proc.request (.delete kind ns name))

/-- Replaces the status of a custom resource. -/
def updateStatus (ingress : ManagementIngress) (status : IngressStatus) : Action Unit :=
  ofRequest (Proc.request (.updateStatus ingress status))

/-- The domain under which routes are published. -/
def baseDomain : Action String := ofRequest (Proc.request .baseDomain)

/-- The domain of names within the cluster. -/
def clusterDomain : Action String := ofRequest (Proc.request .clusterDomain)

/-- The address of the API server. -/
def apiServer : Action ApiAddress := ofRequest (Proc.request .apiServer)

/-- Carries on with the failure of an action as with a value. -/
def attempt {α : Type} (a : Action α) : Action (Except Failure α) := ExceptT.lift a.run

/-- The time. -/
def now : Action Instant := ExceptT.lift (Proc.request .now)

end Action

end IngressOperator
