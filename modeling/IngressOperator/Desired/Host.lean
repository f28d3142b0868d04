import IngressOperator.Names
import IngressOperator.Resource.Ingress
import IngressOperator.Text.Blank
import IngressOperator.Text.Digits

/-!
# Hosts

The names under which the ingress is reached from outside, and the ports that may follow them.
-/

namespace IngressOperator

/-- Whether the cluster serves routes, or else the domain under which it is reached, perhaps with a port. -/
inductive Flavor where
  | standard
  | cncf (domain : String)
deriving DecidableEq, Inhabited

/-- Whether the cluster serves routes. -/
def Flavor.servesRoutes (f : Flavor) : Bool := f == .standard

namespace Host

/-- The host and the port of a text; only digits after the last colon are a port. -/
def split (s : String) : String × Option String :=
  match Text.splitLast? ':' s.toList with
  | some (host, port) =>
    if !port.isEmpty && port.all Digits.isDigit then (String.ofList host, some (String.ofList port)) else (s, none)
  | none => (s, none)

/-- The host without a port. -/
def withoutPort (s : String) : String := (split s).1

/-- The host of a route under a domain; its first label carries the namespace if several instances share the cluster. -/
def underDomain (label base ns : String) (multiple : Bool) : String :=
  if multiple then s!"{label}-{ns}.{base}" else s!"{label}.{base}"

/-- The host of the console. -/
def console (base ns : String) (multiple : Bool) : String := underDomain Names.consoleRoute base ns multiple

/-- The host of the proxy. -/
def proxy (base ns : String) (multiple : Bool) : String := underDomain Names.proxyRoute base ns multiple

/-- The address of the console on a cluster without routes. -/
def plainConsole (domain : String) : String := s!"{Names.consoleRoute}.{domain}"

end Host

end IngressOperator
