import IngressOperator.Flags

/-!
# Command line

Checks the flags of the operator, with the environment for what they leave out, and says how it would run.
-/

namespace IngressOperator

/-- The values of the variables that flags may be given by. -/
def readEnvironment : IO (Dict String) := do
  let mut env : Dict String := ∅
  for flag in Flags.Flag.all do
    if let some value ← IO.getEnv flag.variable then env := env.insert flag.variable value
  return env

/-- How an operator with these settings runs. -/
def Settings.summary (s : Settings) : String :=
  let scope := s.watched.getD "all namespaces"
  s!"operator {s.version} of cluster {s.clusterName} in {s.operatorNamespace}, watching {scope}"

end IngressOperator

open IngressOperator in
/-- Shows the settings that the flags stand for, or refuses them. -/
def main (args : List String) : IO UInt32 := do
  match Settings.ofFlags args (← readEnvironment) with
  | .ok settings =>
    IO.println settings.summary
    return 0
  | .error e =>
    IO.eprintln e.name
    return 2
