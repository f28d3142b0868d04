import IngressOperator.Settings
import IngressOperator.Text.Blank
import IngressOperator.Text.Digits

/-!
# Flags

The settings as they are given on a command line, with an environment for what it leaves out.

Arguments are read from left to right. A flag takes its value from the same argument (`--name=value`) or from the next one,
which must not look like a flag. A flag is settled, and its value checked, when the next one is read or at the end; a variable
is only looked at where its flag is absent.
-/

namespace IngressOperator

/-- Why a command line is refused. -/
inductive UsageError where
  | unknownArgument
  /-- A flag lacks its value, or a value is given to what takes none. -/
  | invalidValue
  /-- A value is not a number of the right size. -/
  | valueValidation
  /-- A flag is repeated. -/
  | argumentConflict
  /-- The command line asks for help. -/
  | displayHelp
  | tooManyValues
deriving DecidableEq

/-- The name of the error. -/
def UsageError.name : UsageError → String
  | unknownArgument => "UnknownArgument"
  | invalidValue => "InvalidValue"
  | valueValidation => "ValueValidation"
  | argumentConflict => "ArgumentConflict"
  | displayHelp => "DisplayHelp"
  | tooManyValues => "TooManyValues"

namespace Flags

/-- The flags, in the order of the settings. -/
inductive Flag where
  | version
  | clusterName
  | routeHttpPort
  | routeHttpsPort
  | operatorNamespace
  | watchNamespace
  | image
  | secretWaitTimeoutSeconds
  | secretPollIntervalSeconds
deriving DecidableEq

/-- The name of a flag after its dashes. -/
def Flag.name : Flag → String
  | version => "operand-version"
  | clusterName => "cluster-name"
  | routeHttpPort => "route-http-port"
  | routeHttpsPort => "route-https-port"
  | operatorNamespace => "operator-namespace"
  | watchNamespace => "watch-namespace"
  | image => "image"
  | secretWaitTimeoutSeconds => "secret-wait-timeout-seconds"
  | secretPollIntervalSeconds => "secret-poll-interval-seconds"

/-- The variable that is read where a flag is absent. -/
def Flag.variable : Flag → String
  | version => "VERSION"
  | clusterName => "CLUSTER_NAME"
  | routeHttpPort => "ROUTE_HTTP_PORT"
  | routeHttpsPort => "ROUTE_HTTPS_PORT"
  | operatorNamespace => "POD_NAMESPACE"
  | watchNamespace => "WATCH_NAMESPACE"
  | image => "ICP_MANAGEMENT_INGRESS_IMAGE"
  | secretWaitTimeoutSeconds => "SECRET_WAIT_TIMEOUT_SECONDS"
  | secretPollIntervalSeconds => "SECRET_POLL_INTERVAL_SECONDS"

/-- All flags. -/
def Flag.all : List Flag :=
  [version, clusterName, routeHttpPort, routeHttpsPort, operatorNamespace, watchNamespace, image, secretWaitTimeoutSeconds,
   secretPollIntervalSeconds]

/-- The flag of a name. -/
def Flag.ofName? (s : List Char) : Option Flag := all.find? fun f => f.name.toList == s

/-- What an argument is, by its form. -/
inductive Argument where
  /-- Two dashes and a name, perhaps with a value after an equals sign. -/
  | long (name : List Char) (value : Option String)
  /-- One dash and at least one more character. -/
  | short (text : List Char)
  /-- Two dashes alone. -/
  | dashes
  | plain (text : String)
deriving DecidableEq

/-- The form of an argument. -/
def Argument.of (s : String) : Argument :=
  match s.toList with
  | ['-', '-'] => dashes
  | '-' :: '-' :: rest =>
    match Text.splitFirst? '=' rest with
    | some (name, value) => long name (some (String.ofList value))
    | none => long rest none
  | '-' :: c :: rest => short (c :: rest)
  | _ => plain s

/-- A number below a bound: a plus sign may stand before its digits. -/
def number? (bound : Nat) (s : String) : Option Nat :=
  let digits := match s.toList with
    | '+' :: rest => rest
    | cs => cs
  (Digits.nat? digits).filter fun n => n < bound

/-- A port: zero may have a minus sign. -/
def port? (s : String) : Option UInt16 :=
  match s.toList with
  | '-' :: rest => (Digits.nat? rest).bind fun n => if n = 0 then some 0 else none
  | _ => (number? UInt16.size s).map UInt16.ofNat

/-- A number of seconds. -/
def seconds? (s : String) : Option UInt64 := (number? UInt64.size s).map UInt64.ofNat

/-- Whether a text may be the value of a flag. -/
def Flag.accepts : Flag → String → Bool
  | routeHttpPort, s | routeHttpsPort, s => (port? s).isSome
  | secretWaitTimeoutSeconds, s | secretPollIntervalSeconds, s => (seconds? s).isSome
  | _, _ => true

/-- What is read so far: the last flag, whose value may still be missing, and the settled flags with their values. -/
structure State where
  pending : Option (Flag × Option String) := none
  given : List (Flag × String) := []
deriving DecidableEq

/-- Settles a flag with its value: no flag is given twice, and the value must be one for it. -/
def State.settle (s : State) (f : Flag) (value : String) : Except UsageError State :=
  if s.given.any fun g => g.1 == f then .error .argumentConflict
  else if f.accepts value then .ok ⟨none, (f, value) :: s.given⟩
  else .error .valueValidation

/-- Settles the last flag. -/
def State.settled (s : State) : Except UsageError State :=
  match s.pending with
  | none => .ok s
  | some (_, none) => .error .invalidValue
  | some (f, some value) => s.settle f value

/-- Reads the next argument. What is not known at all is refused before the last flag is settled. -/
def State.next (s : State) (a : Argument) : Except UsageError State :=
  match a with
  | .long name value =>
    if name = "help".toList then
      if value.isSome then .error .tooManyValues
      else s.settled >>= fun _ => .error .displayHelp
    else
      match Flag.ofName? name with
      | none => .error .unknownArgument
      | some f => do
        let s ← s.settled
        match value with
        | some v => s.settle f v
        | none => pure { s with pending := some (f, none) }
  | .short text =>
    if text.head? = some 'h' then s.settled >>= fun _ => .error .displayHelp else .error .unknownArgument
  | .dashes => .ok s
  | .plain text =>
    match s.pending with
    | some (f, none) => .ok { s with pending := some (f, some text) }
    | _ => .error .unknownArgument

/-- Reads arguments; after two dashes alone nothing more may follow. -/
def read (s : State) : List String → Except UsageError State
  | [] => s.settled
  | a :: rest =>
    match s.next (.of a) with
    | .error e => .error e
    | .ok s' => if Argument.of a = .dashes ∧ !rest.isEmpty then .error .unknownArgument else read s' rest

/-- The value of a flag: the one given, else its variable's, if there is one. -/
def text? (given : List (Flag × String)) (env : Dict String) (f : Flag) : Option String :=
  ((given.find? fun g => g.1 == f).map (·.2)) <|> env.get? f.variable

/-- The value of a flag with a default, of a type that not every text stands for. -/
def checked {α : Type} (text : Option String) (read? : String → Option α) (otherwise : α) : Except UsageError α :=
  match text with
  | none => .ok otherwise
  | some s =>
    match read? s with
    | some a => .ok a
    | none => .error .valueValidation

end Flags

/-- The settings of a command line and an environment. -/
def Settings.ofFlags (args : List String) (env : Dict String) : Except UsageError Settings := do
  let state ← Flags.read {} args
  let text := Flags.text? state.given env
  let http ← Flags.checked (text .routeHttpPort) Flags.port? 80
  let https ← Flags.checked (text .routeHttpsPort) Flags.port? 443
  let timeout ← Flags.checked (text .secretWaitTimeoutSeconds) Flags.seconds? 600
  let interval ← Flags.checked (text .secretPollIntervalSeconds) Flags.seconds? 2
  pure {
    version := (text .version).getD ({} : Settings).version
    clusterName := (text .clusterName).getD ({} : Settings).clusterName
    routeHttpPort := http
    routeHttpsPort := https
    operatorNamespace := (text .operatorNamespace).getD ({} : Settings).operatorNamespace
    watchNamespace := text .watchNamespace
    image := text .image
    secretWaitTimeoutSeconds := timeout
    secretPollIntervalSeconds := interval }

end IngressOperator
