import IngressOperator.Wait

/-!
# Settings

What the operator is told when it starts.
-/

namespace IngressOperator

/-- The settings of the operator. -/
structure Settings where
  /-- The version that the cluster info publishes. -/
  version : String := "3.8.0"
  clusterName : String := "mycluster"
  routeHttpPort : UInt16 := 80
  routeHttpsPort : UInt16 := 443
  /-- The namespace in which the operator runs. -/
  operatorNamespace : String := "ibm-common-services"
  /-- The namespaces that the operand watches; all of them if unset or empty. -/
  watchNamespace : Option String := none
  /-- The image of the operand when the custom resource names none. -/
  image : Option String := none
  secretWaitTimeoutSeconds : UInt64 := 600
  secretPollIntervalSeconds : UInt64 := 2
deriving DecidableEq

instance : Inhabited Settings := ⟨{}⟩

namespace Settings

/-- How long and how often a secret is waited for. -/
def secretWait (s : Settings) : WaitPolicy :=
  ⟨s.secretWaitTimeoutSeconds.toNat * 1000, s.secretPollIntervalSeconds.toNat * 1000⟩

/-- The namespaces that the operand watches, if they are restricted. -/
def watched (s : Settings) : Option String := s.watchNamespace.filter fun ns => !ns.isEmpty

end Settings

end IngressOperator
