import IngressOperator.Resource.Deployment

/-!
# Drift of pods

When the parts of a pod that the operator keeps are as they should be, and the pod in which they are. Each comparison is of one
tracked field; a merge takes what differs from the desired pod and keeps everything else of the live one.
-/

namespace IngressOperator

/-- The outcome of comparing a live value with a desired one. -/
structure Drift (α : Type) where
  /-- The live value with the tracked fields as desired. -/
  merged : α
  /-- Whether a tracked field was not as desired. -/
  changed : Bool
deriving DecidableEq

namespace Drift

/-! ### Comparisons -/

/-- Whether two maps have the same entries; an absent one has none. -/
def sameEntries {α : Type} [DecidableEq α] (a b : Option (Dict α)) : Bool := a.getD ∅ == b.getD ∅

/-- Whether two lists of tolerations hold the same ones, in any order. -/
def sameTolerations (a b : List Toleration) : Bool :=
  a.length == b.length && a.all (fun x => b.any fun y => x == y) && b.all fun y => a.any fun x => x == y

/-- Whether every name on one side is a name on the other. -/
def sameNames {α : Type} (name : α → String) (a b : List α) : Bool :=
  a.all (fun x => b.any fun y => name y == name x) && b.all fun y => a.any fun x => name x == name y

/-- Whether two variables of one name have the same value; an absent text is empty. -/
def sameValue (a b : EnvVar) : Bool := a.value.getD "" == b.value.getD "" && a.valueFrom == b.valueFrom

/-- Whether two environments set the same variables, in any order. -/
def sameEnv (a b : List EnvVar) : Bool :=
  a.length == b.length && sameNames (·.name) a b &&
    a.all fun x =>
      match b.find? fun y => y.name == x.name with
      | none => false
      | some y => sameValue x y

/-- Whether two volumes of one name have the same source: the same secret, config map or path, by the first of these that both
have. -/
def sameSource (a b : Volume) : Bool :=
  match a.secret, b.secret with
  | some x, some y => x.secretName == y.secretName
  | _, _ =>
    match a.configMap, b.configMap with
    | some x, some y => x.name == y.name
    | _, _ =>
      match a.hostPath, b.hostPath with
      | some x, some y => x.path == y.path
      | _, _ => false

/-- Whether two lists hold volumes of the same sources, in any order. -/
def sameVolumes (a b : List Volume) : Bool :=
  a.length == b.length && sameNames (·.name) a b &&
    a.all fun x =>
      match b.reverse.find? fun y => y.name == x.name with
      | none => false
      | some y => sameSource x y

/-- Whether two containers ask for the same resources and have the same limits. -/
def sameResources (a b : Option Resources) : Bool :=
  sameEntries (a.bind (·.limits)) (b.bind (·.limits)) && sameEntries (a.bind (·.requests)) (b.bind (·.requests))

/-! ### Merges -/

/-- The live value if it is as desired, else the desired one. -/
def keep {α : Type} (same : Bool) (live desired : α) : α := if same then live else desired

/-- Brings image, resources, environment and mounts of a container to those of the desired one. -/
def container (live desired : Container) : Drift Container :=
  let image := live.image == desired.image
  let resources := sameResources live.resources desired.resources
  let env := sameEnv (live.env.getD []) (desired.env.getD [])
  let mounts := live.volumeMounts.getD [] == desired.volumeMounts.getD []
  { merged :=
      { live with
        image := keep image live.image desired.image
        resources := keep resources live.resources desired.resources
        env := keep env live.env desired.env
        volumeMounts := keep mounts live.volumeMounts desired.volumeMounts }
    changed := !(image && resources && env && mounts) }

/-- Brings a container to the first desired one of its name, and leaves it alone if there is none. -/
def containerAmong (desired : List Container) (live : Container) : Drift Container :=
  match desired.find? fun d => d.name == live.name with
  | none => ⟨live, false⟩
  | some d => container live d

/-- Brings every container that is desired at all to its desired form. -/
def containers (live desired : List Container) : Drift (List Container) :=
  { merged := live.map fun c => (containerAmong desired c).merged
    changed := live.any fun c => (containerAmong desired c).changed }

/-- Brings node selector, tolerations, containers and volumes of a pod to those of the desired one. -/
def podSpec (live desired : PodSpec) : Drift PodSpec :=
  let nodeSelector := sameEntries live.nodeSelector desired.nodeSelector
  let tolerations := sameTolerations (live.tolerations.getD []) (desired.tolerations.getD [])
  let containers := containers live.containers desired.containers
  let volumes := sameVolumes (live.volumes.getD []) (desired.volumes.getD [])
  { merged :=
      { live with
        nodeSelector := keep nodeSelector live.nodeSelector desired.nodeSelector
        tolerations := keep tolerations live.tolerations desired.tolerations
        containers := containers.merged
        volumes := keep volumes live.volumes desired.volumes }
    changed := !(nodeSelector && tolerations && !containers.changed && volumes) }

end Drift

end IngressOperator
