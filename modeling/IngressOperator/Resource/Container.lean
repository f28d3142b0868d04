import IngressOperator.Resource.Meta

/-!
# Containers

A container of a pod with its environment, resources, mounts and probes. What the operator never looks into, such as what a
container does when it is stopped, is carried along.
-/

namespace IngressOperator

open Wire

/-- A key of a config map or of a secret. -/
structure KeyRef where
  key : String := ""
  name : String := ""
  optional : Option Bool := none
deriving DecidableEq, Inhabited

instance : Wire KeyRef where
  encode x := .record [always "key" x.key, always "name" x.name, present "optional" x.optional]
  decode? j := do
    let ms ← j.members?
    pure { key := ← lenient? ms "key", name := ← lenient? ms "name", optional := ← optional? ms "optional" }

/-- A field of the pod itself. -/
structure FieldRef where
  apiVersion : Option String := none
  fieldPath : String := ""
deriving DecidableEq, Inhabited

instance : Wire FieldRef where
  encode x := .record [present "apiVersion" x.apiVersion, always "fieldPath" x.fieldPath]
  decode? j := do
    let ms ← j.members?
    pure { apiVersion := ← optional? ms "apiVersion", fieldPath := ← lenient? ms "fieldPath" }

/-- A resource of a container of the pod. -/
structure ResourceFieldRef where
  containerName : Option String := none
  divisor : Option String := none
  resource : String := ""
deriving DecidableEq, Inhabited

instance : Wire ResourceFieldRef where
  encode x := .record [present "containerName" x.containerName, present "divisor" x.divisor, always "resource" x.resource]
  decode? j := do
    let ms ← j.members?
    pure {
      containerName := ← optional? ms "containerName", divisor := ← optional? ms "divisor",
      resource := ← lenient? ms "resource" }

/-- Where the value of a variable comes from. -/
structure EnvSource where
  configMapKeyRef : Option KeyRef := none
  fieldRef : Option FieldRef := none
  resourceFieldRef : Option ResourceFieldRef := none
  secretKeyRef : Option KeyRef := none
deriving DecidableEq, Inhabited

instance : Wire EnvSource where
  encode x := .record [
    present "configMapKeyRef" x.configMapKeyRef, present "fieldRef" x.fieldRef,
    present "resourceFieldRef" x.resourceFieldRef, present "secretKeyRef" x.secretKeyRef]
  decode? j := do
    let ms ← j.members?
    pure {
      configMapKeyRef := ← optional? ms "configMapKeyRef", fieldRef := ← optional? ms "fieldRef",
      resourceFieldRef := ← optional? ms "resourceFieldRef", secretKeyRef := ← optional? ms "secretKeyRef" }

/-- A variable of the environment of a container. -/
structure EnvVar where
  name : String := ""
  value : Option String := none
  valueFrom : Option EnvSource := none
deriving DecidableEq, Inhabited

instance : Wire EnvVar where
  encode x := .record [always "name" x.name, present "value" x.value, present "valueFrom" x.valueFrom]
  decode? j := do
    let ms ← j.members?
    pure { name := ← lenient? ms "name", value := ← optional? ms "value", valueFrom := ← optional? ms "valueFrom" }

/-- A config map or a secret whose keys all become variables. -/
abbrev EnvMap := Carried [.always "name" String, .optional "optional" Bool]

/-- Where many variables come from at once. -/
abbrev EnvFrom := Carried [.optional "configMapRef" EnvMap, .optional "prefix" String, .optional "secretRef" EnvMap]

/-- A claim on a resource of the pod. -/
structure ResourceClaim where
  name : String := ""
  request : Option String := none
deriving DecidableEq, Inhabited

instance : Wire ResourceClaim where
  encode x := .record [always "name" x.name, present "request" x.request]
  decode? j := do
    let ms ← j.members?
    pure { name := ← lenient? ms "name", request := ← optional? ms "request" }

/-- What a container asks for and how much it may take. -/
structure Resources where
  claims : Option (List ResourceClaim) := none
  limits : Option (Dict String) := none
  requests : Option (Dict String) := none
deriving DecidableEq, Inhabited

instance : Wire Resources where
  encode x := .record [present "claims" x.claims, present "limits" x.limits, present "requests" x.requests]
  decode? j := do
    let ms ← j.members?
    pure { claims := ← optional? ms "claims", limits := ← optional? ms "limits", requests := ← optional? ms "requests" }

/-- A port that a container listens on. -/
structure ContainerPort where
  containerPort : Int32 := 0
  hostIP : Option String := none
  hostPort : Option Int32 := none
  name : Option String := none
  protocol : Option String := none
deriving DecidableEq, Inhabited

instance : Wire ContainerPort where
  encode x := .record [
    always "containerPort" x.containerPort, present "hostIP" x.hostIP, present "hostPort" x.hostPort,
    present "name" x.name, present "protocol" x.protocol]
  decode? j := do
    let ms ← j.members?
    pure {
      containerPort := ← lenient? ms "containerPort", hostIP := ← optional? ms "hostIP",
      hostPort := ← optional? ms "hostPort", name := ← optional? ms "name", protocol := ← optional? ms "protocol" }

/-- The place of a volume in the file system of a container. -/
structure VolumeMount where
  mountPath : String := ""
  mountPropagation : Option String := none
  name : String := ""
  readOnly : Option Bool := none
  recursiveReadOnly : Option String := none
  subPath : Option String := none
  subPathExpr : Option String := none
deriving DecidableEq, Inhabited

instance : Wire VolumeMount where
  encode x := .record [
    always "mountPath" x.mountPath, present "mountPropagation" x.mountPropagation, always "name" x.name,
    present "readOnly" x.readOnly, present "recursiveReadOnly" x.recursiveReadOnly, present "subPath" x.subPath,
    present "subPathExpr" x.subPathExpr]
  decode? j := do
    let ms ← j.members?
    pure {
      mountPath := ← lenient? ms "mountPath", mountPropagation := ← optional? ms "mountPropagation",
      name := ← lenient? ms "name", readOnly := ← optional? ms "readOnly",
      recursiveReadOnly := ← optional? ms "recursiveReadOnly", subPath := ← optional? ms "subPath",
      subPathExpr := ← optional? ms "subPathExpr" }

/-- A device of the node in the file system of a container. -/
abbrev VolumeDevice := Carried [.always "devicePath" String, .always "name" String]

/-- What becomes of a container when a resource of it is changed. -/
abbrev ResizePolicy := Carried [.always "resourceName" String, .always "restartPolicy" String]

/-- A request that tells whether a container is well. -/
structure HttpGet where
  host : Option String := none
  httpHeaders : Option (List NamedText) := none
  path : Option String := none
  port : IntOrString := default
  scheme : Option String := none
deriving DecidableEq, Inhabited

instance : Wire HttpGet where
  encode x := .record [
    present "host" x.host, present "httpHeaders" x.httpHeaders, present "path" x.path, always "port" x.port,
    present "scheme" x.scheme]
  decode? j := do
    let ms ← j.members?
    pure {
      host := ← optional? ms "host", httpHeaders := ← optional? ms "httpHeaders", path := ← optional? ms "path",
      port := ← lenient? ms "port", scheme := ← optional? ms "scheme" }

/-- A command that is run in a container. -/
abbrev ExecAction := Carried [.optional "command" (List String)]

/-- A health check of a port by remote call. -/
abbrev GrpcAction := Carried [.always "port" Int32, .optional "service" String]

/-- A connection to a port. -/
abbrev TcpSocketAction := Carried [.optional "host" String, .always "port" IntOrString]

/-- When and how often a container is asked whether it is well. -/
structure Probe where
  exec : Option ExecAction := none
  failureThreshold : Option Int32 := none
  grpc : Option GrpcAction := none
  httpGet : Option HttpGet := none
  initialDelaySeconds : Option Int32 := none
  periodSeconds : Option Int32 := none
  successThreshold : Option Int32 := none
  tcpSocket : Option TcpSocketAction := none
  terminationGracePeriodSeconds : Option Int64 := none
  timeoutSeconds : Option Int32 := none
deriving DecidableEq, Inhabited

instance : Wire Probe where
  encode x := .record [
    present "exec" x.exec, present "failureThreshold" x.failureThreshold, present "grpc" x.grpc,
    present "httpGet" x.httpGet, present "initialDelaySeconds" x.initialDelaySeconds,
    present "periodSeconds" x.periodSeconds, present "successThreshold" x.successThreshold, present "tcpSocket" x.tcpSocket,
    present "terminationGracePeriodSeconds" x.terminationGracePeriodSeconds, present "timeoutSeconds" x.timeoutSeconds]
  decode? j := do
    let ms ← j.members?
    pure {
      exec := ← optional? ms "exec", failureThreshold := ← optional? ms "failureThreshold", grpc := ← optional? ms "grpc",
      httpGet := ← optional? ms "httpGet", initialDelaySeconds := ← optional? ms "initialDelaySeconds",
      periodSeconds := ← optional? ms "periodSeconds", successThreshold := ← optional? ms "successThreshold",
      tcpSocket := ← optional? ms "tcpSocket",
      terminationGracePeriodSeconds := ← optional? ms "terminationGracePeriodSeconds",
      timeoutSeconds := ← optional? ms "timeoutSeconds" }

/-- A pause. -/
abbrev SleepAction := Carried [.always "seconds" Int64]

/-- What is done when a container has been started or is to be stopped. -/
abbrev LifecycleHandler := Carried [
  .optional "exec" ExecAction, .optional "httpGet" HttpGet, .optional "sleep" SleepAction,
  .optional "tcpSocket" TcpSocketAction]

/-- What is done at the beginning and at the end of a container's life. -/
abbrev Lifecycle := Carried [
  .optional "postStart" LifecycleHandler, .optional "preStop" LifecycleHandler, .optional "stopSignal" String]

/-- The capabilities that a container gains and loses. -/
abbrev Capabilities := Carried [.optional "add" (List String), .optional "drop" (List String)]

/-- A security profile of the node. -/
abbrev SecurityProfile := Carried [.optional "localhostProfile" String, .always "type" String]

/-- A security label of processes. -/
abbrev SELinuxOptions := Carried [
  .optional "level" String, .optional "role" String, .optional "type" String, .optional "user" String]

/-- How processes run on nodes with another operating system. -/
abbrev WindowsOptions := Carried [
  .optional "gmsaCredentialSpec" String, .optional "gmsaCredentialSpecName" String, .optional "hostProcess" Bool,
  .optional "runAsUserName" String]

/-- What a container may do. -/
structure SecurityContext where
  allowPrivilegeEscalation : Option Bool := none
  appArmorProfile : Option SecurityProfile := none
  capabilities : Option Capabilities := none
  privileged : Option Bool := none
  procMount : Option String := none
  readOnlyRootFilesystem : Option Bool := none
  runAsGroup : Option Int64 := none
  runAsNonRoot : Option Bool := none
  runAsUser : Option Int64 := none
  seLinuxOptions : Option SELinuxOptions := none
  seccompProfile : Option SecurityProfile := none
  windowsOptions : Option WindowsOptions := none
deriving DecidableEq, Inhabited

instance : Wire SecurityContext where
  encode x := .record [
    present "allowPrivilegeEscalation" x.allowPrivilegeEscalation, present "appArmorProfile" x.appArmorProfile,
    present "capabilities" x.capabilities, present "privileged" x.privileged, present "procMount" x.procMount,
    present "readOnlyRootFilesystem" x.readOnlyRootFilesystem, present "runAsGroup" x.runAsGroup,
    present "runAsNonRoot" x.runAsNonRoot, present "runAsUser" x.runAsUser, present "seLinuxOptions" x.seLinuxOptions,
    present "seccompProfile" x.seccompProfile, present "windowsOptions" x.windowsOptions]
  decode? j := do
    let ms ← j.members?
    pure {
      allowPrivilegeEscalation := ← optional? ms "allowPrivilegeEscalation",
      appArmorProfile := ← optional? ms "appArmorProfile", capabilities := ← optional? ms "capabilities",
      privileged := ← optional? ms "privileged", procMount := ← optional? ms "procMount",
      readOnlyRootFilesystem := ← optional? ms "readOnlyRootFilesystem", runAsGroup := ← optional? ms "runAsGroup",
      runAsNonRoot := ← optional? ms "runAsNonRoot", runAsUser := ← optional? ms "runAsUser",
      seLinuxOptions := ← optional? ms "seLinuxOptions", seccompProfile := ← optional? ms "seccompProfile",
      windowsOptions := ← optional? ms "windowsOptions" }

/-- A container of a pod. -/
structure Container where
  args : Option (List String) := none
  command : Option (List String) := none
  env : Option (List EnvVar) := none
  envFrom : Option (List EnvFrom) := none
  image : Option String := none
  imagePullPolicy : Option String := none
  lifecycle : Option Lifecycle := none
  livenessProbe : Option Probe := none
  name : String := ""
  ports : Option (List ContainerPort) := none
  readinessProbe : Option Probe := none
  resizePolicy : Option (List ResizePolicy) := none
  resources : Option Resources := none
  restartPolicy : Option String := none
  securityContext : Option SecurityContext := none
  startupProbe : Option Probe := none
  stdin : Option Bool := none
  stdinOnce : Option Bool := none
  terminationMessagePath : Option String := none
  terminationMessagePolicy : Option String := none
  tty : Option Bool := none
  volumeDevices : Option (List VolumeDevice) := none
  volumeMounts : Option (List VolumeMount) := none
  workingDir : Option String := none
deriving DecidableEq, Inhabited

instance : Wire Container where
  encode x := .record [
    present "args" x.args, present "command" x.command, present "env" x.env, present "envFrom" x.envFrom,
    present "image" x.image, present "imagePullPolicy" x.imagePullPolicy, present "lifecycle" x.lifecycle,
    present "livenessProbe" x.livenessProbe, always "name" x.name, present "ports" x.ports,
    present "readinessProbe" x.readinessProbe, present "resizePolicy" x.resizePolicy, present "resources" x.resources,
    present "restartPolicy" x.restartPolicy, present "securityContext" x.securityContext,
    present "startupProbe" x.startupProbe, present "stdin" x.stdin, present "stdinOnce" x.stdinOnce,
    present "terminationMessagePath" x.terminationMessagePath,
    present "terminationMessagePolicy" x.terminationMessagePolicy, present "tty" x.tty,
    present "volumeDevices" x.volumeDevices, present "volumeMounts" x.volumeMounts, present "workingDir" x.workingDir]
  decode? j := do
    let ms ← j.members?
    pure {
      args := ← optional? ms "args", command := ← optional? ms "command", env := ← optional? ms "env",
      envFrom := ← optional? ms "envFrom", image := ← optional? ms "image",
      imagePullPolicy := ← optional? ms "imagePullPolicy", lifecycle := ← optional? ms "lifecycle",
      livenessProbe := ← optional? ms "livenessProbe", name := ← lenient? ms "name", ports := ← optional? ms "ports",
      readinessProbe := ← optional? ms "readinessProbe", resizePolicy := ← optional? ms "resizePolicy",
      resources := ← optional? ms "resources", restartPolicy := ← optional? ms "restartPolicy",
      securityContext := ← optional? ms "securityContext", startupProbe := ← optional? ms "startupProbe",
      stdin := ← optional? ms "stdin", stdinOnce := ← optional? ms "stdinOnce",
      terminationMessagePath := ← optional? ms "terminationMessagePath",
      terminationMessagePolicy := ← optional? ms "terminationMessagePolicy", tty := ← optional? ms "tty",
      volumeDevices := ← optional? ms "volumeDevices", volumeMounts := ← optional? ms "volumeMounts",
      workingDir := ← optional? ms "workingDir" }

/-- A container that is added to a running pod in order to look into it. -/
abbrev EphemeralContainer := Carried [
  .optional "args" (List String), .optional "command" (List String), .optional "env" (List EnvVar),
  .optional "envFrom" (List EnvFrom), .optional "image" String, .optional "imagePullPolicy" String,
  .optional "lifecycle" Lifecycle, .optional "livenessProbe" Probe, .always "name" String,
  .optional "ports" (List ContainerPort), .optional "readinessProbe" Probe, .optional "resizePolicy" (List ResizePolicy),
  .optional "resources" Resources, .optional "restartPolicy" String, .optional "securityContext" SecurityContext,
  .optional "startupProbe" Probe, .optional "stdin" Bool, .optional "stdinOnce" Bool,
  .optional "targetContainerName" String, .optional "terminationMessagePath" String,
  .optional "terminationMessagePolicy" String, .optional "tty" Bool, .optional "volumeDevices" (List VolumeDevice),
  .optional "volumeMounts" (List VolumeMount), .optional "workingDir" String]

end IngressOperator
