import ModalRust.Provision.Names
import ModalRust.Sdk.FunctionSpec

/-!
# Entrypoints and boundaries

The options of an entrypoint, the run and deploy boundaries, and `build_function_spec`,
which puts an entrypoint's options and its resolved resources into one function spec.
-/

namespace ModalRust.Provision

open ModalRust.Sdk

/-- The errors of provisioning. -/
inductive Error
  /-- A control-plane operation failed, or the SDK rejected a value. -/
  | sdk (e : Sdk.Error)
  /-- The facade rejected a configuration. -/
  | config (message : Text)
  deriving DecidableEq

/-- `AppState`. -/
inductive AppState
  /-- The app of a run. -/
  | ephemeral
  /-- A persistent app. -/
  | deployed
  deriving DecidableEq

/-- `SourceDelivery`. -/
inductive SourceDelivery
  /-- The source is mounted, and built in the function body. -/
  | runMount
  /-- The source is copied into the image, and built there. -/
  | deployContext
  deriving DecidableEq

/-- `Boundary`. -/
structure Boundary where
  /-- The state of the app. -/
  appState : AppState
  /-- How the source reaches the container. -/
  sourceDelivery : SourceDelivery
  deriving DecidableEq

/-- `RUN_BOUNDARY`. -/
def runBoundary : Boundary := ⟨.ephemeral, .runMount⟩

/-- `DEPLOY_BOUNDARY`. -/
def deployBoundary : Boundary := ⟨.deployed, .deployContext⟩

/-- `FunctionOptions`. -/
structure FunctionOptions where
  /-- The GPU spec. -/
  gpu : Option Text
  /-- The timeout in seconds. -/
  timeoutSecs : Option ℕ
  /-- Whether the build cache is on. -/
  cache : Option Bool
  /-- CPU in thousandths of a core. -/
  milliCpu : Option ℕ
  /-- Memory in mebibytes. -/
  memoryMb : Option ℕ
  /-- The named secrets. -/
  secrets : List Text
  /-- The keys that the named secrets must have. -/
  requiredKeys : List Text
  /-- The inline environment. -/
  env : List (Text × Text)
  /-- The volumes, as mount path and volume name. -/
  volumes : List (Text × Text)
  /-- The retry count. -/
  retries : Option ℕ
  /-- The retry spec. -/
  retriesSpec : Option Text
  /-- The schedule spec. -/
  schedule : Option Text
  /-- The autoscaler's floor. -/
  minContainers : Option ℕ
  /-- The autoscaler's ceiling. -/
  maxContainers : Option ℕ
  /-- Warm containers beyond demand. -/
  bufferContainers : Option ℕ
  /-- Seconds before an idle container is stopped. -/
  scaledownWindow : Option ℕ
  /-- The image spec, which is folded into the build configuration before provisioning. -/
  image : Option Text
  /-- The memory-snapshot opt-in. -/
  enableMemorySnapshot : Bool
  /-- The method of an endpoint. -/
  webhookMethod : Option Text
  /-- The proxy-authentication opt-in. -/
  webhookRequiresProxyAuth : Bool
  /-- The port of a web server. -/
  webServerPort : Option ℕ
  /-- The startup timeout of a web server. -/
  webServerStartupTimeout : Option ℕ
  /-- The largest number of inputs that a container runs at once. -/
  maxConcurrentInputs : Option ℕ
  /-- The number of inputs that a container should run at once. -/
  targetConcurrentInputs : Option ℕ
  deriving DecidableEq

/-- `FunctionOptions::default`. -/
def FunctionOptions.default : FunctionOptions where
  gpu := none
  timeoutSecs := none
  cache := none
  milliCpu := none
  memoryMb := none
  secrets := []
  requiredKeys := []
  env := []
  volumes := []
  retries := none
  retriesSpec := none
  schedule := none
  minContainers := none
  maxContainers := none
  bufferContainers := none
  scaledownWindow := none
  image := none
  enableMemorySnapshot := false
  webhookMethod := none
  webhookRequiresProxyAuth := false
  webServerPort := none
  webServerStartupTimeout := none
  maxConcurrentInputs := none
  targetConcurrentInputs := none

/-- `Entrypoint`. -/
structure Entrypoint where
  /-- The name. -/
  name : Text
  /-- The options. -/
  options : FunctionOptions
  /-- The effective timeout in seconds. -/
  timeoutSecs : ℕ
  deriving DecidableEq

/-- `AttachedResources`. -/
structure AttachedResources where
  /-- The mount of the client. -/
  clientMountId : Text
  /-- The mount of the source. -/
  sourceMountId : Text
  /-- The volume of the cargo cache. -/
  cacheVolId : Option Text
  /-- The secrets. -/
  secretIds : List Text
  /-- The user's volumes, with their mount paths. -/
  userVolumeMounts : List (Text × Text)
  deriving DecidableEq

/-- `WRAPPER_MODULE`. -/
def wrapperModule : Text := "modal_rust_run_wrapper".toList

/-- `DEPLOY_WRAPPER_MODULE`. -/
def deployWrapperModule : Text := "modal_rust_deploy_wrapper".toList

/-- `CACHE_MOUNT`. -/
def cacheMount : Text := "/cache".toList

/-- The webhook of an entrypoint, which only a deploy has. -/
def webhookFor (boundary : Boundary) (ep : Entrypoint) : Option WebhookSpec :=
  match ep.options.webServerPort, ep.options.webhookMethod, boundary.appState with
  | some port, _, .deployed =>
    some ⟨[], ep.options.webhookRequiresProxyAuth, some port,
      ep.options.webServerStartupTimeout⟩
  | none, some method, .deployed =>
    some ⟨method, ep.options.webhookRequiresProxyAuth, none, none⟩
  | _, _, _ => none

/-- The callable of an entrypoint within the wrapper module. -/
def callableFor (boundary : Boundary) (ep : Entrypoint) : Text :=
  let webhook := webhookFor boundary ep
  match boundary.sourceDelivery with
  | .runMount => wrapperCallable
  | .deployContext =>
    if webhook.any fun w => w.webServerPort.isSome then webServerAttr ep.name
    else if webhook.isSome then webEndpointAttr ep.name
    else deployWrapperCallable

/-- `build_function_spec`. -/
def buildFunctionSpec (std : Std) (boundary : Boundary) (ep : Entrypoint) (imageId : Text)
    (res : AttachedResources) : Except Sdk.Error FunctionSpec := do
  let objectTag := sanitizeObjectTag ep.name
  let (module, mountIds) := match boundary.sourceDelivery with
    | .runMount => (wrapperModule, [res.clientMountId, res.sourceMountId])
    | .deployContext => (deployWrapperModule, [res.clientMountId])
  let spec := FunctionSpec.new module (callableFor boundary ep) imageId
  let spec := spec.withAppFunctionName objectTag
  let spec := spec.withMountIds mountIds
  let spec := spec.withMountClientDependencies true
  let spec := spec.withTimeoutSecs ep.timeoutSecs
  let spec ← spec.withGpu std ep.options.gpu
  let spec := spec.withMilliCpu ep.options.milliCpu
  let spec := spec.withMemoryMb ep.options.memoryMb
  let spec ← spec.withConcurrency ep.options.maxConcurrentInputs ep.options.targetConcurrentInputs
  let spec ← spec.withSchedule std ep.options.schedule
  let spec ← spec.withAutoscaler ⟨ep.options.minContainers, ep.options.maxContainers,
    ep.options.bufferContainers, ep.options.scaledownWindow⟩
  let spec := spec.withMemorySnapshot
    (ep.options.enableMemorySnapshot && boundary.appState == .deployed)
  let spec ← spec.withWebhook std (webhookFor boundary ep)
  let spec ← match ep.options.retriesSpec with
    | some policy => spec.withRetryPolicy std (some policy)
    | none => pure (spec.withRetries ep.options.retries)
  let spec := match res.cacheVolId with
    | some volume => spec.withVolumeMount volume cacheMount
    | none => spec
  let spec := res.userVolumeMounts.foldl
    (fun spec mount => spec.withVolumeMount mount.1 mount.2) spec
  return if res.secretIds.isEmpty then spec else spec.withSecretIds res.secretIds

/-- What the options of an entrypoint are checked for, with the schedule and the retry
policy that are read from them. -/
def checkOptions (std : Std) (boundary : Boundary) (ep : Entrypoint) :
    Except Sdk.Error (Option Schedule × Option FunctionRetryPolicy) := do
  let _ ← ep.options.gpu.mapM (parseGpuConfig std)
  FunctionSpec.checkConcurrency ep.options.maxConcurrentInputs ep.options.targetConcurrentInputs
  let schedule ← ep.options.schedule.mapM (parseSchedule std)
  FunctionSpec.checkAutoscaler ⟨ep.options.minContainers, ep.options.maxContainers,
    ep.options.bufferContainers, ep.options.scaledownWindow⟩
  FunctionSpec.checkWebhook std (webhookFor boundary ep)
  match ep.options.retriesSpec with
  | some policy => do return (schedule, some (← parseRetriesSpec std policy))
  | none => return (schedule, ep.options.retries.map fun n => ⟨retryDefaultBackoffCoefficient,
      retryDefaultInitialDelayMs, retryDefaultMaxDelayMs, n⟩)

/-- The function spec of an entrypoint, from its checked options. -/
def functionSpecOf (boundary : Boundary) (ep : Entrypoint) (imageId : Text)
    (res : AttachedResources) (schedule : Option Schedule) (policy : Option FunctionRetryPolicy) :
    FunctionSpec where
  moduleName := match boundary.sourceDelivery with
    | .runMount => wrapperModule
    | .deployContext => deployWrapperModule
  functionName := callableFor boundary ep
  appFunctionName := some (sanitizeObjectTag ep.name)
  imageId := imageId
  mountIds := match boundary.sourceDelivery with
    | .runMount => [res.clientMountId, res.sourceMountId]
    | .deployContext => [res.clientMountId]
  timeoutSecs := ep.timeoutSecs
  resources := ⟨ep.options.memoryMb.getD 0, ep.options.milliCpu.getD 0, ep.options.gpu⟩
  mountClientDependencies := true
  volumeMounts := (res.cacheVolId.toList.map fun volume => .new volume cacheMount) ++
    res.userVolumeMounts.map fun mount => .new mount.1 mount.2
  secretIds := res.secretIds
  retryPolicy := policy
  schedule := schedule
  autoscaler := ⟨ep.options.minContainers, ep.options.maxContainers,
    ep.options.bufferContainers, ep.options.scaledownWindow⟩
  checkpointingEnabled := ep.options.enableMemorySnapshot && boundary.appState == .deployed
  webhook := webhookFor boundary ep
  maxConcurrentInputs := ep.options.maxConcurrentInputs
  targetConcurrentInputs := ep.options.targetConcurrentInputs

/-- Mounting volumes one after another appends them. -/
theorem foldl_withVolumeMount (mounts : List (Text × Text)) (spec : FunctionSpec) :
    mounts.foldl (fun spec mount => spec.withVolumeMount mount.1 mount.2) spec =
      { spec with volumeMounts := spec.volumeMounts ++
          mounts.map fun mount => .new mount.1 mount.2 } := by
  induction mounts generalizing spec with
  | nil => simp
  | cons mount mounts ih =>
    rw [List.foldl_cons, ih]
    simp [FunctionSpec.withVolumeMount]

/-- Building a function spec is checking the options, and then filling in the record: the
resources play no part in the checks. -/
theorem buildFunctionSpec_eq (std : Std) (boundary : Boundary) (ep : Entrypoint) (imageId : Text)
    (res : AttachedResources) :
    buildFunctionSpec std boundary ep imageId res =
      (checkOptions std boundary ep).map fun checked =>
        functionSpecOf boundary ep imageId res checked.1 checked.2 := by
  obtain ⟨state, delivery⟩ := boundary
  obtain ⟨client, source, cache, secrets, volumes⟩ := res
  simp only [buildFunctionSpec, checkOptions, FunctionSpec.withGpu, FunctionSpec.withConcurrency,
    FunctionSpec.withSchedule, FunctionSpec.withAutoscaler, FunctionSpec.withWebhook,
    foldl_withVolumeMount]
  -- a failed check ends both sides with the same error
  cases ep.options.gpu.mapM (parseGpuConfig std) with
  | error e => rfl
  | ok _ =>
  cases FunctionSpec.checkConcurrency ep.options.maxConcurrentInputs
    ep.options.targetConcurrentInputs with
  | error e => rfl
  | ok _ =>
  cases ep.options.schedule.mapM (parseSchedule std) with
  | error e => rfl
  | ok schedule =>
  cases FunctionSpec.checkAutoscaler ⟨ep.options.minContainers, ep.options.maxContainers,
    ep.options.bufferContainers, ep.options.scaledownWindow⟩ with
  | error e => rfl
  | ok _ =>
  cases FunctionSpec.checkWebhook std (webhookFor ⟨state, delivery⟩ ep) with
  | error e => rfl
  | ok _ =>
  cases ep.options.retriesSpec with
  | none => cases secrets <;> cases cache <;> cases delivery <;> rfl
  | some policy =>
    simp only [FunctionSpec.withRetryPolicy, Option.mapM_some]
    cases parseRetriesSpec std policy with
    | error e => rfl
    | ok policy => cases secrets <;> cases cache <;> cases delivery <;> rfl

end ModalRust.Provision
