import ModalRust.Sdk.Specs

/-!
# Function specs

`FunctionSpec` of the SDK with its builders. A builder sets one group of fields, and the
ones that can reject a value do so before they change anything.
-/

namespace ModalRust.Sdk

/-- `FunctionResources`. -/
structure FunctionResources where
  /-- Requested memory in mebibytes; `0` is the server's default. -/
  memoryMb : ℕ
  /-- Requested CPU in thousandths of a core; `0` is the server's default. -/
  milliCpu : ℕ
  /-- The GPU spec, or none for CPU only. -/
  gpu : Option Text
  deriving DecidableEq

/-- `FunctionVolumeMount`. -/
structure FunctionVolumeMount where
  /-- The resolved volume. -/
  volumeId : Text
  /-- The mount path in the container. -/
  mountPath : Text
  /-- Whether background commits are on. -/
  allowBackgroundCommits : Bool
  deriving DecidableEq

/-- `FunctionVolumeMount::new`. -/
def FunctionVolumeMount.new (volumeId mountPath : Text) : FunctionVolumeMount :=
  ⟨volumeId, mountPath, true⟩

/-- `FunctionAutoscaler`. -/
structure FunctionAutoscaler where
  /-- The floor. -/
  minContainers : Option ℕ
  /-- The ceiling. -/
  maxContainers : Option ℕ
  /-- Warm containers beyond demand. -/
  bufferContainers : Option ℕ
  /-- Seconds before an idle container is stopped. -/
  scaledownWindow : Option ℕ
  deriving DecidableEq

/-- `WebhookSpec`. -/
structure WebhookSpec where
  /-- The HTTP method; empty for a web server. -/
  method : Text
  /-- Whether proxy authentication is required. -/
  requiresProxyAuth : Bool
  /-- The bound port of a web server. -/
  webServerPort : Option ℕ
  /-- The startup timeout of a web server, in seconds. -/
  webServerStartupTimeout : Option ℕ
  deriving DecidableEq

/-- `FunctionSpec`. -/
structure FunctionSpec where
  /-- The importable module. -/
  moduleName : Text
  /-- The callable within the module. -/
  functionName : Text
  /-- The object tag, if it is not the callable. -/
  appFunctionName : Option Text
  /-- The built image. -/
  imageId : Text
  /-- The attached mounts. -/
  mountIds : List Text
  /-- The timeout in seconds. -/
  timeoutSecs : ℕ
  /-- The requested resources. -/
  resources : FunctionResources
  /-- Whether the worker mounts the client's dependencies. -/
  mountClientDependencies : Bool
  /-- The attached volumes. -/
  volumeMounts : List FunctionVolumeMount
  /-- The attached secrets. -/
  secretIds : List Text
  /-- The retry policy. -/
  retryPolicy : Option FunctionRetryPolicy
  /-- The schedule. -/
  schedule : Option Schedule
  /-- The autoscaler. -/
  autoscaler : FunctionAutoscaler
  /-- Whether memory snapshots are on. -/
  checkpointingEnabled : Bool
  /-- The web endpoint. -/
  webhook : Option WebhookSpec
  /-- The largest number of inputs that a container runs at once. -/
  maxConcurrentInputs : Option ℕ
  /-- The number of inputs that a container should run at once. -/
  targetConcurrentInputs : Option ℕ
  deriving DecidableEq

namespace FunctionSpec

/-- `FunctionSpec::new`. -/
def new (moduleName functionName imageId : Text) : FunctionSpec where
  moduleName := moduleName
  functionName := functionName
  appFunctionName := none
  imageId := imageId
  mountIds := []
  timeoutSecs := 300
  resources := ⟨0, 0, none⟩
  mountClientDependencies := true
  volumeMounts := []
  secretIds := []
  retryPolicy := none
  schedule := none
  autoscaler := ⟨none, none, none, none⟩
  checkpointingEnabled := false
  webhook := none
  maxConcurrentInputs := none
  targetConcurrentInputs := none

/-- `object_tag`. -/
def objectTag (spec : FunctionSpec) : Text := spec.appFunctionName.getD spec.functionName

/-- The `implementation_name` of the create request: the callable, unless it is the tag. -/
def implementationName (spec : FunctionSpec) : Text :=
  if spec.objectTag = spec.functionName then [] else spec.functionName

/-- `with_app_function_name`. -/
def withAppFunctionName (spec : FunctionSpec) (name : Text) : FunctionSpec :=
  { spec with appFunctionName := some name }

/-- `with_mount_ids`. -/
def withMountIds (spec : FunctionSpec) (mountIds : List Text) : FunctionSpec :=
  { spec with mountIds := mountIds }

/-- `with_mount_client_dependencies`. -/
def withMountClientDependencies (spec : FunctionSpec) (enabled : Bool) : FunctionSpec :=
  { spec with mountClientDependencies := enabled }

/-- `with_timeout_secs`. -/
def withTimeoutSecs (spec : FunctionSpec) (secs : ℕ) : FunctionSpec :=
  { spec with timeoutSecs := secs }

/-- `with_milli_cpu`. -/
def withMilliCpu (spec : FunctionSpec) (milliCpu : Option ℕ) : FunctionSpec :=
  { spec with resources := { spec.resources with milliCpu := milliCpu.getD 0 } }

/-- `with_memory_mb`. -/
def withMemoryMb (spec : FunctionSpec) (memoryMb : Option ℕ) : FunctionSpec :=
  { spec with resources := { spec.resources with memoryMb := memoryMb.getD 0 } }

/-- `with_gpu`. -/
def withGpu (std : Std) (spec : FunctionSpec) (gpu : Option Text) : Except Error FunctionSpec := do
  let _ ← gpu.mapM (parseGpuConfig std)
  return { spec with resources := { spec.resources with gpu := gpu } }

/-- `with_volume_mount`. -/
def withVolumeMount (spec : FunctionSpec) (volumeId mountPath : Text) : FunctionSpec :=
  { spec with volumeMounts := spec.volumeMounts ++ [.new volumeId mountPath] }

/-- `with_secret_ids`. -/
def withSecretIds (spec : FunctionSpec) (secretIds : List Text) : FunctionSpec :=
  { spec with secretIds := secretIds }

/-- `with_retries`. -/
def withRetries (spec : FunctionSpec) (retries : Option ℕ) : FunctionSpec :=
  { spec with retryPolicy := retries.map fun n =>
      ⟨retryDefaultBackoffCoefficient, retryDefaultInitialDelayMs, retryDefaultMaxDelayMs, n⟩ }

/-- `with_retry_policy`. -/
def withRetryPolicy (std : Std) (spec : FunctionSpec) (policy : Option Text) :
    Except Error FunctionSpec := do
  let policy ← policy.mapM (parseRetriesSpec std)
  return { spec with retryPolicy := policy }

/-- `with_schedule`. -/
def withSchedule (std : Std) (spec : FunctionSpec) (schedule : Option Text) :
    Except Error FunctionSpec := do
  let schedule ← schedule.mapM (parseSchedule std)
  return { spec with schedule := schedule }

/-- The checks of `with_autoscaler`. -/
def checkAutoscaler (autoscaler : FunctionAutoscaler) : Except Error Unit := do
  if let (some min, some max) := (autoscaler.minContainers, autoscaler.maxContainers) then
    if max < min then
      throw (.invalid ("`min_containers` (".toList ++ Nat.toDigits 10 min ++
        ") cannot be greater than `max_containers` (".toList ++ Nat.toDigits 10 max ++
        ")".toList))
  if autoscaler.scaledownWindow = some 0 then
    throw (.invalid "`scaledown_window` must be > 0".toList)

/-- `with_autoscaler`. -/
def withAutoscaler (spec : FunctionSpec) (autoscaler : FunctionAutoscaler) :
    Except Error FunctionSpec := do
  checkAutoscaler autoscaler
  return { spec with autoscaler := autoscaler }

/-- The checks of `with_concurrency`. -/
def checkConcurrency (maxInputs targetInputs : Option ℕ) : Except Error Unit := do
  if maxInputs = some 0 then
    throw (.invalid "`max_concurrent_inputs` must be >= 1".toList)
  if targetInputs = some 0 then
    throw (.invalid "`target_concurrent_inputs` must be >= 1".toList)
  if targetInputs.isSome ∧ maxInputs.isNone then
    throw (.invalid
      "`target_concurrent_inputs` requires `max_concurrent_inputs` to be set".toList)
  if let (some max, some target) := (maxInputs, targetInputs) then
    if target > max then
      throw (.invalid ("`target_concurrent_inputs` (".toList ++ Nat.toDigits 10 target ++
        ") cannot be greater than `max_concurrent_inputs` (".toList ++ Nat.toDigits 10 max ++
        ")".toList))

/-- `with_concurrency`. -/
def withConcurrency (spec : FunctionSpec) (maxInputs targetInputs : Option ℕ) :
    Except Error FunctionSpec := do
  checkConcurrency maxInputs targetInputs
  return { spec with maxConcurrentInputs := maxInputs, targetConcurrentInputs := targetInputs }

/-- `with_memory_snapshot`. -/
def withMemorySnapshot (spec : FunctionSpec) (on : Bool) : FunctionSpec :=
  { spec with checkpointingEnabled := on }

/-- The methods that an endpoint may declare. -/
def methods : List Text := ["GET", "POST", "PUT", "DELETE", "PATCH"].map String.toList

/-- The check of `with_webhook`. -/
def checkWebhook (std : Std) (webhook : Option WebhookSpec) : Except Error Unit := do
  if let some w := webhook then
    if w.webServerPort.isNone ∧ w.method ∉ methods then
      throw (.invalid ("invalid webhook method ".toList ++ std.debug w.method ++
        ": expected one of GET, POST, PUT, DELETE, PATCH".toList))

/-- `with_webhook`. -/
def withWebhook (std : Std) (spec : FunctionSpec) (webhook : Option WebhookSpec) :
    Except Error FunctionSpec := do
  checkWebhook std webhook
  return { spec with webhook := webhook }

end FunctionSpec

end ModalRust.Sdk
