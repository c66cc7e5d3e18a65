import ModalRust.Sdk.FunctionSpec

/-!
# The create request

`build_function_create_request` of `ops/function/rpc.rs`, with the part of the protocol's
`Function` message that it sets. All other fields have their defaults.
-/

namespace ModalRust.Sdk

/-- What is taken from Rust's `f32` as it is. -/
structure Floats where
  /-- `as f32` on a `u32`. -/
  ofU32 : ℕ → F32
  /-- The text of a float under `{}`. -/
  display : F32 → Text
  /-- The text has no comma. -/
  no_comma : ∀ x, ',' ∉ display x

/-- The empty text has no comma. -/
theorem no_comma_nil : ∀ _ : F32, ',' ∉ ([] : Text) := fun _ => List.not_mem_nil

/-- `DataFormat`, as far as it is advertised. -/
inductive DataFormat
  /-- `DATA_FORMAT_PICKLE`. -/
  | pickle
  /-- `DATA_FORMAT_CBOR`. -/
  | cbor
  /-- `DATA_FORMAT_ASGI`. -/
  | asgi
  /-- `DATA_FORMAT_GENERATOR_DONE`. -/
  | generatorDone
  deriving DecidableEq

/-- `DefinitionType`. -/
inductive DefinitionType
  /-- Unspecified. -/
  | unspecified
  /-- The function is pickled. -/
  | serialized
  /-- The function is in a file. -/
  | file
  deriving DecidableEq

/-- `FunctionType`. -/
inductive FunctionType
  /-- Unspecified. -/
  | unspecified
  /-- A generator. -/
  | generator
  /-- A function. -/
  | function
  deriving DecidableEq

/-- `WebhookType`, as far as it is used. -/
inductive WebhookType
  /-- One request is one call. -/
  | function
  /-- Traffic is forwarded to a port. -/
  | webServer
  deriving DecidableEq

/-- `Resources`. -/
structure Resources where
  /-- Memory in mebibytes. -/
  memoryMb : ℕ
  /-- CPU in thousandths of a core. -/
  milliCpu : ℕ
  /-- The GPUs. -/
  gpuConfig : Option GpuConfig
  deriving DecidableEq

/-- `VolumeMount`. -/
structure VolumeMount where
  /-- The volume. -/
  volumeId : Text
  /-- Where it is mounted. -/
  mountPath : Text
  /-- Whether background commits are on. -/
  allowBackgroundCommits : Bool
  /-- Whether the volume cannot be written. -/
  readOnly : Bool
  /-- The mounted part of the volume. -/
  subPath : Option Text
  deriving DecidableEq

/-- `WebhookConfig`. -/
structure WebhookConfig where
  /-- The kind. -/
  type : WebhookType
  /-- The HTTP method. -/
  method : Text
  /-- The port of a web server. -/
  webServerPort : ℕ
  /-- The startup timeout of a web server. -/
  webServerStartupTimeout : F32
  /-- Whether proxy authentication is required. -/
  requiresProxyAuth : Bool
  deriving DecidableEq

/-- `Function`. -/
structure Function where
  /-- The importable module. -/
  moduleName : Text
  /-- The object tag. -/
  functionName : Text
  /-- The callable, if it is not the tag. -/
  implementationName : Text
  /-- The mounts. -/
  mountIds : List Text
  /-- The image. -/
  imageId : Text
  /-- The pickled function. -/
  functionSerialized : Bytes
  /-- How the function is defined. -/
  definitionType : DefinitionType
  /-- What the function is. -/
  functionType : FunctionType
  /-- The resources. -/
  resources : Option Resources
  /-- The timeout in seconds. -/
  timeoutSecs : ℕ
  /-- The formats of inputs. -/
  supportedInputFormats : List DataFormat
  /-- The formats of outputs. -/
  supportedOutputFormats : List DataFormat
  /-- Whether the worker mounts the client's dependencies. -/
  mountClientDependencies : Bool
  /-- The volumes. -/
  volumeMounts : List VolumeMount
  /-- The secrets. -/
  secretIds : List Text
  /-- The retry policy. -/
  retryPolicy : Option FunctionRetryPolicy
  /-- The schedule. -/
  schedule : Option Schedule
  /-- The autoscaler. -/
  autoscalerSettings : Option FunctionAutoscaler
  /-- The old name of the floor. -/
  warmPoolSize : ℕ
  /-- The old name of the ceiling. -/
  concurrencyLimit : ℕ
  /-- The old name of the buffer. -/
  experimentalBufferContainers : ℕ
  /-- The old name of the scaledown window. -/
  taskIdleTimeoutSecs : ℕ
  /-- Whether memory snapshots are on. -/
  checkpointingEnabled : Bool
  /-- The same, under its old name. -/
  isCheckpointingFunction : Bool
  /-- The web endpoint or web server. -/
  webhookConfig : Option WebhookConfig
  /-- The largest number of inputs that a container runs at once. -/
  maxConcurrentInputs : ℕ
  /-- The number of inputs that a container should run at once. -/
  targetConcurrentInputs : ℕ
  deriving DecidableEq

/-- `FunctionCreateRequest`. -/
structure FunctionCreateRequest where
  /-- The function, which is always set. -/
  function : Function
  /-- The app. -/
  appId : Text
  /-- The function that was created before. -/
  existingFunctionId : Text
  /-- The alternative to `function`. -/
  functionData : Option Bytes
  deriving DecidableEq

/-- `FunctionResources::to_proto`. The GPU spec was checked when it was set. -/
def FunctionResources.toProto (std : Std) (r : FunctionResources) : Resources where
  memoryMb := r.memoryMb
  milliCpu := r.milliCpu
  gpuConfig := r.gpu.map fun spec => (parseGpuConfig std spec).toOption.getD ⟨[], 0⟩

/-- `FunctionVolumeMount::to_proto`. -/
def FunctionVolumeMount.toProto (m : FunctionVolumeMount) : VolumeMount :=
  ⟨m.volumeId, m.mountPath, m.allowBackgroundCommits, false, none⟩

/-- `FunctionAutoscaler::is_empty`. -/
def FunctionAutoscaler.isEmpty (a : FunctionAutoscaler) : Bool :=
  a.minContainers.isNone && a.maxContainers.isNone && a.bufferContainers.isNone &&
    a.scaledownWindow.isNone

/-- `supported_formats`. -/
def supportedFormats : List DataFormat := [.pickle, .cbor]

/-- The webhook of the create request. -/
def WebhookSpec.toProto (floats : Floats) (w : WebhookSpec) : WebhookConfig :=
  match w.webServerPort with
  | some port =>
    { type := .webServer
      method := []
      webServerPort := port
      webServerStartupTimeout := floats.ofU32 (w.webServerStartupTimeout.getD 0)
      requiresProxyAuth := w.requiresProxyAuth }
  | none =>
    { type := .function
      method := w.method
      webServerPort := 0
      webServerStartupTimeout := 0
      requiresProxyAuth := w.requiresProxyAuth }

/-- `build_function_create_request`. -/
def buildFunctionCreateRequest (std : Std) (floats : Floats) (appId precreateFunctionId : Text)
    (spec : FunctionSpec) : FunctionCreateRequest where
  function :=
    { moduleName := spec.moduleName
      functionName := spec.objectTag
      implementationName := spec.implementationName
      mountIds := spec.mountIds
      imageId := spec.imageId
      functionSerialized := []
      definitionType := .file
      functionType := .function
      resources := some (spec.resources.toProto std)
      timeoutSecs := spec.timeoutSecs
      supportedInputFormats := if spec.webhook.isSome then [.asgi] else supportedFormats
      supportedOutputFormats :=
        if spec.webhook.isSome then [.asgi, .generatorDone] else supportedFormats
      mountClientDependencies := spec.mountClientDependencies
      volumeMounts := spec.volumeMounts.map FunctionVolumeMount.toProto
      secretIds := spec.secretIds
      retryPolicy := spec.retryPolicy
      schedule := spec.schedule
      autoscalerSettings := if spec.autoscaler.isEmpty then none else some spec.autoscaler
      warmPoolSize := spec.autoscaler.minContainers.getD 0
      concurrencyLimit := spec.autoscaler.maxContainers.getD 0
      experimentalBufferContainers := spec.autoscaler.bufferContainers.getD 0
      taskIdleTimeoutSecs := spec.autoscaler.scaledownWindow.getD 0
      checkpointingEnabled := spec.checkpointingEnabled
      isCheckpointingFunction := spec.checkpointingEnabled
      webhookConfig := spec.webhook.map (WebhookSpec.toProto floats)
      maxConcurrentInputs := spec.maxConcurrentInputs.getD 0
      targetConcurrentInputs := spec.targetConcurrentInputs.getD 0 }
  appId := appId
  existingFunctionId := precreateFunctionId
  functionData := none

end ModalRust.Sdk
