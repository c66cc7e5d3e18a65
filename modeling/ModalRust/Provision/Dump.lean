import ModalRust.Provision.Planned
import ModalRust.Provision.Run

/-!
# The dry run of a deploy

`deploy_function` of `deploy.rs`, up to its provisioning, and `dump_deploy_manifest` of
`dump.rs`. Both drive `provision`, but each prepares the inputs in its own code: the deploy
talks to a backend, and the dry run to a control plane that records what it is asked and
makes up ids.
-/

namespace ModalRust.Provision

open ModalRust.Sdk ModalRust.Session

/-- `DeployConfig`. -/
structure DeployConfig where
  /-- The app name. -/
  appName : Text
  /-- The workspace root. -/
  localRoot : Text
  /-- The cargo package. -/
  package : Text
  /-- Whether the upload is scoped to the package's dependency closure. -/
  useCargoScoping : Bool
  /-- The name of the ignore file. -/
  modalignoreName : Text
  /-- The registry tag of the base image. -/
  baseImage : Text
  /-- The default timeout in seconds. -/
  timeoutSecs : ℕ
  /-- Whether the Rust toolchain is installed. -/
  installRust : Bool
  /-- The image steps. -/
  imageSteps : List ImageStep
  /-- Whether a failed snapshot prime is tolerated. -/
  snapshotBestEffort : Bool
  /-- Whether the dependencies are built in a layer of their own. -/
  depPrebuild : Bool
  /-- The options of the fallback function. -/
  options : FunctionOptions

/-- `DeployEntrypoint`. -/
structure DeployEntrypoint where
  /-- The name. -/
  name : Text
  /-- The options. -/
  options : FunctionOptions

/-- The view of a deploy configuration that images are folded into. The fold leaves all fields
alone but the base image, the toolchain and the steps. -/
def DeployConfig.view (config : DeployConfig) : RemoteConfig where
  localRoot := config.localRoot
  package := config.package
  remoteSrc := deploySrc
  useCargoScoping := config.useCargoScoping
  modalignoreName := config.modalignoreName
  baseImage := config.baseImage
  timeoutSecs := config.timeoutSecs
  installRust := config.installRust
  imageSteps := config.imageSteps
  cache := false

/-- `with_function_image`: the first declared image wins. -/
def DeployConfig.withFunctionImage (host : Host) (config : DeployConfig)
    (entrypointImages : List (Option Text)) : Except Error DeployConfig :=
  match entrypointImages.reduceOption with
  | [] => .ok config
  | spec :: _ =>
    (applyFunctionImage host config.view (some spec)).map fun view => { config with
      baseImage := view.baseImage
      installRust := view.installRust
      imageSteps := view.imageSteps }

/-- `ENDPOINT_FASTAPI_REQUIREMENT`. -/
def endpointFastapiRequirement : Text := "fastapi[standard]".toList

/-- The name of a Python package, without its extras and its version. -/
def packageName (requirement : Text) : Text :=
  trim (requirement.takeWhile fun c => c ∉ ['[', '=', '<', '>', '!', '~', ' ', ';'])

/-- A step installs FastAPI. -/
def ImageStep.installsFastapi : ImageStep → Bool
  | .pip packages => packages.any fun pkg =>
      (packageName pkg).map Char.toLower == "fastapi".toList
  | _ => false

/-- `append_endpoint_pip_step`. -/
def appendEndpointPipStep (imageSteps : List ImageStep)
    (entrypointOptions : List FunctionOptions) : List ImageStep :=
  if entrypointOptions.any fun options => options.webhookMethod.isSome then
    if imageSteps.any ImageStep.installsFastapi then imageSteps
    else imageSteps ++ [.pip [endpointFastapiRequirement]]
  else imageSteps

/-- The inputs of a provisioning, from a configuration and a plan. -/
def DeployConfig.provisionInputs (config : DeployConfig) (entrypoints : List Entrypoint) :
    ProvisionInputs where
  appName := config.appName
  appId := none
  source := ⟨config.localRoot, config.package, config.useCargoScoping, config.modalignoreName,
    deploySrc⟩
  baseImage := config.baseImage
  installRust := config.installRust
  imageSteps := config.imageSteps
  cache := false
  snapshotBestEffort := config.snapshotBestEffort
  depPrebuild := config.depPrebuild
  entrypoints := entrypoints

/-- An entrypoint of a plan, with the timeout that it declares or the default. -/
def DeployConfig.planned (config : DeployConfig) (ep : DeployEntrypoint) : Entrypoint :=
  ⟨ep.name, ep.options, ep.options.timeoutSecs.getD config.timeoutSecs⟩

/-- The plan of `deploy_function`: without entrypoints, one function with the options of the
configuration. -/
def DeployConfig.plan (config : DeployConfig) (entrypoints : List DeployEntrypoint) :
    List Entrypoint :=
  if entrypoints.isEmpty then [⟨deployWrapperCallable, config.options, config.timeoutSecs⟩]
  else entrypoints.map config.planned

/-- What `deploy_function` provisions. -/
def deployInputs (host : Host) (config : DeployConfig) (entrypoints : List DeployEntrypoint) :
    Except Error ProvisionInputs :=
  (config.withFunctionImage host (entrypoints.map fun ep => ep.options.image)).map fun config =>
    let plan := config.plan entrypoints
    let imageSteps := appendEndpointPipStep config.imageSteps (plan.map Entrypoint.options)
    { config with imageSteps := imageSteps }.provisionInputs plan

/-- What the live control plane talks to: the server, and cargo's view of the workspace. -/
structure Backend (σ : Type) where
  /-- `workspace_closure_stub` finds the stub source of a package. -/
  stubFound : SourceInputs → Bool
  /-- The id or the URL that a request is answered with. -/
  answer : Request → σ → Text × σ
  /-- What a create returns. -/
  created : Request → σ → Created × σ

variable {σ : Type}

/-- A request that is answered with a text. -/
def Backend.respond (backend : Backend σ) (request : Request) (s : σ) : Except Error Text × σ :=
  let (text, s) := backend.answer request s
  (.ok text, s)

/-- `LiveControlPlane`, with a backend that does not fail. -/
def liveControlPlane (backend : Backend σ) : ControlPlane σ
  | .ensureApp _ (some appId) .ephemeral, s => (.ok appId, s)
  | .ensureApp appName none .ephemeral, s =>
    backend.respond (.ensureApp appName none .ephemeral) s
  | .ensureApp appName preResolved .deployed, s =>
    backend.respond (.ensureApp appName preResolved .deployed) s
  | .ensureVolume name v2, s => backend.respond (.ensureVolume name v2) s
  | .ensureSecret name requiredKeys, s => backend.respond (.ensureSecret name requiredKeys) s
  | .ensureInlineSecret name env, s => backend.respond (.ensureInlineSecret name env) s
  | .ensureClientMount, s => backend.respond .ensureClientMount s
  | .ensureSourceMount source remotePath, s =>
    backend.respond (.ensureSourceMount source remotePath) s
  | .ensurePrebuildMount source remotePath, s =>
    if source.useCargoScoping && backend.stubFound source then
      let (mountId, s) := backend.answer (.ensurePrebuildMount source remotePath) s
      (.ok (some mountId), s)
    else (.ok none, s)
  | .ensurePythonMount series, s => backend.respond (.ensurePythonMount series) s
  | .ensureImage appId spec layer, s => backend.respond (.ensureImage appId spec layer) s
  | .precreate appId objectTag, s => backend.respond (.precreate appId objectTag) s
  | .create appId precreateId spec, s =>
    let (created, s) := backend.created (.create appId precreateId spec) s
    (.ok created, s)
  | .publish appId appName functionIds definitionIds state, s =>
    backend.respond (.publish appId appName functionIds definitionIds state) s

/-- What a call of the live control plane sends: it does not create an app that is there already,
and it uploads no stub source that was not found. -/
def sentBy (std : Std) (floats : Floats) : Call → List PlannedRequest
  | ⟨.ensureApp _ (some _) .ephemeral, _⟩ => []
  | ⟨.ensurePrebuildMount _ _, .ok none⟩ => []
  | ⟨request, _⟩ => [request.planned std floats]

/-- `deploy_function`, up to its provisioning: what it sends, if it does not fail. -/
def deployFunction (backend : Backend σ) (host : Host) (floats : Floats) (config : DeployConfig)
    (entrypoints : List DeployEntrypoint) (s : σ) : Except Error (List PlannedRequest) := do
  let inputs ← deployInputs host config entrypoints
  match provision (liveControlPlane backend) host inputs deployBoundary ⟨s, .default, []⟩ with
  | .ok _ w => return w.log.flatMap (sentBy host.std floats)
  | .error e _ => throw e

/-- `RecordingControlPlane`. -/
structure Recorder where
  /-- The last number that an id was made of. -/
  counter : ℕ
  /-- The recorded requests. -/
  requests : List PlannedRequest

/-- `RecordingControlPlane::new`. -/
def Recorder.new : Recorder := ⟨0, []⟩

/-- Record a request. -/
def Recorder.push (recorder : Recorder) (request : PlannedRequest) : Recorder :=
  { recorder with requests := recorder.requests ++ [request] }

/-- `next_id`. -/
def Recorder.nextId (recorder : Recorder) : ℕ × Recorder :=
  (recorder.counter + 1, { recorder with counter := recorder.counter + 1 })

/-- Record a request, and make up an id. -/
def Recorder.answer (recorder : Recorder) (request : PlannedRequest) (stem : Text) :
    Text × Recorder :=
  let (n, recorder) := (recorder.push request).nextId
  (stem ++ Nat.toDigits 10 n, recorder)

/-- Record a request, and return a numbered id. -/
def Recorder.numbered (recorder : Recorder) (request : PlannedRequest) (stem : Text) :
    Except Error Text × Recorder :=
  let (id, recorder) := recorder.answer request stem
  (.ok id, recorder)

/-- Record a request, and return a fixed text. -/
def Recorder.fixed (recorder : Recorder) (request : PlannedRequest) (text : Text) :
    Except Error Text × Recorder :=
  (.ok text, recorder.push request)

/-- `RecordingControlPlane`, as a control plane. -/
def recordingControlPlane (std : Std) (floats : Floats) : ControlPlane Recorder
  | .ensureApp appName preResolved state, recorder =>
    recorder.fixed ((Request.ensureApp appName preResolved state).planned std floats)
      "ap-1".toList
  | .ensureVolume name v2, recorder =>
    recorder.numbered ((Request.ensureVolume name v2).planned std floats) "vo-".toList
  | .ensureSecret name requiredKeys, recorder =>
    recorder.numbered ((Request.ensureSecret name requiredKeys).planned std floats) "se-".toList
  | .ensureInlineSecret name env, recorder =>
    recorder.numbered ((Request.ensureInlineSecret name env).planned std floats) "se-".toList
  | .ensureClientMount, recorder =>
    recorder.numbered (Request.ensureClientMount.planned std floats) "mo-".toList
  | .ensureSourceMount source remotePath, recorder =>
    recorder.numbered ((Request.ensureSourceMount source remotePath).planned std floats)
      "mo-".toList
  | .ensurePrebuildMount source remotePath, recorder =>
    if !source.useCargoScoping then (.ok none, recorder)
    else
      let (id, recorder) := recorder.answer
        ((Request.ensurePrebuildMount source remotePath).planned std floats) "mo-".toList
      (.ok (some id), recorder)
  | .ensurePythonMount series, recorder =>
    recorder.numbered ((Request.ensurePythonMount series).planned std floats) "mo-".toList
  | .ensureImage appId spec layer, recorder =>
    recorder.numbered ((Request.ensureImage appId spec layer).planned std floats) "im-".toList
  | .precreate appId objectTag, recorder =>
    recorder.fixed ((Request.precreate appId objectTag).planned std floats) "fu-pre-1".toList
  | .create appId precreateId spec, recorder =>
    (.ok ⟨"fu-1".toList, [], []⟩,
      recorder.push ((Request.create appId precreateId spec).planned std floats))
  | .publish appId appName functionIds definitionIds state, recorder =>
    recorder.fixed
      ((Request.publish appId appName functionIds definitionIds state).planned std floats) []

/-- `record_provision`. -/
def recordProvision (host : Host) (floats : Floats) (inputs : ProvisionInputs)
    (boundary : Boundary) : Except Error (List PlannedRequest) :=
  match provision (recordingControlPlane host.std floats) host inputs boundary
      ⟨.new, .default, []⟩ with
  | .ok _ w => .ok w.server.requests
  | .error e _ => .error e

/-- `RunMode`. -/
inductive RunMode
  /-- A run. -/
  | run
  /-- A deploy. -/
  | deploy
  deriving DecidableEq

/-- `Manifest`. -/
structure Manifest where
  /-- Run or deploy. -/
  mode : RunMode
  /-- The app name. -/
  appName : Text
  /-- The planned requests, in the order in which they are sent. -/
  requests : List PlannedRequest
  deriving DecidableEq

/-- `deploy_entrypoints_for_dump`. -/
def deployEntrypointsForDump (config : DeployConfig) (entrypoints : List DeployEntrypoint) :
    List DeployEntrypoint :=
  if entrypoints.isEmpty then [⟨deployWrapperCallable, config.options⟩] else entrypoints

/-- What the dry run provisions. -/
def dumpInputs (host : Host) (config : DeployConfig) (entrypoints : List DeployEntrypoint) :
    Except Error ProvisionInputs :=
  let plan := deployEntrypointsForDump config entrypoints
  (config.withFunctionImage host (plan.map fun ep => ep.options.image)).map fun config =>
    config.provisionInputs (plan.map config.planned)

/-- `dump_deploy_manifest`, for the entrypoints of an app. -/
def dumpDeployManifest (host : Host) (floats : Floats) (config : DeployConfig)
    (entrypoints : List DeployEntrypoint) : Except Error Manifest := do
  let inputs ← dumpInputs host config entrypoints
  let requests ← recordProvision host floats inputs deployBoundary
  return ⟨.deploy, inputs.appName, requests⟩

end ModalRust.Provision
