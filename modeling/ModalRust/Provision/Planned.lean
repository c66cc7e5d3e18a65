import ModalRust.Provision.Sequence
import ModalRust.Sdk.Planning

/-!
# Planned requests

What the dry run keeps of a request to the control plane: the Dockerfile lines of an image,
the role of a mount, and the plan of a create request. The ids that a server assigns come up
in two places only, as the volumes of a created function and in the number of an image
layer.
-/

namespace ModalRust.Provision

open ModalRust.Sdk

/-- `python_series_lt_13`. -/
def pythonSeriesLt13 (series : Text) : Bool :=
  match (series.splitOn '.')[1]? with
  | some minor => (parseU32 (minor.rdropWhile (· == 't'))).any (· < 13)
  | none => false

/-- The lines that add a standalone Python. -/
def addPythonLines (series : Text) : List Text :=
  ["COPY /python/. /usr/local".toList] ++
    (if pythonSeriesLt13 series then
      ["RUN ln -s /usr/local/bin/python3 /usr/local/bin/python".toList] else []) ++
    [("ENV TERMINFO_DIRS=/etc/terminfo:/lib/terminfo:/usr/share/terminfo:".toList ++
      "/usr/lib/terminfo".toList)]

/-- The lines that install the Rust toolchain. -/
def rustLines : List Text :=
  ["RUN apt-get update && apt-get install -y --no-install-recommends ".toList ++
      "curl ca-certificates build-essential pkg-config ".toList ++
      "&& rm -rf /var/lib/apt/lists/* ".toList ++
      "&& curl --proto '=https' --tlsv1.2 -sSf https://sh.rustup.rs ".toList ++
      "| sh -s -- -y --default-toolchain stable --profile minimal".toList,
    "ENV PATH=/root/.cargo/bin:/usr/local/cuda/bin:/usr/local/sbin:".toList ++
      "/usr/local/bin:/usr/sbin:/usr/bin:/sbin:/bin".toList,
    "ENV CUDA_PATH=/usr/local/cuda".toList]

/-- `bake_command`. -/
def bakeCommand (moduleName source : Text) : Text :=
  "RUN python3 -c \"import base64,pathlib; pathlib.Path('/root/".toList ++ moduleName ++
    ".py').write_bytes(base64.b64decode('".toList ++ base64 (toUtf8 source) ++ "'))\"".toList

/-- The first line of an image. -/
def fromLine (spec : ImageSpec) : Text :=
  if spec.baseImageId.isSome then "FROM base".toList else "FROM ".toList ++ spec.baseImage

/-- `dockerfile_commands`. An image without a standalone Python has no lines of its own for
Python: provisioning never sets them. -/
def dockerfileCommands (spec : ImageSpec) : List Text :=
  [fromLine spec] ++ (spec.addPython.map addPythonLines).getD [] ++
    (if spec.installRust then rustLines else []) ++ spec.builderSteps ++
    (spec.wrapperModules.map fun m => bakeCommand m.1 m.2) ++ spec.extraCommands

/-- `MountRole`. -/
inductive MountRole
  /-- The client. -/
  | client
  /-- The source. -/
  | source
  /-- The stub source of the dependency layer. -/
  | prebuildStub
  /-- The standalone Python. -/
  | pythonStandalone
  deriving DecidableEq

/-- `PlannedRequest::FunctionCreate`. -/
structure PlannedCreate where
  /-- The wrapper module. -/
  module : Text
  /-- The object tag. -/
  function : Text
  /-- The number of mounts. -/
  mountIdsCount : ℕ
  /-- The GPU type. -/
  gpu : Option Text
  /-- CPU in thousandths of a core. -/
  milliCpu : ℕ
  /-- Memory in mebibytes. -/
  memoryMb : ℕ
  /-- The timeout in seconds. -/
  timeoutSecs : ℕ
  /-- The volumes, as mount path and volume. -/
  volumeMounts : List (Text × Text)
  /-- The number of secrets. -/
  secretCount : ℕ
  /-- The retry count. -/
  retries : Option ℕ
  /-- The factor between two delays. -/
  retryBackoffCoefficient : Option F32
  /-- The first delay. -/
  retryInitialDelayMs : Option ℕ
  /-- The largest delay. -/
  retryMaxDelayMs : Option ℕ
  /-- The schedule, rendered. -/
  schedule : Option Text
  /-- The autoscaler's floor. -/
  minContainers : Option ℕ
  /-- The autoscaler's ceiling. -/
  maxContainers : Option ℕ
  /-- Warm containers beyond demand. -/
  bufferContainers : Option ℕ
  /-- Seconds before an idle container is stopped. -/
  scaledownWindow : Option ℕ
  /-- Whether memory snapshots are on. -/
  checkpointingEnabled : Bool
  /-- The method of a web endpoint. -/
  webhookMethod : Option Text
  /-- Whether the alternative to the function is not set. -/
  functionDataIsNone : Bool
  deriving DecidableEq

/-- `PlannedRequest`. -/
inductive PlannedRequest
  /-- `AppCreate`. -/
  | appCreate (description : Text)
  /-- `AppGetOrCreate`. -/
  | appGetOrCreate (appName : Text)
  /-- `VolumeGetOrCreate`. -/
  | volumeGetOrCreate (name : Text) (v2 : Bool)
  /-- `SecretGetOrCreate`. -/
  | secretGetOrCreate (name : Text) (requiredKeys : List Text) (inline : Bool)
  /-- `MountGetOrCreate`. -/
  | mountGetOrCreate (role : MountRole)
  /-- `ImageGetOrCreate`. -/
  | imageGetOrCreate (dockerfileCommands : List Text) (layer : ℕ)
  /-- `FunctionPrecreate`. -/
  | functionPrecreate (functionName : Text)
  /-- `FunctionCreate`. -/
  | functionCreate (create : PlannedCreate)
  /-- `AppPublish`. -/
  | appPublish (appState : Text)
  deriving DecidableEq

/-- What the dry run keeps of a plan. -/
def PlannedFunction.recorded (planned : PlannedFunction) : PlannedCreate where
  module := planned.moduleName
  function := planned.functionName
  mountIdsCount := planned.mountIdsCount
  gpu := planned.gpu
  milliCpu := planned.milliCpu
  memoryMb := planned.memoryMb
  timeoutSecs := planned.timeoutSecs
  volumeMounts := planned.volumeMounts
  secretCount := planned.secretIdsCount
  retries := planned.retries
  retryBackoffCoefficient := planned.retryBackoffCoefficient
  retryInitialDelayMs := planned.retryInitialDelayMs
  retryMaxDelayMs := planned.retryMaxDelayMs
  schedule := planned.schedule
  minContainers := planned.minContainers
  maxContainers := planned.maxContainers
  bufferContainers := planned.bufferContainers
  scaledownWindow := planned.scaledownWindow
  checkpointingEnabled := planned.checkpointingEnabled
  webhookMethod := planned.webhookMethod
  functionDataIsNone := planned.functionDataIsNone

/-- The text of an app state. -/
def AppState.text : AppState → Text
  | .ephemeral => "ephemeral".toList
  | .deployed => "deployed".toList

/-- What is planned for a call of the control plane that sends a request. -/
def Request.planned (std : Std) (floats : Floats) : Request → PlannedRequest
  | .ensureApp appName _ .ephemeral => .appCreate appName
  | .ensureApp appName _ .deployed => .appGetOrCreate appName
  | .ensureVolume name v2 => .volumeGetOrCreate name v2
  | .ensureSecret name requiredKeys => .secretGetOrCreate name requiredKeys false
  | .ensureInlineSecret name _ => .secretGetOrCreate name [] true
  | .ensureClientMount => .mountGetOrCreate .client
  | .ensureSourceMount _ _ => .mountGetOrCreate .source
  | .ensurePrebuildMount _ _ => .mountGetOrCreate .prebuildStub
  | .ensurePythonMount _ => .mountGetOrCreate .pythonStandalone
  | .ensureImage _ spec layer => .imageGetOrCreate (dockerfileCommands spec) layer
  | .precreate _ objectTag => .functionPrecreate objectTag
  | .create appId precreateId spec =>
    .functionCreate
      (PlannedFunction.recorded (planFunctionRequest std floats appId precreateId spec))
  | .publish _ _ _ _ state => .appPublish state.text

/-- A planned request without what depends on the ids that the server assigned: the volumes of
a created function, and the number of an image layer, which is not sent. -/
def PlannedRequest.upToIds : PlannedRequest → PlannedRequest
  | .imageGetOrCreate commands _ => .imageGetOrCreate commands 0
  | .functionCreate create =>
    .functionCreate { create with
      volumeMounts := create.volumeMounts.map fun mount => (mount.1, []) }
  | request => request

/-- The Dockerfile lines of a list of image steps. -/
def stepLines (steps : List ImageStep) : List Text :=
  (applyImageSteps (.fromRegistry []) steps).builderSteps

/-- Applying a step appends its lines. -/
theorem ImageStep.apply_eq (spec : ImageSpec) (step : ImageStep) :
    step.apply spec = { spec with
      builderSteps := spec.builderSteps ++ (step.apply (.fromRegistry [])).builderSteps } := by
  cases step with
  | apt packages =>
    simp only [ImageStep.apply, ImageSpec.withAptInstall]
    split <;> simp [ImageSpec.fromRegistry]
  | pip packages =>
    simp only [ImageStep.apply, ImageSpec.withPipInstall]
    split <;> simp [ImageSpec.fromRegistry]
  | run commands => simp [ImageStep.apply, ImageSpec.withRunCommands, ImageSpec.fromRegistry]

/-- Applying steps appends their lines. -/
theorem applyImageSteps_eq (spec : ImageSpec) (steps : List ImageStep) :
    applyImageSteps spec steps =
      { spec with builderSteps := spec.builderSteps ++ stepLines steps } := by
  induction steps generalizing spec with
  | nil => simp [applyImageSteps, stepLines, ImageSpec.fromRegistry]
  | cons step steps ih =>
    have hfirst : stepLines (step :: steps) =
        (step.apply (.fromRegistry [])).builderSteps ++ stepLines steps := by
      change (applyImageSteps (step.apply (.fromRegistry [])) steps).builderSteps = _
      rw [ih]
    change applyImageSteps (step.apply spec) steps = _
    rw [ih, hfirst, ImageStep.apply_eq spec]
    simp only [List.append_assoc]

/-- The lines of steps, one list of steps after the other. -/
theorem stepLines_append (steps later : List ImageStep) :
    stepLines (steps ++ later) = stepLines steps ++ stepLines later := by
  unfold stepLines
  rw [applyImageSteps, List.foldl_append]
  change (applyImageSteps (applyImageSteps _ steps) later).builderSteps = _
  rw [applyImageSteps_eq _ later]
  rfl

/-- Every line of a step is a `RUN` line. -/
theorem head?_of_mem_stepLines {steps : List ImageStep} {line : Text}
    (hline : line ∈ stepLines steps) : line.head? = some 'R' := by
  induction steps with
  | nil => cases hline
  | cons step steps ih =>
    rw [← List.singleton_append, stepLines_append] at hline
    rcases List.mem_append.mp hline with hstep | hrest
    · cases step with
      | apt packages =>
        simp only [stepLines, applyImageSteps, List.foldl_cons, List.foldl_nil, ImageStep.apply,
          ImageSpec.withAptInstall] at hstep
        split at hstep
        · cases hstep
        · rw [List.mem_singleton.mp hstep]
          rfl
      | pip packages =>
        simp only [stepLines, applyImageSteps, List.foldl_cons, List.foldl_nil, ImageStep.apply,
          ImageSpec.withPipInstall] at hstep
        split at hstep
        · cases hstep
        · rw [List.mem_singleton.mp hstep]
          rfl
      | run commands =>
        obtain ⟨command, -, rfl⟩ := List.mem_map.mp hstep
        rfl
    · exact ih hrest

/-- The lines of the base layer of a deploy. -/
theorem dockerfileCommands_base (host : Host) (inputs : ProvisionInputs) (pyMountId : Text) :
    dockerfileCommands (buildImageSpec host deployBoundary inputs pyMountId) =
      ("FROM ".toList ++ inputs.baseImage) :: (addPythonLines pythonSeries ++
        ((if inputs.installRust then rustLines else []) ++ stepLines inputs.imageSteps)) := by
  have hspec : buildImageSpec host deployBoundary inputs pyMountId = applyImageSteps
      { ((ImageSpec.fromRegistry inputs.baseImage).withAddPython
          pythonSeries).withPythonStandaloneMountId pyMountId with
        installRust := inputs.installRust } inputs.imageSteps := by
    simp only [buildImageSpec, deployBoundary]
    cases inputs.installRust <;> rfl
  rw [hspec, applyImageSteps_eq]
  simp [dockerfileCommands, fromLine, ImageSpec.fromRegistry, ImageSpec.withAddPython,
    ImageSpec.withPythonStandaloneMountId]

/-- Two base layers have the same lines exactly if they have the same base image, both or none
install the Rust toolchain, and their steps have the same lines. -/
theorem dockerfileCommands_base_eq_iff (host : Host) {inputs inputs' : ProvisionInputs}
    {pyMountId pyMountId' : Text} :
    dockerfileCommands (buildImageSpec host deployBoundary inputs pyMountId) =
        dockerfileCommands (buildImageSpec host deployBoundary inputs' pyMountId') ↔
      inputs.baseImage = inputs'.baseImage ∧ inputs.installRust = inputs'.installRust ∧
        stepLines inputs.imageSteps = stepLines inputs'.imageSteps := by
  -- a step cannot pass for the installation: its second line would have to be an `ENV` line
  have hdiffer (steps steps' : List ImageStep) :
      rustLines ++ stepLines steps ≠ stepLines steps' := by
    intro hsame
    have hmem : "ENV CUDA_PATH=/usr/local/cuda".toList ∈ stepLines steps' := by
      rw [← hsame]
      exact List.mem_append_left _ (.tail _ (.tail _ (.head _)))
    exact absurd (head?_of_mem_stepLines hmem) (by decide)
  rw [dockerfileCommands_base, dockerfileCommands_base, List.cons.injEq, List.append_cancel_left_eq,
    List.append_cancel_left_eq]
  refine and_congr_right fun _ => ?_
  cases inputs.installRust <;> cases inputs'.installRust
  · simp
  · simpa using (hdiffer _ _).symm
  · simpa using hdiffer _ _
  · simp

end ModalRust.Provision
