import ModalRust.Json
import ModalRust.Provision.Options
import ModalRust.Sdk.ImageSpec

/-!
# Images

The image specs of both boundaries. A run bakes the run wrapper into one layer. A deploy
has a base layer, possibly a layer that builds the dependencies, and a top layer that
builds the runner and bakes the deploy wrapper, to which one generated line is appended
for every web endpoint and every web server.
-/

namespace ModalRust.Provision

open ModalRust.Sdk

/-- `ImageOptions`, a parsed image spec. -/
structure ImageOptions where
  /-- The base image, if it is declared. -/
  base : Option Text
  /-- Whether the Rust toolchain is installed, if it is declared. -/
  installRust : Option Bool
  /-- The system packages. -/
  apt : List Text
  /-- The Python packages. -/
  pip : List Text
  /-- The shell commands. -/
  run : List Text

/-- What provisioning takes from the build and the environment of the facade. -/
structure Host where
  /-- Rust's standard library. -/
  std : Std
  /-- The source of the run wrapper, `remote/wrapper.py`. -/
  runWrapperSrc : Text
  /-- `DEPLOY_WRAPPER_SRC`, the static source of the deploy wrapper. -/
  deployWrapperSrc : Text
  /-- `discover_cache_target()`. -/
  cacheTarget : Bool
  /-- `serde_json::from_str::<ImageOptions>`. -/
  readImageOptions : Text → Except Text ImageOptions

/-- `SourceInputs`. -/
structure SourceInputs where
  /-- The workspace root. -/
  localRoot : Text
  /-- The cargo package. -/
  package : Text
  /-- Whether the upload is scoped to the package's dependency closure. -/
  useCargoScoping : Bool
  /-- The name of the ignore file. -/
  modalignoreName : Text
  /-- Where the source is mounted. -/
  remoteSrc : Text
  deriving DecidableEq

/-- `ImageStep`. -/
inductive ImageStep
  /-- System packages. -/
  | apt (packages : List Text)
  /-- Python packages. -/
  | pip (packages : List Text)
  /-- Shell commands. -/
  | run (commands : List Text)

/-- `ProvisionInputs`. -/
structure ProvisionInputs where
  /-- The app name. -/
  appName : Text
  /-- The id of an app that exists already. -/
  appId : Option Text
  /-- The source. -/
  source : SourceInputs
  /-- The registry tag of the base image. -/
  baseImage : Text
  /-- Whether the Rust toolchain is installed. -/
  installRust : Bool
  /-- The user's image steps. -/
  imageSteps : List ImageStep
  /-- Whether the build cache is on. -/
  cache : Bool
  /-- Whether a failed snapshot prime is tolerated. -/
  snapshotBestEffort : Bool
  /-- Whether the dependencies are built in a layer of their own. -/
  depPrebuild : Bool
  /-- The entrypoints. -/
  entrypoints : List Entrypoint

/-- `PYTHON_SERIES`. -/
def pythonSeries : Text := "3.12".toList

/-- `DEPLOY_SRC`. -/
def deploySrc : Text := "/app/src".toList

/-- `DEPLOY_RUNNER`. -/
def deployRunner : Text := "/app/modal_runner".toList

/-- `ImageStep::apply`. -/
def ImageStep.apply (spec : ImageSpec) : ImageStep → ImageSpec
  | .apt packages => spec.withAptInstall packages
  | .pip packages => spec.withPipInstall packages
  | .run commands => spec.withRunCommands commands

/-- `apply_image_steps`. -/
def applyImageSteps (spec : ImageSpec) (steps : List ImageStep) : ImageSpec :=
  steps.foldl ImageStep.apply spec

/-- One character of the base64 alphabet. -/
def base64Char (n : ℕ) : Char :=
  "ABCDEFGHIJKLMNOPQRSTUVWXYZabcdefghijklmnopqrstuvwxyz0123456789+/".toList.getD n '='

/-- The standard base64 encoding, with padding. -/
def base64 : Bytes → Text
  | [] => []
  | [a] => [base64Char (a.toNat / 4), base64Char (a.toNat % 4 * 16), '=', '=']
  | [a, b] =>
    [base64Char (a.toNat / 4), base64Char (a.toNat % 4 * 16 + b.toNat / 16),
      base64Char (b.toNat % 16 * 4), '=']
  | a :: b :: c :: rest =>
    base64Char (a.toNat / 4) :: base64Char (a.toNat % 4 * 16 + b.toNat / 16) ::
      base64Char (b.toNat % 16 * 4 + c.toNat / 64) :: base64Char (c.toNat % 64) :: base64 rest

/-- `run_wrapper_config_env`. -/
def runWrapperConfigEnv (package : Text) (cache : Bool) (remoteSrc : Text) : Text :=
  let config : Json := .object [("package".toList, .string package), ("cache".toList, .bool cache),
    ("remote_src".toList, .string remoteSrc), ("cache_mount".toList, .string cacheMount),
    ("cache_archive_name".toList, .string "cache.tar.zst".toList)]
  "ENV MODAL_RUST_RUN_CONFIG_JSON_B64=".toList ++ base64 (toUtf8 config.print)

/-- `build_image_spec`. -/
def buildImageSpec (host : Host) (boundary : Boundary) (inputs : ProvisionInputs)
    (pyMountId : Text) : ImageSpec :=
  let spec := ((ImageSpec.fromRegistry inputs.baseImage).withAddPython
    pythonSeries).withPythonStandaloneMountId pyMountId
  match boundary.sourceDelivery with
  | .runMount =>
    let spec := if inputs.cache then spec.withCommand
        ("RUN apt-get update && apt-get install -y --no-install-recommends zstd && ".toList ++
          "rm -rf /var/lib/apt/lists/*".toList)
      else spec
    let spec := if inputs.installRust then spec.withRustToolchain else spec
    let spec := applyImageSteps spec inputs.imageSteps
    let spec := spec.withWrapperModule wrapperModule host.runWrapperSrc
    let spec := spec.withCommand
      (runWrapperConfigEnv inputs.source.package inputs.cache inputs.source.remoteSrc)
    let spec := spec.withCommand "ENV RUST_BACKTRACE=1".toList
    let spec := if inputs.cache && !host.cacheTarget then
        spec.withCommand "ENV MODAL_RUST_CACHE_TARGET=0".toList
      else spec
    spec.withCommand "ENTRYPOINT []".toList
  | .deployContext =>
    let spec := if inputs.installRust then spec.withRustToolchain else spec
    applyImageSteps spec inputs.imageSteps

/-- `deploy_runner_build_command`. -/
def deployRunnerBuildCommand (package : Text) : Text :=
  "RUN cd ".toList ++ deploySrc ++ " && cargo build --release -p ".toList ++ package ++
    " --bin modal_runner".toList

/-- The generated line of one endpoint. -/
def webAdapterLine (ep : Text) : Text :=
  webEndpointAttr ep ++ " = _make_web_handler(\"".toList ++ ep ++ "\")\n".toList

/-- `web_adapter_suffix`. -/
def webAdapterSuffix (endpointEntrypoints : List Text) : Text :=
  endpointEntrypoints.flatMap webAdapterLine

/-- The generated line of one web server. -/
def webServerAdapterLine (server : Text × ℕ) : Text :=
  webServerAttr server.1 ++ " = _make_web_server_handler(".toList ++ Nat.toDigits 10 server.2 ++
    ", \"".toList ++ server.1 ++ "\")\n".toList

/-- `web_server_adapter_suffix`. -/
def webServerAdapterSuffix (webServers : List (Text × ℕ)) : Text :=
  webServers.flatMap webServerAdapterLine

/-- `baked_deploy_wrapper_src`. -/
def bakedDeployWrapperSrc (host : Host) (endpointEntrypoints : List Text)
    (webServers : List (Text × ℕ)) : Text :=
  if endpointEntrypoints.isEmpty && webServers.isEmpty then host.deployWrapperSrc
  else host.deployWrapperSrc ++ "\n".toList ++ webAdapterSuffix endpointEntrypoints ++
    webServerAdapterSuffix webServers

/-- `DeployGates`. -/
structure DeployGates where
  /-- Whether the snapshot prime is baked. -/
  bakeSnapshotPrime : Bool
  /-- The endpoints. -/
  endpointEntrypoints : List Text
  /-- The web servers with their ports. -/
  webServerEntrypoints : List (Text × ℕ)

/-- `deploy_gates`. -/
def deployGates (entrypoints : List Entrypoint) : DeployGates where
  bakeSnapshotPrime := entrypoints.any fun ep => ep.options.enableMemorySnapshot
  endpointEntrypoints := (entrypoints.filter fun ep =>
    ep.options.webhookMethod.isSome && ep.options.webServerPort.isNone).map Entrypoint.name
  webServerEntrypoints := entrypoints.filterMap fun ep =>
    ep.options.webServerPort.map fun port => (ep.name, port)

/-- `build_deploy_top_layer_spec`. -/
def buildDeployTopLayerSpec (host : Host) (baseImageId sourceMountId package : Text)
    (bakeSnapshotPrime bakeSnapshotBestEffort : Bool) (endpointEntrypoints : List Text)
    (webServerEntrypoints : List (Text × ℕ)) : ImageSpec :=
  let spec := (ImageSpec.fromRegistry []).withBaseImage baseImageId
  let spec := spec.withWrapperModule deployWrapperModule
    (bakedDeployWrapperSrc host endpointEntrypoints webServerEntrypoints)
  let spec := spec.withContextMount sourceMountId
  let spec := spec.withCommand "COPY . /".toList
  let spec := spec.withCommand (deployRunnerBuildCommand package)
  let spec := spec.withCommand ("RUN cp ".toList ++ deploySrc ++
    "/target/release/modal_runner ".toList ++ deployRunner ++ " && chmod +x ".toList ++
    deployRunner)
  let spec := spec.withCommand "ENV RUST_BACKTRACE=1".toList
  let spec := if bakeSnapshotPrime then
      let spec := spec.withCommand "ENV MODAL_RUST_SNAPSHOT_PRIME=1".toList
      if bakeSnapshotBestEffort then
        spec.withCommand "ENV MODAL_RUST_SNAPSHOT_BEST_EFFORT=1".toList
      else spec
    else spec
  spec.withCommand "ENTRYPOINT []".toList

/-- `build_deploy_dep_layer_spec`. -/
def buildDeployDepLayerSpec (baseImageId stubMountId package : Text) : ImageSpec :=
  let spec := (ImageSpec.fromRegistry []).withBaseImage baseImageId
  let spec := spec.withContextMount stubMountId
  let spec := spec.withCommand "COPY . /".toList
  let spec := spec.withCommand (deployRunnerBuildCommand package)
  spec.withCommand "ENTRYPOINT []".toList

/-- Three bytes are four characters, and a rest is padded. -/
example : base64 (toUtf8 "light w".toList) = "bGlnaHQgdw==".toList := by decide

end ModalRust.Provision
