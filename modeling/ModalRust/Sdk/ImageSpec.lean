import ModalRust.Text

/-!
# Image specs

`ImageSpec` of the SDK with the builders that provisioning uses.
-/

namespace ModalRust.Sdk

/-- `ImageSpec`. -/
structure ImageSpec where
  /-- The registry tag of the base. -/
  baseImage : Text
  /-- The wrapper modules with their sources. -/
  wrapperModules : List (Text × Text)
  /-- The user's steps, as Dockerfile lines. -/
  builderSteps : List Text
  /-- The Dockerfile lines after the wrappers. -/
  extraCommands : List Text
  /-- The mount of the build context. -/
  contextMountId : Option Text
  /-- The Python series to add. -/
  addPython : Option Text
  /-- The mount of the standalone Python. -/
  pythonStandaloneMountId : Option Text
  /-- The layer below, if this is not the first. -/
  baseImageId : Option Text
  /-- Whether the Rust toolchain is installed. -/
  installRust : Bool
  deriving DecidableEq

namespace ImageSpec

/-- `ImageSpec::from_registry`. -/
def fromRegistry (baseImage : Text) : ImageSpec where
  baseImage := baseImage
  wrapperModules := []
  builderSteps := []
  extraCommands := []
  contextMountId := none
  addPython := none
  pythonStandaloneMountId := none
  baseImageId := none
  installRust := false

/-- `with_wrapper_module`. -/
def withWrapperModule (spec : ImageSpec) (moduleName source : Text) : ImageSpec :=
  { spec with wrapperModules := spec.wrapperModules ++ [(moduleName, source)] }

/-- `with_command`. -/
def withCommand (spec : ImageSpec) (command : Text) : ImageSpec :=
  { spec with extraCommands := spec.extraCommands ++ [command] }

/-- `with_pip_install`. -/
def withPipInstall (spec : ImageSpec) (packages : List Text) : ImageSpec :=
  if packages.isEmpty then spec
  else { spec with builderSteps := spec.builderSteps ++
    ["RUN python3 -m pip install --no-cache-dir ".toList ++ [' '].intercalate packages] }

/-- `with_apt_install`. -/
def withAptInstall (spec : ImageSpec) (packages : List Text) : ImageSpec :=
  if packages.isEmpty then spec
  else { spec with builderSteps := spec.builderSteps ++
    ["RUN apt-get update && apt-get install -y --no-install-recommends ".toList ++
      [' '].intercalate packages ++ " && rm -rf /var/lib/apt/lists/*".toList] }

/-- `with_run_commands`. -/
def withRunCommands (spec : ImageSpec) (commands : List Text) : ImageSpec :=
  { spec with builderSteps := spec.builderSteps ++ commands.map ("RUN ".toList ++ ·) }

/-- `with_context_mount`. -/
def withContextMount (spec : ImageSpec) (mountId : Text) : ImageSpec :=
  { spec with contextMountId := some mountId }

/-- `with_add_python`. -/
def withAddPython (spec : ImageSpec) (series : Text) : ImageSpec :=
  { spec with addPython := some series }

/-- `with_python_standalone_mount_id`. -/
def withPythonStandaloneMountId (spec : ImageSpec) (mountId : Text) : ImageSpec :=
  { spec with pythonStandaloneMountId := some mountId }

/-- `with_base_image`. -/
def withBaseImage (spec : ImageSpec) (baseImageId : Text) : ImageSpec :=
  { spec with baseImageId := some baseImageId }

/-- `with_rust_toolchain`. -/
def withRustToolchain (spec : ImageSpec) : ImageSpec := { spec with installRust := true }

end ImageSpec

end ModalRust.Sdk
