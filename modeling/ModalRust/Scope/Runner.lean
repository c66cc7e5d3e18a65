import ModalRust.Scope.Manifest

/-!
# The injected runner

A crate is run through a binary `modal_runner`. If the target package does not bring
its own, a source file for it is put into the upload copy of the crate. This file
resolves from the metadata and the target's manifest whether that applies, and computes
the path and the text of the injected file.
-/

namespace ModalRust.Scope

/-- Reading from the local disk. -/
structure Disk where
  /-- `read_to_string`; reasons for a failure are only logged. -/
  readToString : FilePath → Option Text
  /-- `is_file`. -/
  isFile : FilePath → Bool

/-- The name of the runner binary. -/
def runnerBinName : Text := "modal_runner".toList

/-- The package that provides the runner macro. -/
def facadePackage : Text := "modal-rust".toList

/-- What is resolved about a target package. -/
structure RunnerTarget where
  /-- The package name. -/
  package : Text
  /-- The library that the macro links. -/
  libIdent : Text
  /-- The name that the crate gives the facade, if it depends on it. -/
  facadeExtern : Option Text
  /-- The crate directory relative to the workspace root. -/
  crateRel : Text
  /-- Whether the package brings its own runner binary. -/
  hasOwnRunnerBin : Bool
  /-- The binary targets of the package. -/
  binTargets : List Text

/-- `is_generatable`. -/
def RunnerTarget.isGeneratable (t : RunnerTarget) : Bool :=
  !t.hasOwnRunnerBin && t.facadeExtern.isSome

/-- `replace('-', "_")`. -/
def underscored (name : Text) : Text := name.map fun c => if c = '-' then '_' else c

/-- `lib_ident_of`: the name of the library target, else the package name. -/
def libIdentOf (pkg : Package) : Text :=
  match pkg.targets.find? fun t => "lib".toList ∈ t.kind with
  | some t => t.name
  | none => underscored pkg.name

/-- `has_modal_runner_bin`. -/
def hasModalRunnerBin (pkg : Package) : Bool :=
  pkg.targets.any fun t => t.name = runnerBinName ∧ "bin".toList ∈ t.kind

/-- `bin_target_names`. -/
def binTargetNames (pkg : Package) : List Text :=
  (pkg.targets.filter fun t => "bin".toList ∈ t.kind).map (·.name)

/-- `crate_rel_of`: outside of the root, the directory's name. -/
def crateRelOf (workspaceRoot : FilePath) (pkg : Package) : Text :=
  let crateDir := pkg.manifestPath.parent.getD workspaceRoot
  match crateDir.stripPrefix workspaceRoot with
  | some rel => rel.toPosix FileName.toStr
  | none => (crateDir.fileName.map (·.text)).getD []

/-- The package that an entry of a dependency table stands for. -/
def effectivePackage (entry : Text × Toml) : Text :=
  ((entry.2.asTableLike.bind (·.get "package".toList)).bind Toml.asStr).getD entry.1

/-- `facade_extern_name`: the key of the facade in `[dependencies]`. -/
def facadeExternName (toml : TomlEdit) (manifest : Text) : Option Text :=
  match toml.parse manifest with
  | .error _ => none
  | .ok doc =>
    ((doc.get "dependencies".toList).bind Toml.asTableLike).bind fun deps =>
      (deps.find? fun entry => effectivePackage entry = facadePackage).map fun entry =>
        underscored entry.1

/-- `resolve_from_metadata`. -/
def resolveFromMetadata (toml : TomlEdit) (disk : Disk) (m : Metadata) (package : Text) :
    Option RunnerTarget :=
  (m.target package).map fun pkg =>
    { package
      libIdent := libIdentOf pkg
      facadeExtern := (disk.readToString pkg.manifestPath).bind (facadeExternName toml)
      crateRel := crateRelOf m.workspaceRoot pkg
      hasOwnRunnerBin := hasModalRunnerBin pkg
      binTargets := binTargetNames pkg }

/-- `render_runner_main`; it panics without a facade name. -/
def renderRunnerMain (t : RunnerTarget) : Option Text :=
  t.facadeExtern.map fun facade =>
    "// AUTO-GENERATED by modal-rust: the tooling injects this runner bin into the\n".toList ++
    "// build/upload copy of the crate so `cargo build -p ".toList ++ t.package ++
    " --bin ".toList ++ runnerBinName ++ "` resolves\n".toList ++
    "// with NO Cargo.toml edit. Do not commit; your crate stays a pure library.\n".toList ++
    facade ++ "::modal_runner!(".toList ++ t.libIdent ++ ");\n".toList

/-- `injected_runner_rel_path`. -/
def injectedRunnerRelPath (t : RunnerTarget) : Text :=
  if t.crateRel = [] then "src/bin/".toList ++ runnerBinName ++ ".rs".toList
  else t.crateRel ++ "/src/bin/".toList ++ runnerBinName ++ ".rs".toList

/-- `runner_file_for`. -/
def runnerFileFor (t : RunnerTarget) : Option (Text × Text) :=
  if t.isGeneratable then (renderRunnerMain t).map fun body => (injectedRunnerRelPath t, body)
  else none

/-- `injected_runner_file_from_metadata`. -/
def injectedRunnerFileFromMetadata (toml : TomlEdit) (disk : Disk) (m : Metadata)
    (package : Text) : Option (Text × Text) :=
  (resolveFromMetadata toml disk m package).bind runnerFileFor

/-- Rendering does not panic where it is called. -/
theorem renderRunnerMain_isSome {t : RunnerTarget} (h : t.isGeneratable = true) :
    (renderRunnerMain t).isSome = true := by
  unfold RunnerTarget.isGeneratable at h
  have hfacade := (Bool.and_eq_true_iff.mp h).2
  rw [renderRunnerMain, Option.isSome_map]
  exact hfacade

/-- The injected file is a Rust source. -/
theorem injectedRunner_suffix {toml : TomlEdit} {disk : Disk} {m : Metadata} {package : Text}
    {file : Text × Text} (h : injectedRunnerFileFromMetadata toml disk m package = some file) :
    ".rs".toList <:+ file.1 := by
  obtain ⟨t, -, hfile⟩ := Option.bind_eq_some_iff.mp h
  have hpath : file.1 = injectedRunnerRelPath t := by
    unfold runnerFileFor at hfile
    split at hfile
    · obtain ⟨body, -, rfl⟩ := Option.map_eq_some_iff.mp hfile
      rfl
    · cases hfile
  rw [hpath, injectedRunnerRelPath]
  split <;> exact List.suffix_append _ _

end ModalRust.Scope
