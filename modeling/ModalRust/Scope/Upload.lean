import ModalRust.Scope.Runner

/-!
# The scoped upload and its stub

The upload set of a closure: the crate directories, which are walked, and the files
that are made in memory. The stub of a closure, for the layer that prebuilds
dependencies, keeps the files made in memory, walks no directory, and adds one minimal
source for each build target.
-/

namespace ModalRust.Scope

/-- `Cargo.toml`. -/
def cargoToml : FileName := ⟨"Cargo.toml".toList, by decide, by decide, by decide⟩

/-- `Cargo.lock`. -/
def cargoLock : FileName := ⟨"Cargo.lock".toList, by decide, by decide, by decide⟩

/-- The upload set of a closure. -/
structure ClosureUpload where
  /-- The crate directories to walk. -/
  dirs : List FilePath
  /-- The files uploaded as they are on disk. -/
  extraFiles : List FilePath
  /-- The files made in memory, with their workspace-relative paths. -/
  inlineFiles : List (Text × Text)

/-- The upload set of a stub. -/
structure StubUpload where
  /-- The files uploaded as they are on disk. -/
  extraFiles : List FilePath
  /-- The files made in memory, with their workspace-relative paths. -/
  inlineFiles : List (Text × Text)

/-- The place of a manifest in the upload. -/
def manifestIn (crate : Text) : Text := crate ++ '/' :: cargoToml.text

/-- The manifest that replaces the one on disk, if there is something to strip. -/
def memberOverride (toml : TomlEdit) (disk : Disk) (workspaceRoot dir : FilePath) :
    Option (Text × Text) :=
  match dir.stripPrefix workspaceRoot with
  | none => none
  | some rel =>
    if rel.isEmpty then none
    else
      match disk.readToString (dir.join cargoToml) with
      | none => none
      | some original =>
        match stripDevDependencies toml original with
        | .ok (some stripped) => some (manifestIn (rel.toPosix FileName.toStr), stripped)
        | .ok none => none
        | .error _ => none

/-- `build_closure_upload`: `none` if the root manifest cannot be read or rewritten. -/
def buildClosureUpload (toml : TomlEdit) (disk : Disk) (m : Metadata) (package : Text)
    (dirs : List FilePath) : Option ClosureUpload :=
  match disk.readToString (m.workspaceRoot.join cargoToml) with
  | none => none
  | some original =>
    match rewriteWorkspaceMembers toml original m.workspaceRoot dirs with
    | .error _ => none
    | .ok rewritten =>
      some
        { dirs
          extraFiles := [m.workspaceRoot.join cargoLock].filter disk.isFile
          inlineFiles :=
            (cargoToml.text, rewritten) ::
              (dirs.filterMap (memberOverride toml disk m.workspaceRoot) ++
                (injectedRunnerFileFromMetadata toml disk m package).toList) }

/-- `stub_source_body`. -/
def stubSourceBody (kind : List Text) (_name : Text) : Text :=
  if "bin".toList ∈ kind ∨ "custom-build".toList ∈ kind then "fn main() {}\n".toList else []

/-- The stub of one target; there is none outside of the workspace root. -/
def targetStub (workspaceRoot : FilePath) (target : Target) : Option (Text × Text) :=
  if target.srcPath.isEmpty then none
  else (target.srcPath.stripPrefix workspaceRoot).map fun rel =>
    (rel.toPosix FileName.toStr, stubSourceBody target.kind target.name)

/-- The library stub of a package whose targets are not known. -/
def libraryStub (workspaceRoot crateDir : FilePath) : Option (Text × Text) :=
  (crateDir.stripPrefix workspaceRoot).map fun rel =>
    let crate := rel.toPosix FileName.toStr
    (if crate = [] then "src/lib.rs".toList else crate ++ "/src/lib.rs".toList, [])

/-- The stub sources of a package. -/
def stubSources (workspaceRoot : FilePath) (pkg : Package) : List (Text × Text) :=
  pkg.targets.filterMap (targetStub workspaceRoot) ++
    if pkg.targets.isEmpty then (libraryStub workspaceRoot (dirOf pkg)).toList else []

/-- A stub source is added where there is no file yet. -/
def pushAbsent (files : List (Text × Text)) (file : Text × Text) : List (Text × Text) :=
  if file.1 ∈ files.map Prod.fst then files else files ++ [file]

/-- The packages of the closure, in the order of their ids. -/
def stubPackages (m : Metadata) (dirs : List FilePath) : List Package :=
  (m.members.filter fun p =>
    match p.manifestPath.parent with
    | some dir => dir ∈ dirs
    | none => false).insertionSort fun a b => textKey a.id ≤ textKey b.id

/-- `stub_upload_from_closure`. -/
def stubUploadFromClosure (m : Metadata) (_package : Text) (closure : ClosureUpload) :
    StubUpload :=
  let sources := (stubPackages m closure.dirs).flatMap (stubSources m.workspaceRoot)
  { extraFiles := closure.extraFiles
    inlineFiles := (sources.foldl pushAbsent closure.inlineFiles).insertionSort fun a b =>
      textKey a.1 ≤ textKey b.1 }

/-- `display`. -/
def displayPath (p : FilePath) : Text :=
  (if p.absolute then ['/'] else []) ++ ['/'].intercalate (p.parts.map Part.text)

/-- `out_of_workspace_error`. -/
def outOfWorkspaceError (package : Text) (deps : List OutOfWorkspaceDep) : Text :=
  "package '".toList ++ package ++ "' depends on ".toList ++ Nat.toDigits 10 deps.length ++
  " crate(s) by a path OUTSIDE the uploaded workspace, whose source cannot be uploaded ".toList ++
  "to Modal:\n".toList ++
  (deps.flatMap fun dep =>
    "  - ".toList ++ dep.name ++ " (path = ".toList ++ displayPath dep.path ++ ")\n".toList) ++
  "Remote run/deploy uploads only the workspace dependency closure, so an ".toList ++
  "out-of-workspace path-dep would make the in-container `cargo build` fail to ".toList ++
  "read its Cargo.toml. Fix by depending on these crates via a git or version ".toList ++
  "(crates.io) spec, or by vendoring them into this workspace. (Local `--describe` ".toList ++
  "resolves out-of-workspace path-deps against your on-disk tree, so it is ".toList ++
  "unaffected.)".toList

/-- The closure of a package at a workspace root, as both uploads resolve it: `none` if
there is no manifest, no metadata, or no such member, and an error if a normal path
dependency leaves the workspace. -/
def resolveClosure (disk : Disk) (cargoMetadata : FilePath → Option Metadata)
    (workspaceRoot : FilePath) (package : Text) :
    Except Text (Option (Metadata × List FilePath)) :=
  let manifest := workspaceRoot.join cargoToml
  if !disk.isFile manifest then .ok none
  else
    match cargoMetadata manifest with
    | none => .ok none
    | some m =>
      match closureFromMetadata m package with
      | none => .ok none
      | some r =>
        if r.outOfWorkspace = [] then .ok (some (m, r.dirs))
        else .error (outOfWorkspaceError package r.outOfWorkspace)

/-- `workspace_closure`. -/
def workspaceClosure (toml : TomlEdit) (disk : Disk) (cargoMetadata : FilePath → Option Metadata)
    (workspaceRoot : FilePath) (package : Text) : Except Text (Option ClosureUpload) :=
  (resolveClosure disk cargoMetadata workspaceRoot package).map fun resolved =>
    resolved.bind fun (m, dirs) => buildClosureUpload toml disk m package dirs

/-- `workspace_closure_stub`. -/
def workspaceClosureStub (toml : TomlEdit) (disk : Disk)
    (cargoMetadata : FilePath → Option Metadata) (workspaceRoot : FilePath) (package : Text) :
    Except Text (Option StubUpload) :=
  (resolveClosure disk cargoMetadata workspaceRoot package).map fun resolved =>
    resolved.bind fun (m, dirs) =>
      (buildClosureUpload toml disk m package dirs).map (stubUploadFromClosure m package)

/-- What adding the stub sources yields: the first source for each path without a file. -/
theorem mem_foldl_pushAbsent {files sources : List (Text × Text)} {path body : Text} :
    (path, body) ∈ sources.foldl pushAbsent files ↔
      (path, body) ∈ files ∨ path ∉ files.map Prod.fst ∧ sources.lookup path = some body := by
  induction sources generalizing files with
  | nil => simp
  | cons source sources ih =>
    obtain ⟨path', body'⟩ := source
    rw [List.foldl_cons, ih, List.lookup_cons, pushAbsent]
    by_cases hold : path' ∈ files.map Prod.fst
    · rw [if_pos hold]
      by_cases hpath : path = path'
      · subst hpath
        simp [hold]
      · simp [beq_false_of_ne hpath]
    · rw [if_neg hold]
      by_cases hpath : path = path'
      · subst hpath
        simp [hold, eq_comm]
      · simp [beq_false_of_ne hpath, hpath]

/-- A path of a source is taken by some file in the end. -/
theorem exists_mem_foldl_pushAbsent (files : List (Text × Text))
    {sources : List (Text × Text)} {path : Text} (h : path ∈ sources.map Prod.fst) :
    ∃ body, (path, body) ∈ sources.foldl pushAbsent files := by
  by_cases hold : path ∈ files.map Prod.fst
  · obtain ⟨⟨_, body⟩, hmem, rfl⟩ := List.mem_map.mp hold
    exact ⟨body, mem_foldl_pushAbsent.mpr (.inl hmem)⟩
  · cases hlookup : sources.lookup path with
    | some body => exact ⟨body, mem_foldl_pushAbsent.mpr (.inr ⟨hold, hlookup⟩)⟩
    | none =>
      obtain ⟨source, hmem, rfl⟩ := List.mem_map.mp h
      have hne := List.lookup_eq_none_iff.mp hlookup source hmem
      simp at hne

/-- What `build_closure_upload` returns. -/
theorem buildClosureUpload_spec {toml : TomlEdit} {disk : Disk} {m : Metadata} {package : Text}
    {dirs : List FilePath} {closure : ClosureUpload}
    (h : buildClosureUpload toml disk m package dirs = some closure) :
    ∃ original rewritten,
      disk.readToString (m.workspaceRoot.join cargoToml) = some original ∧
      rewriteWorkspaceMembers toml original m.workspaceRoot dirs = .ok rewritten ∧
      closure.dirs = dirs ∧
      closure.inlineFiles = (cargoToml.text, rewritten) ::
        (dirs.filterMap (memberOverride toml disk m.workspaceRoot) ++
          (injectedRunnerFileFromMetadata toml disk m package).toList) := by
  unfold buildClosureUpload at h
  split at h
  · cases h
  · rename_i original hread
    split at h
    · cases h
    · rename_i rewritten hrewrite
      cases h
      exact ⟨original, rewritten, hread, hrewrite, rfl, rfl⟩

/-- When a member's manifest is replaced, and by what. -/
theorem memberOverride_eq_some {toml : TomlEdit} {disk : Disk} {workspaceRoot dir : FilePath}
    {file : Text × Text} :
    memberOverride toml disk workspaceRoot dir = some file ↔
      ∃ rel original, dir.stripPrefix workspaceRoot = some rel ∧ rel.isEmpty = false ∧
        disk.readToString (dir.join cargoToml) = some original ∧
        file.1 = manifestIn (rel.toPosix FileName.toStr) ∧
        stripDevDependencies toml original = .ok (some file.2) := by
  obtain ⟨path, body⟩ := file
  unfold memberOverride
  cases hrel : dir.stripPrefix workspaceRoot with
  | none => simp
  | some rel =>
    cases hempty : rel.isEmpty with
    | true => simp [hempty]
    | false =>
      cases hread : disk.readToString (dir.join cargoToml) with
      | none => simp [hempty]
      | some original =>
        rcases hstrip : stripDevDependencies toml original with e | _ | stripped
        · simp [hempty, hstrip]
        · simp [hempty, hstrip]
        · simp only [hempty, hstrip, Bool.false_eq_true, if_false, Option.some.injEq,
            Prod.mk.injEq, exists_and_left, exists_eq_left', Except.ok.injEq, true_and]
          exact and_congr eq_comm Iff.rfl

end ModalRust.Scope
