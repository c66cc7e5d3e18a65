import ModalRust.Scope.Upload

/-!
# Whether a stub contains the members that it lists

A stub keeps the rewritten root manifest of the real upload but walks no crate
directory. A member's manifest is in it only if the real upload replaces it in memory,
that is if dev-dependencies were stripped from it; otherwise the real upload takes it
from disk, and the stub lists a member without a manifest.
-/

namespace ModalRust.Scope

/-- The crates that the root manifest lists in the uploads of a closure. -/
def listedMembers (toml : TomlEdit) (disk : Disk) (m : Metadata) (dirs : List FilePath) :
    List Text :=
  match disk.readToString (m.workspaceRoot.join cargoToml) with
  | none => []
  | some original =>
    match toml.parse original with
    | .error _ => []
    | .ok doc => ((scopeMembers m.workspaceRoot dirs doc).map declaredMembers).getD []

/-- The manifest of a crate in the real upload. -/
def uploadedManifest (toml : TomlEdit) (disk : Disk) (dir : FilePath) : Option Text :=
  (disk.readToString (dir.join cargoToml)).map fun original =>
    match stripDevDependencies toml original with
    | .ok (some stripped) => stripped
    | _ => original

/-- The stub source for a path. -/
def stubSourceAt (m : Metadata) (dirs : List FilePath) (path : Text) : Option Text :=
  ((stubPackages m dirs).flatMap (stubSources m.workspaceRoot)).lookup path

/-- A crate is a package in a stub: its manifest as the real upload has it, and a file
for each of its targets. -/
structure InStub (toml : TomlEdit) (disk : Disk) (m : Metadata) (stub : StubUpload)
    (pkg : Package) (name : Text) : Prop where
  /-- The stub contains the manifest. -/
  manifest : ∃ text, uploadedManifest toml disk (dirOf pkg) = some text ∧
    (manifestIn name, text) ∈ stub.inlineFiles
  /-- The stub contains a file at the source path of each target. -/
  sources : ∀ target ∈ pkg.targets, target.srcPath.isEmpty = false ∧ ∃ rel body,
    target.srcPath.stripPrefix m.workspaceRoot = some rel ∧
      (rel.toPosix FileName.toStr, body) ∈ stub.inlineFiles

/-- What a stub needs to contain a crate. -/
structure Stubbable (toml : TomlEdit) (disk : Disk) (m : Metadata) (dirs : List FilePath)
    (pkg : Package) (name : Text) : Prop where
  /-- The manifest is readable and has dev-dependencies to strip, unless a target has
  its source at the manifest's path and the stub of that source is the manifest. -/
  manifest : ∃ original, disk.readToString ((dirOf pkg).join cargoToml) = some original ∧
    ((∃ stripped, stripDevDependencies toml original = .ok (some stripped)) ∨
      stubSourceAt m dirs (manifestIn name) = some original)
  /-- The sources are inside of the workspace root. -/
  sources : ∀ target ∈ pkg.targets, target.srcPath.isEmpty = false ∧
    (target.srcPath.stripPrefix m.workspaceRoot).isSome

/-- Manifests of crates with different names are at different places. -/
theorem manifestIn_inj {a b : Text} (h : manifestIn a = manifestIn b) : a = b :=
  List.append_cancel_right h

/-- A manifest is not a Rust source. -/
theorem manifestIn_not_source (crate : Text) : ¬ ".rs".toList <:+ manifestIn crate := by
  intro hsuffix
  have hlast : (manifestIn crate).getLast? = some 'l' := by
    rw [manifestIn, List.getLast?_append]
    rfl
  obtain ⟨start, hstart⟩ := hsuffix
  rw [← hstart, List.getLast?_append] at hlast
  exact absurd (show some 's' = some 'l' from hlast) (by decide)

/-- A member's manifest is not the root manifest. -/
theorem manifestIn_ne_root (crate : Text) : manifestIn crate ≠ cargoToml.text := by
  intro h
  have hlength := congrArg List.length h
  simp only [manifestIn, List.length_append, List.length_cons] at hlength
  omega

/-- The listed crates are directories of the closure. -/
theorem mem_of_listedMembers {toml : TomlEdit} {disk : Disk} {m : Metadata}
    {dirs : List FilePath} {dir : FilePath} {name : Text}
    (hname : crateName m.workspaceRoot dir = some name)
    (hlisted : name ∈ listedMembers toml disk m dirs) : name ≠ [] ∧ dir ∈ dirs := by
  have hmem : name ∈ memberList m.workspaceRoot dirs := by
    unfold listedMembers at hlisted
    split at hlisted
    · cases hlisted
    · split at hlisted
      · cases hlisted
      · rename_i doc _
        cases hscope : scopeMembers m.workspaceRoot dirs doc with
        | none => simp [hscope] at hlisted
        | some doc' =>
          rw [hscope, Option.map_some, Option.getD_some,
            declaredMembers_scopeMembers hscope] at hlisted
          exact hlisted
  obtain ⟨hne, dir', hdir', hname'⟩ := mem_memberList.mp hmem
  exact ⟨hne, crateName_inj hname hname' ▸ hdir'⟩

/-- When a closure upload has a member's manifest in memory. -/
theorem mem_inlineFiles_manifest {toml : TomlEdit} {disk : Disk} {m : Metadata} {package : Text}
    {dirs : List FilePath} {closure : ClosureUpload} {dir : FilePath} {name text : Text}
    (hbuild : buildClosureUpload toml disk m package dirs = some closure) (hdir : dir ∈ dirs)
    (hname : crateName m.workspaceRoot dir = some name) (hne : name ≠ []) :
    (manifestIn name, text) ∈ closure.inlineFiles ↔
      ∃ original, disk.readToString (dir.join cargoToml) = some original ∧
        stripDevDependencies toml original = .ok (some text) := by
  obtain ⟨_, rewritten, -, -, -, hinline⟩ := buildClosureUpload_spec hbuild
  obtain ⟨rel, hrel, hposix⟩ := Option.map_eq_some_iff.mp hname
  rw [hinline, List.mem_cons, List.mem_append, List.mem_filterMap, Option.mem_toList]
  constructor
  · rintro (hroot | ⟨dir', -, hoverride⟩ | hrunner)
    · exact absurd (congrArg Prod.fst hroot) (manifestIn_ne_root name)
    · obtain ⟨rel', original, hrel', -, hread, hpath, hstrip⟩ := memberOverride_eq_some.mp hoverride
      have hname' : rel'.toPosix FileName.toStr = name := (manifestIn_inj hpath).symm
      have hsame : dir' = dir :=
        crateName_inj (Option.map_eq_some_iff.mpr ⟨rel', hrel', hname'⟩) hname
      exact ⟨original, hsame ▸ hread, hstrip⟩
    · exact absurd (injectedRunner_suffix hrunner) (manifestIn_not_source name)
  · rintro ⟨original, hread, hstrip⟩
    have hrelne : rel.isEmpty = false := by
      rw [← Bool.not_eq_true, ← Path.toPosix_eq_nil_iff, hposix]
      exact hne
    have hpath : manifestIn name = manifestIn (rel.toPosix FileName.toStr) := by rw [hposix]
    exact .inr (.inl ⟨dir, hdir,
      memberOverride_eq_some.mpr ⟨rel, original, hrel, hrelne, hread, hpath, hstrip⟩⟩)

/-- The files of a stub. -/
theorem mem_stubUpload {m : Metadata} {package : Text} {closure : ClosureUpload}
    {path body : Text} :
    (path, body) ∈ (stubUploadFromClosure m package closure).inlineFiles ↔
      (path, body) ∈ closure.inlineFiles ∨
        path ∉ closure.inlineFiles.map Prod.fst ∧ stubSourceAt m closure.dirs path = some body := by
  unfold stubUploadFromClosure
  rw [List.mem_insertionSort, mem_foldl_pushAbsent]
  rfl

/-- A package in a directory of the closure that has a name is among those that get
stub sources. -/
theorem mem_stubPackages {m : Metadata} {dirs : List FilePath} {pkg : Package} {name : Text}
    (hpkg : pkg ∈ m.members) (hdir : dirOf pkg ∈ dirs)
    (hname : crateName m.workspaceRoot (dirOf pkg) = some name) (hne : name ≠ []) :
    pkg ∈ stubPackages m dirs := by
  unfold stubPackages
  rw [List.mem_insertionSort, List.mem_filter]
  refine ⟨hpkg, ?_⟩
  cases hparent : pkg.manifestPath.parent with
  | some dir =>
    have hdirOf : dirOf pkg = dir := by simp [dirOf, hparent]
    simpa [hdirOf] using hdir
  | none =>
    -- Without a parent the directory is empty, and so is its name.
    have hempty : dirOf pkg = .empty := by simp [dirOf, hparent]
    obtain ⟨rel, hrel, hposix⟩ := Option.map_eq_some_iff.mp hname
    rw [hempty] at hrel
    refine absurd ?_ hne
    rw [← hposix, Path.toPosix_eq_nil_iff]
    by_cases hroot : m.workspaceRoot = .empty
    · rw [hroot] at hrel
      cases hrel
      rfl
    · obtain ⟨hrelative, hparts⟩ := (Path.stripPrefix_eq_some hroot).mp hrel
      have hnil := congrArg Path.parts hparts
      simp only [Path.empty, List.nil_eq_append_iff] at hnil
      simp [Path.isEmpty, hrelative, hnil.2]

/-- Each target of such a package whose source is inside of the root has a file. -/
theorem exists_stub_of_target {m : Metadata} (package : Text) {closure : ClosureUpload}
    {pkg : Package} {target : Target} {rel : FilePath} (hpkg : pkg ∈ stubPackages m closure.dirs)
    (htarget : target ∈ pkg.targets) (hsrc : target.srcPath.isEmpty = false)
    (hrel : target.srcPath.stripPrefix m.workspaceRoot = some rel) :
    ∃ body, (rel.toPosix FileName.toStr, body) ∈
      (stubUploadFromClosure m package closure).inlineFiles := by
  have hstub : targetStub m.workspaceRoot target =
      some (rel.toPosix FileName.toStr, stubSourceBody target.kind target.name) := by
    simp [targetStub, hsrc, hrel]
  have hsource : rel.toPosix FileName.toStr ∈
      ((stubPackages m closure.dirs).flatMap (stubSources m.workspaceRoot)).map Prod.fst := by
    have hmem := List.mem_filterMap.mpr ⟨target, htarget, hstub⟩
    exact List.mem_map.mpr
      ⟨_, List.mem_flatMap.mpr ⟨pkg, hpkg, List.mem_append_left _ hmem⟩, rfl⟩
  obtain ⟨body, hbody⟩ := exists_mem_foldl_pushAbsent closure.inlineFiles hsource
  exact ⟨body, (List.mem_insertionSort _).mpr hbody⟩

/-- When the manifest of a listed crate is in the stub. -/
theorem manifest_inStub_iff {toml : TomlEdit} {disk : Disk} {m : Metadata} {package : Text}
    {dirs : List FilePath} {closure : ClosureUpload} {dir : FilePath} {name : Text}
    (hbuild : buildClosureUpload toml disk m package dirs = some closure) (hdir : dir ∈ dirs)
    (hname : crateName m.workspaceRoot dir = some name) (hne : name ≠ []) :
    (∃ text, uploadedManifest toml disk dir = some text ∧
      (manifestIn name, text) ∈ (stubUploadFromClosure m package closure).inlineFiles) ↔
    ∃ original, disk.readToString (dir.join cargoToml) = some original ∧
      ((∃ stripped, stripDevDependencies toml original = .ok (some stripped)) ∨
        stubSourceAt m dirs (manifestIn name) = some original) := by
  obtain ⟨_, _, -, -, hdirs, -⟩ := buildClosureUpload_spec hbuild
  have hinline {text : Text} : (manifestIn name, text) ∈ closure.inlineFiles ↔ _ :=
    mem_inlineFiles_manifest hbuild hdir hname hne
  simp only [mem_stubUpload, hinline, hdirs]
  constructor
  · rintro ⟨text, hmanifest, hmem⟩
    obtain ⟨original, hread, hform⟩ := Option.map_eq_some_iff.mp hmanifest
    refine ⟨original, hread, ?_⟩
    rcases hmem with ⟨original', hread', hstrip⟩ | ⟨-, hsource⟩
    · rw [hread] at hread'
      cases hread'
      exact .inl ⟨text, hstrip⟩
    · split at hform
      · rename_i stripped hstrip
        exact .inl ⟨stripped, hstrip⟩
      · rw [hform]
        exact .inr hsource
  · rintro ⟨original, hread, hmanifest⟩
    by_cases hstripped : ∃ stripped, stripDevDependencies toml original = .ok (some stripped)
    · obtain ⟨stripped, hstrip⟩ := hstripped
      have hform : uploadedManifest toml disk dir = some stripped := by
        simp [uploadedManifest, hread, hstrip]
      exact ⟨stripped, hform, .inl ⟨original, hread, hstrip⟩⟩
    · have hform : uploadedManifest toml disk dir = some original := by
        rw [uploadedManifest, hread, Option.map_some]
        split
        · rename_i stripped hstrip
          exact absurd ⟨stripped, hstrip⟩ hstripped
        · rfl
      have hfree : manifestIn name ∉ closure.inlineFiles.map Prod.fst := by
        intro hkey
        obtain ⟨⟨_, text⟩, hmem, rfl⟩ := List.mem_map.mp hkey
        obtain ⟨original', hread', hstrip⟩ := hinline.mp hmem
        rw [hread] at hread'
        cases hread'
        exact hstripped ⟨text, hstrip⟩
      exact ⟨original, hform, .inr ⟨hfree, hmanifest.resolve_left hstripped⟩⟩

/-- The text of the root manifest in the examples. -/
def exampleRoot : Text := "[workspace]\nmembers = [\"a\"]\n".toList

/-- A member manifest without dev-dependencies. -/
def plainMember : Text := "[package]\nname = \"a\"\n".toList

/-- A member manifest with dev-dependencies. -/
def devMember : Text := "[package]\nname = \"a\"\n[dev-dependencies]\nx = \"1\"\n".toList

/-- The editor's behaviour on the manifests of the examples. -/
def exampleToml : TomlEdit where
  parse text :=
    if text = exampleRoot then
      .ok [("workspace".toList, .table [("members".toList, .array [.string "a".toList])])]
    else if text = plainMember then
      .ok [("package".toList, .table [("name".toList, .string "a".toList)])]
    else if text = devMember then
      .ok [("package".toList, .table [("name".toList, .string "a".toList)]),
        (devDependencies, .table [("x".toList, .string "1".toList)])]
    else .error "unknown".toList
  render text _ := if text = devMember then plainMember else text

/-- `ws` can be a file name. -/
theorem isFileName_ws : IsFileName "ws".toList := ⟨by decide, by decide, by decide⟩

/-- A directory name. -/
def nameWs : FileName := isFileName_ws.name

/-- A crate's directory name. -/
def nameA : FileName := ⟨"a".toList, by decide, by decide, by decide⟩

/-- The directory of sources. -/
def nameSrc : FileName := ⟨"src".toList, by decide, by decide, by decide⟩

/-- The root source of a library. -/
def nameLib : FileName := ⟨"lib.rs".toList, by decide, by decide, by decide⟩

/-- The workspace root of the examples. -/
def wsDir : FilePath := ⟨true, [.normal nameWs]⟩

/-- A workspace with a library crate. -/
def exampleMetadata : Metadata where
  workspaceMembers := ["a".toList]
  workspaceRoot := wsDir
  packages :=
    [{ id := "a".toList
       name := "a".toList
       manifestPath := (wsDir.join nameA).join cargoToml
       dependencies := []
       targets :=
        [{ kind := ["lib".toList]
           name := "a".toList
           srcPath := ((wsDir.join nameA).join nameSrc).join nameLib }] }]

/-- The disk of the examples, with the text of the member manifest. -/
def exampleDisk (member : Text) : Disk where
  readToString path :=
    if path = wsDir.join cargoToml then some exampleRoot
    else if path = (wsDir.join nameA).join cargoToml then some member
    else none
  isFile _ := false

/-- The upload of a member without dev-dependencies. -/
def plainUpload : ClosureUpload :=
  ⟨[wsDir.join nameA], [], [(cargoToml.text, exampleRoot)]⟩

/-- **A stub contains the crates that its root manifest lists iff each of them has
dev-dependencies to strip and its sources inside of the workspace root.** -/
theorem stubUpload_complete_iff (toml : TomlEdit) (disk : Disk) (m : Metadata) (package : Text)
    (dirs : List FilePath) (closure : ClosureUpload)
    (hbuild : buildClosureUpload toml disk m package dirs = some closure) :
    (∀ pkg ∈ m.members, ∀ name, crateName m.workspaceRoot (dirOf pkg) = some name →
      name ∈ listedMembers toml disk m dirs →
        InStub toml disk m (stubUploadFromClosure m package closure) pkg name) ↔
    (∀ pkg ∈ m.members, ∀ name, crateName m.workspaceRoot (dirOf pkg) = some name →
      name ∈ listedMembers toml disk m dirs → Stubbable toml disk m dirs pkg name) := by
  obtain ⟨_, _, -, -, hdirs, -⟩ := buildClosureUpload_spec hbuild
  refine forall₂_congr fun pkg hpkg => forall₃_congr fun name hname hlisted => ?_
  obtain ⟨hne, hdir⟩ := mem_of_listedMembers hname hlisted
  have hmanifest := manifest_inStub_iff hbuild hdir hname hne
  constructor
  · rintro ⟨hin, hsources⟩
    refine ⟨hmanifest.mp hin, fun target htarget => ?_⟩
    obtain ⟨hsrc, rel, -, hrel, -⟩ := hsources target htarget
    exact ⟨hsrc, by simp [hrel]⟩
  · rintro ⟨hmade, hsources⟩
    refine ⟨hmanifest.mpr hmade, fun target htarget => ?_⟩
    obtain ⟨hsrc, hinside⟩ := hsources target htarget
    obtain ⟨rel, hrel⟩ := Option.isSome_iff_exists.mp hinside
    have hstubPkg := mem_stubPackages hpkg hdir hname hne
    rw [← hdirs] at hstubPkg
    obtain ⟨body, hbody⟩ := exists_stub_of_target package hstubPkg htarget hsrc hrel
    exact ⟨hsrc, rel, body, hrel, hbody⟩

/-- The upload of a member with dev-dependencies. -/
def devUpload : ClosureUpload :=
  ⟨[wsDir.join nameA], [], [(cargoToml.text, exampleRoot), (manifestIn "a".toList, plainMember)]⟩

/-- The stub of a crate with dev-dependencies contains it. -/
theorem stubUpload_complete_dev :
    buildClosureUpload exampleToml (exampleDisk devMember) exampleMetadata "a".toList
        [wsDir.join nameA] = some devUpload ∧
      ∀ pkg ∈ exampleMetadata.members, ∀ name,
        crateName exampleMetadata.workspaceRoot (dirOf pkg) = some name →
        name ∈ listedMembers exampleToml (exampleDisk devMember) exampleMetadata
          [wsDir.join nameA] →
        InStub exampleToml (exampleDisk devMember) exampleMetadata
          (stubUploadFromClosure exampleMetadata "a".toList devUpload) pkg name := by
  refine ⟨rfl, ?_⟩
  refine (stubUpload_complete_iff exampleToml (exampleDisk devMember) exampleMetadata "a".toList
    [wsDir.join nameA] devUpload rfl).mpr ?_
  intro pkg hpkg name _ _
  have hpkg' := (List.mem_filter.mp hpkg).1
  simp only [exampleMetadata, List.mem_singleton] at hpkg'
  subst hpkg'
  refine ⟨⟨devMember, rfl, .inl ⟨plainMember, rfl⟩⟩, fun target htarget => ?_⟩
  rw [List.mem_singleton.mp htarget]
  exact ⟨rfl, rfl⟩

/-- A stub without the manifest of the crate that it lists. -/
theorem stubUpload_lists_missing_member :
    ∃ r pkg, closureFromMetadata exampleMetadata "a".toList = some r ∧
      buildClosureUpload exampleToml (exampleDisk plainMember) exampleMetadata "a".toList r.dirs =
        some plainUpload ∧
      pkg ∈ exampleMetadata.members ∧
      crateName exampleMetadata.workspaceRoot (dirOf pkg) = some "a".toList ∧
      "a".toList ∈ listedMembers exampleToml (exampleDisk plainMember) exampleMetadata r.dirs ∧
      ¬ InStub exampleToml (exampleDisk plainMember) exampleMetadata
        (stubUploadFromClosure exampleMetadata "a".toList plainUpload) pkg "a".toList := by
  refine ⟨⟨[wsDir.join nameA], []⟩, exampleMetadata.packages.head (by decide), ?_, ?_, ?_, ?_, ?_,
    ?_⟩
  · rfl
  · rfl
  · simp [Metadata.members, exampleMetadata]
  · rfl
  · decide
  · rintro ⟨⟨text, -, hmem⟩, -⟩
    have hkeys : manifestIn "a".toList ∈ (stubUploadFromClosure exampleMetadata "a".toList
        plainUpload).inlineFiles.map Prod.fst := List.mem_map.mpr ⟨_, hmem, rfl⟩
    exact absurd hkeys (by decide)

end ModalRust.Scope
