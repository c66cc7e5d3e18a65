import ModalRust.Scope.Dependencies
import ModalRust.Scope.StubComplete

/-!
# Whether an upload refers to crates that were left out

The closure walk follows normal path dependencies, as the metadata lists them. The
manifests of the upload keep more than these: the build dependencies of every crate, its
dev-dependencies in the old spelling, and in the root manifest all dependencies. So the
upload is self-consistent iff these happen to point at crates that are reached anyway.
-/

namespace ModalRust.Scope

/-- A manifest as cargo reads it. -/
def parsed (toml : TomlEdit) (text : Option Text) : Option Table :=
  text.bind fun t => (toml.parse t).toOption

/-- The manifest of a crate directory on disk. -/
def originalDoc (toml : TomlEdit) (disk : Disk) (dir : FilePath) : Option Table :=
  parsed toml (disk.readToString (dir.join cargoToml))

/-- The manifest of a crate directory in an upload: a file made in memory wins over the
one on disk. -/
def manifestInUpload (disk : Disk) (m : Metadata) (closure : ClosureUpload) (dir : FilePath) :
    Option Text :=
  match crateName m.workspaceRoot dir with
  | none => none
  | some name =>
    if name = [] then closure.inlineFiles.lookup cargoToml.text
    else if dir ∈ closure.dirs then
      (closure.inlineFiles.lookup (manifestIn name)).or (disk.readToString (dir.join cargoToml))
    else none

/-- No manifest of an upload declares a path dependency on a workspace member that was
left out. -/
def SelfConsistent (resolve : FilePath → Text → FilePath) (toml : TomlEdit) (disk : Disk)
    (m : Metadata) (closure : ClosureUpload) : Prop :=
  ∀ dir doc rootDoc, parsed toml (manifestInUpload disk m closure dir) = some doc →
    parsed toml (manifestInUpload disk m closure m.workspaceRoot) = some rootDoc →
    ∀ t : DepTable, t.key ∈ dependencyKeys →
    ∀ dep, Declares resolve m.workspaceRoot rootDoc dir doc t dep →
      dep ∈ m.memberDirs → dep ∈ closure.dirs

/-- The metadata lists the normal path dependencies of the manifests on disk. -/
def Matches (resolve : FilePath → Text → FilePath) (toml : TomlEdit) (disk : Disk)
    (m : Metadata) : Prop :=
  ∀ pkg ∈ m.members, ∀ doc rootDoc, originalDoc toml disk (dirOf pkg) = some doc →
    originalDoc toml disk m.workspaceRoot = some rootDoc →
    ∀ t : DepTable, t.key = normalKey →
    ∀ dep, Declares resolve m.workspaceRoot rootDoc (dirOf pkg) doc t dep →
      ∃ d ∈ pkg.dependencies, d.kind = none ∧ d.path = some dep

/-- The texts that the editor renders for an upload read back. -/
structure EditsReadBack (toml : TomlEdit) (disk : Disk) (m : Metadata) (dirs : List FilePath) :
    Prop where
  /-- The stripped manifests of the closure. -/
  strip : ∀ dir ∈ dirs, ∀ text doc, disk.readToString (dir.join cargoToml) = some text →
    toml.parse text = .ok doc → hasDev doc = true → toml.ReadsBack text (stripTable doc)
  /-- The scoped root manifest. -/
  scope : ∀ text doc edited, disk.readToString (m.workspaceRoot.join cargoToml) = some text →
    toml.parse text = .ok doc → scopeMembers m.workspaceRoot dirs doc = some edited →
    toml.ReadsBack text edited

/-- The dependency tables of a member that are neither stripped nor followed. -/
def keptKeys : List Text :=
  ["dev_dependencies".toList, "build-dependencies".toList, "build_dependencies".toList]

/-- The dependencies that stay in the manifests of an upload, though the walk does not
follow them, are on crates that the walk reaches. -/
structure KeptReached (resolve : FilePath → Text → FilePath) (toml : TomlEdit) (disk : Disk)
    (m : Metadata) (start : FilePath) : Prop where
  /-- Build dependencies and old-style dev-dependencies of the members. -/
  member : ∀ dir name doc rootDoc, Worklist.Reaches m.next start dir →
    crateName m.workspaceRoot dir = some name → name ≠ [] →
    originalDoc toml disk dir = some doc →
    originalDoc toml disk m.workspaceRoot = some rootDoc →
    ∀ t : DepTable, t.key ∈ keptKeys →
    ∀ dep, Declares resolve m.workspaceRoot rootDoc dir doc t dep →
      dep ∈ m.memberDirs → Worklist.Reaches m.next start dep
  /-- All dependencies of the root manifest. -/
  root : ∀ doc, originalDoc toml disk m.workspaceRoot = some doc →
    ∀ t : DepTable, t.key ∈ dependencyKeys →
    ∀ dep, Declares resolve m.workspaceRoot doc m.workspaceRoot doc t dep →
      dep ∈ m.memberDirs → Worklist.Reaches m.next start dep

/-- The root manifest is at the empty name. -/
theorem crateName_self (dir : FilePath) : crateName dir dir = some [] := by
  have hself : dir.stripPrefix dir = some .empty := by
    simp [Path.stripPrefix, List.isPrefixOf?_eq_some_iff_append_eq.mpr (List.append_nil _),
      Path.empty]
  rw [crateName, hself, Option.map_some, Path.toPosix_eq_nil_iff.mpr rfl]

/-- The manifest of a crate of the closure in an upload. -/
theorem manifestInUpload_member {toml : TomlEdit} {disk : Disk} {m : Metadata} {package : Text}
    {dirs : List FilePath} {closure : ClosureUpload} {dir : FilePath} {name : Text}
    (hbuild : buildClosureUpload toml disk m package dirs = some closure) (hdir : dir ∈ dirs)
    (hname : crateName m.workspaceRoot dir = some name) (hne : name ≠ []) :
    manifestInUpload disk m closure dir = uploadedManifest toml disk dir := by
  obtain ⟨_, _, -, -, hdirs, -⟩ := buildClosureUpload_spec hbuild
  have hinline {text : Text} : (manifestIn name, text) ∈ closure.inlineFiles ↔ _ :=
    mem_inlineFiles_manifest hbuild hdir hname hne
  simp only [manifestInUpload, hname, hne, hdirs, hdir, if_true, if_false]
  cases hlookup : closure.inlineFiles.lookup (manifestIn name) with
  | some text =>
    obtain ⟨original, hread, hstrip⟩ := hinline.mp (mem_of_lookup hlookup)
    simp [uploadedManifest, hread, hstrip]
  | none =>
    rw [Option.none_or, uploadedManifest]
    cases hread : disk.readToString (dir.join cargoToml) with
    | none => rfl
    | some original =>
      rw [Option.map_some]
      split
      · rename_i stripped hstrip
        have hmem := hinline.mpr ⟨original, hread, hstrip⟩
        simpa using List.lookup_eq_none_iff.mp hlookup _ hmem
      · rfl

/-- What cargo reads in the manifest of a crate of the closure. -/
theorem parsed_uploadedManifest {toml : TomlEdit} {disk : Disk} {m : Metadata}
    {dirs : List FilePath} {dir : FilePath} (hedits : EditsReadBack toml disk m dirs)
    (hdir : dir ∈ dirs) :
    (originalDoc toml disk dir = none ∧ parsed toml (uploadedManifest toml disk dir) = none) ∨
    ∃ doc doc', originalDoc toml disk dir = some doc ∧
      parsed toml (uploadedManifest toml disk dir) = some doc' ∧
      ∀ t : DepTable, t.key ∈ dependencyKeys → ∀ rest, doc'.leafAt (t.keys ++ rest) =
        if t.key = devDependencies then none else doc.leafAt (t.keys ++ rest) := by
  unfold originalDoc uploadedManifest
  cases hread : disk.readToString (dir.join cargoToml) with
  | none => exact .inl ⟨rfl, rfl⟩
  | some original =>
    cases hparse : toml.parse original with
    | error e =>
      left
      simp [parsed, stripDevDependencies, hparse, Except.toOption]
    | ok doc =>
      right
      cases hdev : hasDev doc with
      | true =>
        obtain ⟨doc', hparse', hleaf⟩ := hedits.strip dir hdir original doc hread hparse hdev
        refine ⟨doc, doc', ?_, ?_, fun t ht rest => ?_⟩
        · simp [parsed, hparse, Except.toOption]
        · simp [parsed, stripDevDependencies, hparse, hdev, hparse', Except.toOption]
        · rw [hleaf, leafAt_stripTable doc ht]
      | false =>
        refine ⟨doc, doc, ?_, ?_, fun t ht rest => ?_⟩
        · simp [parsed, hparse, Except.toOption]
        · simp [parsed, stripDevDependencies, hparse, hdev, Except.toOption]
        · split
          · rename_i hkey
            exact leafAt_of_not_hasDev hdev hkey rest
          · rfl

/-- What cargo reads in the root manifest of an upload. -/
theorem parsed_root {toml : TomlEdit} {disk : Disk} {m : Metadata} {package : Text}
    {dirs : List FilePath} {closure : ClosureUpload} (hedits : EditsReadBack toml disk m dirs)
    (hbuild : buildClosureUpload toml disk m package dirs = some closure) :
    ∃ doc doc', originalDoc toml disk m.workspaceRoot = some doc ∧
      parsed toml (manifestInUpload disk m closure m.workspaceRoot) = some doc' ∧
      (∀ t : DepTable, t.key ∈ dependencyKeys → ∀ rest,
        doc'.leafAt (t.keys ++ rest) = doc.leafAt (t.keys ++ rest)) ∧
      ∀ rest, doc'.leafAt ("workspace".toList :: normalKey :: rest) =
        doc.leafAt ("workspace".toList :: normalKey :: rest) := by
  obtain ⟨original, rewritten, hread, hrewrite, -, hinline⟩ := buildClosureUpload_spec hbuild
  have hmanifest : manifestInUpload disk m closure m.workspaceRoot = some rewritten := by
    simp [manifestInUpload, crateName_self, hinline]
  unfold rewriteWorkspaceMembers at hrewrite
  cases hparse : toml.parse original with
  | error e => simp [hparse] at hrewrite
  | ok doc =>
    have horiginal : originalDoc toml disk m.workspaceRoot = some doc := by
      simp [originalDoc, parsed, hread, hparse, Except.toOption]
    simp only [hparse] at hrewrite
    cases hscope : scopeMembers m.workspaceRoot dirs doc with
    | none =>
      simp only [hscope, Except.ok.injEq] at hrewrite
      refine ⟨doc, doc, horiginal, ?_, fun _ _ _ => rfl, fun _ => rfl⟩
      simp [parsed, hmanifest, ← hrewrite, hparse, Except.toOption]
    | some edited =>
      simp only [hscope, Except.ok.injEq] at hrewrite
      obtain ⟨doc', hparse', hleaf⟩ := hedits.scope original doc edited hread hparse hscope
      refine ⟨doc, doc', horiginal, ?_, fun t ht rest => ?_, fun rest => ?_⟩
      · simp [parsed, hmanifest, ← hrewrite, hparse', Except.toOption]
      · rw [hleaf]
        exact leafAt_scopeMembers_depTable hscope ht rest
      · rw [hleaf, leafAt_scopeMembers_workspace hscope]

/-- A dependency table is stripped, followed or kept. -/
theorem dependencyKeys_cases :
    ∀ key ∈ dependencyKeys, key = devDependencies ∨ key = normalKey ∨ key ∈ keptKeys := by
  decide

/-- A kept table is a dependency table that is not stripped. -/
theorem mem_dependencyKeys_of_kept :
    ∀ key ∈ keptKeys, key ∈ dependencyKeys ∧ key ≠ devDependencies := by
  decide

/-- The walk follows the normal path dependencies of the manifests. -/
theorem next_of_declares {resolve : FilePath → Text → FilePath} {toml : TomlEdit} {disk : Disk}
    {m : Metadata} {dir dep : FilePath} {doc rootDoc : Table} {t : DepTable}
    (hmatch : Matches resolve toml disk m) (hdir : dir ∈ m.memberDirs)
    (hdoc : originalDoc toml disk dir = some doc)
    (hroot : originalDoc toml disk m.workspaceRoot = some rootDoc) (ht : t.key = normalKey)
    (hdep : Declares resolve m.workspaceRoot rootDoc dir doc t dep) (hmember : dep ∈ m.memberDirs) :
    dep ∈ m.next dir := by
  obtain ⟨pkg, hpkg⟩ := Metadata.exists_byDir hdir
  obtain ⟨hmem, rfl⟩ := Metadata.byDir_eq_some hpkg
  obtain ⟨d, hd, hkind, hpath⟩ := hmatch pkg hmem doc rootDoc hdoc hroot t ht dep hdep
  exact Metadata.mem_next.mpr ⟨hmember, pkg, hpkg, d, hd, hkind, hpath⟩

/-- What the manifest of a crate of the closure declares in an upload: what it declares on
disk, but for the stripped tables. -/
theorem declares_member_iff {resolve : FilePath → Text → FilePath} {toml : TomlEdit} {disk : Disk}
    {m : Metadata} {package : Text} {dirs : List FilePath} {closure : ClosureUpload}
    {dir dep : FilePath} {name : Text} {rootDoc rootDoc' : Table} {t : DepTable}
    (hedits : EditsReadBack toml disk m dirs)
    (hbuild : buildClosureUpload toml disk m package dirs = some closure) (hdir : dir ∈ dirs)
    (hname : crateName m.workspaceRoot dir = some name) (hne : name ≠ [])
    (hinherit : ∀ rest, rootDoc'.leafAt ("workspace".toList :: normalKey :: rest) =
      rootDoc.leafAt ("workspace".toList :: normalKey :: rest))
    (ht : t.key ∈ dependencyKeys) :
    (∃ doc', parsed toml (manifestInUpload disk m closure dir) = some doc' ∧
      Declares resolve m.workspaceRoot rootDoc' dir doc' t dep) ↔
    t.key ≠ devDependencies ∧ ∃ doc, originalDoc toml disk dir = some doc ∧
      Declares resolve m.workspaceRoot rootDoc dir doc t dep := by
  rw [manifestInUpload_member hbuild hdir hname hne]
  rcases parsed_uploadedManifest hedits hdir with ⟨hdoc, hdoc'⟩ | ⟨doc, doc', hdoc, hdoc', hleaf⟩
  · simp [hdoc, hdoc']
  · simp only [hdoc, hdoc', Option.some.injEq, exists_eq_left']
    by_cases hdev : t.key = devDependencies
    · have hempty (rest : List Text) : doc'.leafAt (t.keys ++ rest) = none := by
        rw [hleaf t ht, if_pos hdev]
      exact iff_of_false (not_declares hempty) fun h => h.1 hdev
    · have hkept (rest : List Text) : doc'.leafAt (t.keys ++ rest) =
          doc.leafAt (t.keys ++ rest) := by rw [hleaf t ht, if_neg hdev]
      rw [Declares.congr hinherit hkept]
      exact (and_iff_right hdev).symm

/-- **An upload is self-consistent iff the dependencies that stay in its manifests
without being followed are on crates that the walk reaches.** -/
theorem upload_selfConsistent_iff (resolve : FilePath → Text → FilePath) (toml : TomlEdit)
    (disk : Disk) (m : Metadata) (package : Text) (target : Package) (r : ClosureResult)
    (closure : ClosureUpload) (hmatch : Matches resolve toml disk m)
    (htarget : m.target package = some target)
    (hclosure : closureFromMetadata m package = some r)
    (hbuild : buildClosureUpload toml disk m package r.dirs = some closure)
    (hedits : EditsReadBack toml disk m r.dirs) :
    SelfConsistent resolve toml disk m closure ↔
      KeptReached resolve toml disk m (dirOf target) := by
  obtain ⟨_, _, -, -, hdirs, -⟩ := buildClosureUpload_spec hbuild
  obtain ⟨r', hr', hreach⟩ := closureFromMetadata_spec htarget
  obtain rfl : r' = r := Option.some.inj (hr'.symm.trans hclosure)
  obtain ⟨rootDoc, rootDoc', hroot, hroot', htables, hinherit⟩ := parsed_root hedits hbuild
  have hrootDeclares {t : DepTable} (ht : t.key ∈ dependencyKeys) {dep : FilePath} :
      Declares resolve m.workspaceRoot rootDoc' m.workspaceRoot rootDoc' t dep ↔
        Declares resolve m.workspaceRoot rootDoc m.workspaceRoot rootDoc t dep :=
    Declares.congr hinherit (htables t ht)
  constructor
  · intro hconsistent
    refine ⟨?_, ?_⟩
    · intro dir name doc rootDoc₀ hdir hname hne hdoc hrootDoc t ht dep hdep hmember
      obtain rfl : rootDoc = rootDoc₀ := Option.some.inj (hroot.symm.trans hrootDoc)
      obtain ⟨hkey, hdev⟩ := mem_dependencyKeys_of_kept t.key ht
      obtain ⟨doc', hdoc', hdep'⟩ := (declares_member_iff hedits hbuild ((hreach dir).mpr hdir)
        hname hne hinherit hkey).mpr ⟨hdev, doc, hdoc, hdep⟩
      rw [← hreach, ← hdirs]
      exact hconsistent dir doc' rootDoc' hdoc' hroot' t hkey dep hdep' hmember
    · intro doc hdoc t ht dep hdep hmember
      obtain rfl : rootDoc = doc := Option.some.inj (hroot.symm.trans hdoc)
      rw [← hreach, ← hdirs]
      exact hconsistent m.workspaceRoot rootDoc' rootDoc' hroot' hroot' t ht dep
        ((hrootDeclares ht).mpr hdep) hmember
  · rintro ⟨hmember, hrootKept⟩ dir doc' rootDoc₀ hdoc' hrootDoc t ht dep hdep hdepMember
    obtain rfl : rootDoc' = rootDoc₀ := Option.some.inj (hroot'.symm.trans hrootDoc)
    rw [hdirs, hreach]
    cases hname : crateName m.workspaceRoot dir with
    | none => simp [manifestInUpload, hname, parsed] at hdoc'
    | some name =>
      by_cases hne : name = []
      · have hdir : dir = m.workspaceRoot := crateName_inj (hne ▸ hname) (crateName_self _)
        obtain rfl : doc' = rootDoc' := Option.some.inj (hdoc'.symm.trans (hdir ▸ hroot'))
        exact hrootKept rootDoc hroot t ht dep ((hrootDeclares ht).mp (hdir ▸ hdep)) hdepMember
      · by_cases hdir : dir ∈ r'.dirs
        · have hdirReach := (hreach dir).mp hdir
          obtain ⟨hdev, doc, hdoc, hdep'⟩ := (declares_member_iff hedits hbuild hdir hname hne
            hinherit ht).mp ⟨doc', hdoc', hdep⟩
          rcases (dependencyKeys_cases t.key ht).resolve_left hdev with hnormal | hkey
          · have hdirMember := Metadata.mem_memberDirs_of_reaches
              (Metadata.target_mem htarget) hdirReach
            exact hdirReach.tail
              (next_of_declares hmatch hdirMember hdoc hroot hnormal hdep' hdepMember)
          · exact hmember dir name doc rootDoc hdirReach hname hne hdoc hroot t hkey dep hdep'
              hdepMember
        · simp [manifestInUpload, hname, hne, hdirs, hdir, parsed] at hdoc'

/-- The directory name of a second crate. -/
def nameB : FileName := ⟨"b".toList, by decide, by decide, by decide⟩

/-- A root manifest of two crates. -/
def pairRoot : Text := "[workspace]\nmembers = [\"a\", \"b\"]\n".toList

/-- A manifest with a build dependency on the second crate. -/
def buildMember : Text :=
  "[package]\nname = \"a\"\n[build-dependencies]\nb = \x7b path = \"../b\" \x7d\n".toList

/-- A manifest with a normal and a build dependency on the second crate. -/
def bothMember : Text := buildMember ++ "[dependencies]\nb = \x7b path = \"../b\" \x7d\n".toList

/-- The manifest of the second crate. -/
def memberB : Text := "[package]\nname = \"b\"\n".toList

/-- A path dependency on the second crate. -/
def onB : Table := [("b".toList, .table [("path".toList, .string "../b".toList)])]

/-- The editor's behaviour on the manifests of two crates. -/
def pairToml : TomlEdit where
  parse text :=
    if text = pairRoot then
      .ok [("workspace".toList, .table
        [("members".toList, .array [.string "a".toList, .string "b".toList])])]
    else if text = exampleRoot then
      .ok [("workspace".toList, .table [("members".toList, .array [.string "a".toList])])]
    else if text = buildMember then
      .ok [("package".toList, .table [("name".toList, .string "a".toList)]),
        ("build-dependencies".toList, .table onB)]
    else if text = bothMember then
      .ok [("package".toList, .table [("name".toList, .string "a".toList)]),
        ("build-dependencies".toList, .table onB), (normalKey, .table onB)]
    else if text = memberB then
      .ok [("package".toList, .table [("name".toList, .string "b".toList)])]
    else .error "unknown".toList
  render text doc :=
    if text = pairRoot ∧ declaredMembers doc = ["a".toList] then exampleRoot else text

/-- The metadata of two crates, with the dependencies of the first. -/
def pairMetadata (dependencies : List Dependency) : Metadata where
  workspaceMembers := ["a".toList, "b".toList]
  workspaceRoot := wsDir
  packages :=
    [{ id := "a".toList
       name := "a".toList
       manifestPath := (wsDir.join nameA).join cargoToml
       dependencies
       targets := [] },
     { id := "b".toList
       name := "b".toList
       manifestPath := (wsDir.join nameB).join cargoToml
       dependencies := []
       targets := [] }]

/-- A dependency on the second crate. -/
def dependencyOnB (kind : Option Text) : Dependency := ⟨"b".toList, kind, some (wsDir.join nameB)⟩

/-- The disk of two crates, with the manifest of the first. -/
def pairDisk (member : Text) : Disk where
  readToString path :=
    if path = wsDir.join cargoToml then some pairRoot
    else if path = (wsDir.join nameA).join cargoToml then some member
    else if path = (wsDir.join nameB).join cargoToml then some memberB
    else none
  isFile _ := false

/-- The resolution of the path in the examples. -/
def pairResolve (dir : FilePath) (path : Text) : FilePath :=
  if path = "../b".toList then wsDir.join nameB else dir

/-- The upload of a crate with a build dependency. -/
def buildUpload : ClosureUpload := ⟨[wsDir.join nameA], [], [(cargoToml.text, exampleRoot)]⟩

/-- The upload of two crates. -/
def bothUpload : ClosureUpload :=
  ⟨[wsDir.join nameA, wsDir.join nameB], [], [(cargoToml.text, pairRoot)]⟩

/-- No normal dependency is declared in a manifest without such tables. -/
theorem not_declares_normal {dir dep : FilePath} {rootDoc doc : Table} {t : DepTable}
    (hnormal : doc.get normalKey = none) (htarget : doc.get "target".toList = none)
    (ht : t.key = normalKey) : ¬ Declares pairResolve wsDir rootDoc dir doc t dep := by
  refine not_declares fun rest => ?_
  obtain ⟨key, platform⟩ := t
  obtain rfl : key = normalKey := ht
  cases platform with
  | none => exact Table.leafAt_eq_none (by rw [hnormal]; rfl)
  | some cfg => exact Table.leafAt_eq_none (by rw [htarget]; rfl)

/-- The metadata of two crates matches a manifest without normal dependencies. -/
theorem matches_build :
    Matches pairResolve pairToml (pairDisk buildMember)
      (pairMetadata [dependencyOnB (some "build".toList)]) := by
  intro pkg hpkg doc rootDoc hdoc _ t ht dep hdep
  have hpkg' := (List.mem_filter.mp hpkg).1
  simp only [pairMetadata, List.mem_cons, List.not_mem_nil, or_false] at hpkg'
  rcases hpkg' with rfl | rfl
  · cases hdoc
    exact absurd hdep (not_declares_normal rfl rfl ht)
  · cases hdoc
    exact absurd hdep (not_declares_normal rfl rfl ht)

/-- An upload with a manifest that refers to a crate that was left out. -/
theorem upload_refers_to_missing_crate :
    closureFromMetadata (pairMetadata [dependencyOnB (some "build".toList)]) "a".toList =
      some ⟨[wsDir.join nameA], []⟩ ∧
    buildClosureUpload pairToml (pairDisk buildMember)
      (pairMetadata [dependencyOnB (some "build".toList)]) "a".toList [wsDir.join nameA] =
      some buildUpload ∧
    Matches pairResolve pairToml (pairDisk buildMember)
      (pairMetadata [dependencyOnB (some "build".toList)]) ∧
    ¬ SelfConsistent pairResolve pairToml (pairDisk buildMember)
      (pairMetadata [dependencyOnB (some "build".toList)]) buildUpload := by
  refine ⟨rfl, rfl, matches_build, fun hconsistent => ?_⟩
  have hdep := hconsistent (wsDir.join nameA)
    [("package".toList, .table [("name".toList, .string "a".toList)]),
      ("build-dependencies".toList, .table onB)]
    [("workspace".toList, .table [("members".toList, .array [.string "a".toList])])] rfl rfl
    ⟨"build-dependencies".toList, none⟩ (by decide) (wsDir.join nameB)
    ⟨"b".toList, "../b".toList, .inl ⟨rfl, rfl⟩⟩ (by decide)
  exact absurd hdep (by decide)

/-- The example's table has one entry. -/
theorem leafAt_onB {name : Text} (hname : name ≠ "b".toList) (keys : List Text) :
    Table.leafAt onB (name :: keys) = none := by
  refine Table.leafAt_eq_none ?_
  simp only [Table.get, onB, List.lookup, beq_false_of_ne hname, Option.bind_none]

/-- What is declared in a table of the example is on the second crate. -/
theorem eq_of_declares_onB {dir dep : FilePath} {rootDoc doc : Table} {t : DepTable}
    (hdoc : ∀ rest, doc.leafAt (t.keys ++ rest) = Table.leafAt onB rest)
    (h : Declares pairResolve wsDir rootDoc dir doc t dep) : dep = wsDir.join nameB := by
  obtain ⟨name, path, h⟩ := h
  rw [hdoc, hdoc] at h
  by_cases hname : name = "b".toList
  · rw [hname] at h
    rcases h with ⟨hleaf, rfl⟩ | ⟨hleaf, -⟩
    · have hpath : path = "../b".toList := by
        have hstring : some (Toml.string "../b".toList) = some (.string path) := hleaf
        simpa using hstring.symm
      rw [hpath]
      rfl
    · cases hleaf
  · rw [leafAt_onB hname, leafAt_onB hname] at h
    rcases h with ⟨hleaf, -⟩ | ⟨hleaf, -⟩ <;> cases hleaf

/-- The dependencies of the first crate when it has a normal and a build dependency. -/
def bothDependencies : List Dependency := [dependencyOnB none, dependencyOnB (some "build".toList)]

/-- The metadata of two crates matches a manifest with a normal dependency. -/
theorem matches_both :
    Matches pairResolve pairToml (pairDisk bothMember) (pairMetadata bothDependencies) := by
  intro pkg hpkg doc rootDoc hdoc _ t ht dep hdep
  have hpkg' := (List.mem_filter.mp hpkg).1
  simp only [pairMetadata, List.mem_cons, List.not_mem_nil, or_false] at hpkg'
  rcases hpkg' with rfl | rfl
  · cases hdoc
    refine ⟨dependencyOnB none, by simp [bothDependencies], rfl, ?_⟩
    obtain ⟨key, platform⟩ := t
    obtain rfl : key = normalKey := ht
    cases platform with
    | none => rw [eq_of_declares_onB (fun _ => rfl) hdep]; rfl
    | some cfg => exact absurd hdep (not_declares fun _ => Table.leafAt_eq_none rfl)
  · cases hdoc
    exact absurd hdep (not_declares_normal rfl rfl ht)

/-- A build dependency on a crate that is also a normal dependency is in the upload. -/
theorem upload_selfConsistent_both :
    SelfConsistent pairResolve pairToml (pairDisk bothMember) (pairMetadata bothDependencies)
      bothUpload := by
  refine (upload_selfConsistent_iff pairResolve pairToml (pairDisk bothMember)
    (pairMetadata bothDependencies) "a".toList
    ((pairMetadata bothDependencies).packages.head (by decide))
    ⟨[wsDir.join nameA, wsDir.join nameB], []⟩ bothUpload matches_both rfl rfl rfl ?_).mpr ?_
  · refine ⟨?_, ?_⟩
    · intro dir hdir text doc hread hparse hdev
      have hdoc : originalDoc pairToml (pairDisk bothMember) dir = some doc := by
        simp [originalDoc, parsed, hread, hparse, Except.toOption]
      rcases List.mem_cons.mp hdir with rfl | hdir
      · cases hdoc
        exact absurd hdev (by decide)
      · cases List.mem_singleton.mp hdir
        cases hdoc
        exact absurd hdev (by decide)
    · intro text doc edited hread hparse hscope
      cases hread
      cases hparse
      cases hscope
      exact ⟨_, rfl, fun _ => rfl⟩
  · have hstart : ∀ dep ∈ (pairMetadata bothDependencies).memberDirs,
        Worklist.Reaches (pairMetadata bothDependencies).next (wsDir.join nameA) dep := by
      intro dep hdep
      have hcases : dep = wsDir.join nameA ∨ dep = wsDir.join nameB := by
        simpa using (show dep ∈ [wsDir.join nameA, wsDir.join nameB] from hdep)
      rcases hcases with rfl | rfl
      · exact .refl
      · exact .single (by decide)
    exact ⟨fun _ _ _ _ _ _ _ _ _ _ _ dep _ hdep => hstart dep hdep,
      fun _ _ _ _ dep _ hdep => hstart dep hdep⟩

end ModalRust.Scope
