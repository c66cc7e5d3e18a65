import ModalRust.Describe.CacheKey

/-!
# What the describe build reads

The shadow build reads the Rust files and manifests of the closure crates, the root
manifest, the lock file, and the path dependencies that its manifests keep by absolute
paths. The key covers the closure crates and the lock file. So it covers all of these
exactly if the workspace root and the kept dependencies are below closure crates.
-/

namespace ModalRust.Describe

open Scope (FilePath Metadata ClosureResult Package closureFromMetadata cargoToml cargoLock)
open Upload (OsName OsPath FileData FileSystem toOs)

/-- The path dependencies of the copied crates that are not in the closure. The shadow
manifests name them by absolute paths. Development dependencies are stripped from all
manifests but the one at the root. -/
def keptDirs (m : Metadata) (root : FilePath) (dirs : List FilePath) : List FilePath :=
  (dirs.filter fun dir => (dir.stripPrefix root).isSome).flatMap fun dir =>
    ((m.byDir dir).elim [] Package.dependencies).filterMap fun d =>
      if d.kind = some "dev".toList ∧ dir ≠ root then none
      else d.path.filter fun path => path ∉ dirs

/-- A workspace with a package whose runner is described. Cargo has read the manifests. -/
structure Workspace where
  /-- The workspace root. -/
  root : FilePath
  /-- The files on disk. -/
  fs : FileSystem
  /-- The output of `cargo metadata`. -/
  metadata : Metadata
  /-- The package. -/
  package : Text
  /-- Whether its runner is generated. -/
  isGeneratable : Bool
  /-- The closure of the package. -/
  closure : ClosureResult
  /-- It is the one that is computed. -/
  closure_eq : closureFromMetadata metadata package = some closure
  /-- The root and the kept dependencies have manifests. -/
  manifest : ∀ dir ∈ root :: keptDirs metadata root closure.dirs,
    fs.isFile (toOs (dir.join cargoToml)) = true

/-- The Rust files and manifests below a directory, with their contents. -/
def sourcesBelow (fs : FileSystem) (dir : OsPath) : List (OsPath × Option Bytes) :=
  match fs.nodeAt dir with
  | some tree =>
    if tree.isDir then
      (tree.walk (keepEntry dir) dir).filterMap fun visit =>
        (visitFile visit).map fun file => (file.1, file.2.contents)
    else []
  | none => []

namespace Workspace

/-- The closure directories. -/
def dirs (w : Workspace) : List OsPath := w.closure.dirs.map toOs

/-- The kept path dependencies. -/
def kept (w : Workspace) : List FilePath := keptDirs w.metadata w.root w.closure.dirs

/-- What the key is computed from. -/
def keyInput (w : Workspace) : Option KeyInput :=
  Describe.keyInput w.fs (toOs w.root) w.package w.isGeneratable w.dirs

/-- The stream of the key. -/
def key (w : Workspace) : Option Bytes :=
  Describe.key (some w.metadata) w.fs (toOs w.root) w.package w.isGeneratable

/-- The Rust files and manifests that the build reads. -/
def sources (w : Workspace) : List (OsPath × Option Bytes) :=
  (w.dirs ++ w.kept.map toOs).flatMap (sourcesBelow w.fs)

/-- The root manifest. -/
def rootManifest (w : Workspace) : Option Bytes := contentsAt w.fs (toOs (w.root.join cargoToml))

/-- The lock file. -/
def lock (w : Workspace) : Option Bytes := readLock w.fs (toOs w.root)

/-- What is hashed fits into memory. -/
def Fits (w : Workspace) : Prop := ∀ input, w.keyInput = some input → input.Fits

/-- The root and the kept dependencies are below closure directories, and no directory on the
way is skipped. -/
def Covered (w : Workspace) : Prop :=
  ∀ dir ∈ w.root :: w.kept, ∃ crate ∈ w.closure.dirs, ∃ names : List FileName,
    dir = crate.joinAll names ∧ ∀ name ∈ names, isPruned (.utf8 name) = false

end Workspace

/-- The build reads the same. -/
structure SameInputs (w w' : Workspace) : Prop where
  /-- The Rust files and manifests. -/
  sources : ∀ source, source ∈ w.sources ↔ source ∈ w'.sources
  /-- The root manifest. -/
  manifest : w.rootManifest = w'.rootManifest
  /-- The lock file. -/
  lock : w.lock = w'.lock

/-- A path in the stream stands for one file in two states of a workspace. -/
def KeysApart (w w' : Workspace) : Prop :=
  ∀ dir ∈ w.dirs, ∀ dir' ∈ w'.dirs, ∀ source ∈ sourcesBelow w.fs dir,
    ∀ source' ∈ sourcesBelow w'.fs dir',
      relPath (toOs w.root) dir source.1 = relPath (toOs w'.root) dir' source'.1 →
        source.1 = source'.1

/-- The key of a workspace. -/
theorem Workspace.key_eq (w : Workspace) : w.key = w.keyInput.map KeyInput.stream := by
  have hroot : w.fs.isFile ((toOs w.root).join (.utf8 cargoToml)) = true := by
    have h := w.manifest w.root List.mem_cons_self
    rwa [show toOs (w.root.join cargoToml) = (toOs w.root).join (.utf8 cargoToml) by
      simp [toOs, Path.map, Path.join, Part.map]] at h
  unfold Workspace.key Describe.key describeCacheInputs
  rw [if_pos hroot, Option.bind_some, w.closure_eq]
  rfl

/-- Which directories the walk enters. -/
theorem keepEntry_above {dir : OsPath} {names : List OsName} :
    (∀ above, above <+: names → above ≠ names → keepEntry dir (dir.joinAll above) true = true) ↔
      ∀ name ∈ names.dropLast, isPruned name = false := by
  have hkeep (above : List OsName) (name : OsName) :
      keepEntry dir (dir.joinAll (above ++ [name])) true = true ↔ isPruned name = false := by
    have hne : dir.joinAll (above ++ [name]) ≠ dir := by
      obtain ⟨first, rest, hcons⟩ := List.exists_cons_of_ne_nil
        (List.append_ne_nil_of_right_ne_nil above (List.cons_ne_nil name []))
      rw [hcons]
      exact Path.joinAll_cons_ne
    have hname : (dir.joinAll (above ++ [name])).fileName = some name := by
      simp [Path.fileName, Path.joinAll]
    rw [keepEntry, if_pos rfl, hname]
    simp [hne]
  constructor
  · intro h name hname
    obtain ⟨before, after, hsplit⟩ := List.append_of_mem hname
    have hway : before ++ [name] <+: names.dropLast := ⟨after, by simp [hsplit]⟩
    refine (hkeep before name).mp (h _ (hway.trans (List.dropLast_prefix _)) ?_)
    rintro rfl
    have hlength := hway.length_le
    rw [List.length_dropLast, List.length_append, List.length_singleton] at hlength
    omega
  · intro h above habove hne
    rcases List.eq_nil_or_concat' above with rfl | ⟨before, name, rfl⟩
    · simp [keepEntry]
    · rw [hkeep]
      refine h name ?_
      obtain ⟨after, hafter⟩ := habove
      have hnil : after ≠ [] := by
        rintro rfl
        exact hne (by simpa using hafter)
      rw [← hafter, List.dropLast_append_of_ne_nil hnil]
      simp

/-- **The files that are found below a directory.** -/
theorem mem_sourcesBelow {fs : FileSystem} {dir p : OsPath} {contents : Option Bytes} :
    (p, contents) ∈ sourcesBelow fs dir ↔ ∃ names name data,
      p = dir.joinAll (names ++ [name]) ∧ fs.nodeAt p = some (.file data) ∧
        data.contents = contents ∧ isCacheInput name = true ∧
        ∀ n ∈ names, isPruned n = false := by
  unfold sourcesBelow
  constructor
  · intro h
    cases htree : fs.nodeAt dir with
    | none => simp [htree] at h
    | some tree =>
      simp only [htree] at h
      split at h
      · rename_i hdir
        obtain ⟨visit, hvisit, hfile⟩ := List.mem_filterMap.mp h
        cases visit with
        | error path => cases hfile
        | file path data =>
          simp only [visitFile, Option.map_some, Option.some.injEq, Prod.mk.injEq] at hfile
          obtain ⟨rfl, rfl⟩ := hfile
          obtain ⟨names, hnode, rfl, hkeep, habove⟩ :=
            (FileTree.mem_walk (Upload.distinct_of_nodeAt htree)).mp hvisit
          rcases List.eq_nil_or_concat' names with rfl | ⟨before, name, rfl⟩
          · simp only [FileTree.node, Option.some.injEq] at hnode
            rw [hnode] at hdir
            cases hdir
          · refine ⟨before, name, data, rfl, ?_, rfl, ?_, ?_⟩
            · rw [Upload.nodeAt_joinAll, htree, Option.bind_some, hnode]
            · simpa [keepEntry, Path.fileName, Path.joinAll] using hkeep
            · simpa using keepEntry_above.mp habove
      · cases h
  · rintro ⟨names, name, data, rfl, hnode, rfl, hname, hnames⟩
    rw [Upload.nodeAt_joinAll] at hnode
    obtain ⟨tree, htree, hbelow⟩ := Option.bind_eq_some_iff.mp hnode
    have hdir : tree.isDir = true := by
      cases tree with
      | dir entries => rfl
      | blocked => rfl
      | file other => cases names <;> cases hbelow
      | other => cases names <;> cases hbelow
    simp only [htree, hdir, if_true]
    refine List.mem_filterMap.mpr ⟨.file (dir.joinAll (names ++ [name])) data, ?_, rfl⟩
    refine (FileTree.mem_walk (Upload.distinct_of_nodeAt htree)).mpr
      ⟨names ++ [name], hbelow, rfl, ?_, keepEntry_above.mpr (by simpa using hnames)⟩
    simpa [keepEntry, Path.fileName, Path.joinAll] using hname

/-- The files of a directory that was walked. -/
theorem sourcesBelow_of_walkDir {fs : FileSystem} {dir : OsPath} {files : List (OsPath × FileData)}
    (h : walkDir fs dir = some files) :
    sourcesBelow fs dir = files.map fun file => (file.1, file.2.contents) := by
  have hdir : ∀ tree, fs.nodeAt dir = some tree → tree.isDir = true := by
    intro tree htree
    unfold walkDir at h
    simp only [htree] at h
    split at h
    · assumption
    · cases h
  obtain ⟨tree, htree, hwalk⟩ := walk_of_walkDir h
  unfold sourcesBelow
  simp only [htree, hdir tree htree, if_true, hwalk, List.filterMap_map]
  rw [← List.filterMap_eq_map]
  rfl

/-- A partial map by functions that agree on the list. -/
theorem mapM_congr {α β : Type} {f g : α → Option β} {l : List α} (h : ∀ a ∈ l, f a = g a) :
    l.mapM f = l.mapM g := by
  induction l with
  | nil => rfl
  | cons a l ih =>
    rw [List.mapM_cons, List.mapM_cons, h a List.mem_cons_self,
      ih fun b hb => h b (List.mem_cons_of_mem _ hb)]

/-- A partial map that succeeded. -/
theorem mapM_eq_some_iff {α β : Type} {f : α → Option β} {l : List α} {l' : List β}
    (h : l.mapM f = some l') (b : β) : b ∈ l' ↔ ∃ a ∈ l, f a = some b := by
  induction l generalizing l' with
  | nil =>
    obtain rfl := Option.some.inj h
    simp
  | cons a l ih =>
    rw [List.mapM_cons] at h
    obtain ⟨c, hc, hrest⟩ := Option.bind_eq_some_iff.mp h
    obtain ⟨rest, hmap, hl'⟩ := Option.bind_eq_some_iff.mp hrest
    obtain rfl := Option.some.inj hl'
    rw [List.mem_cons, ih hmap]
    constructor
    · rintro (rfl | ⟨d, hd, hfd⟩)
      · exact ⟨a, List.mem_cons_self, hc⟩
      · exact ⟨d, List.mem_cons_of_mem _ hd, hfd⟩
    · rintro ⟨d, hd, hfd⟩
      rcases List.mem_cons.mp hd with rfl | hd
      · rw [hc] at hfd
        exact .inl (Option.some.inj hfd).symm
      · exact .inr ⟨d, hd, hfd⟩

/-- A partial map that succeeded has an image for each element. -/
theorem exists_of_mapM {α β : Type} {f : α → Option β} {l : List α} {l' : List β}
    (h : l.mapM f = some l') {a : α} (ha : a ∈ l) : ∃ b ∈ l', f a = some b := by
  induction l generalizing l' with
  | nil => cases ha
  | cons c l ih =>
    rw [List.mapM_cons] at h
    obtain ⟨b, hb, hrest⟩ := Option.bind_eq_some_iff.mp h
    obtain ⟨rest, hmap, hl'⟩ := Option.bind_eq_some_iff.mp hrest
    obtain rfl := Option.some.inj hl'
    rcases List.mem_cons.mp ha with rfl | ha
    · exact ⟨b, List.mem_cons_self, hb⟩
    · obtain ⟨b', hb', hfb'⟩ := ih hmap ha
      exact ⟨b', List.mem_cons_of_mem _ hb', hfb'⟩

/-- **What the key is computed from**: every file that is found below a closure directory
could be read, and the stream has its relative path and contents. -/
theorem mem_keyInput {w : Workspace} {input : KeyInput} (h : w.keyInput = some input) :
    (∀ dir ∈ w.dirs, ∀ source ∈ sourcesBelow w.fs dir, ∃ contents, source.2 = some contents ∧
      (relPath (toOs w.root) dir source.1, contents) ∈ input.files) ∧
    (∀ file ∈ input.files, ∃ dir ∈ w.dirs, ∃ source ∈ sourcesBelow w.fs dir,
      relPath (toOs w.root) dir source.1 = file.1 ∧ source.2 = some file.2) ∧
    input.lock = w.lock := by
  unfold Workspace.keyInput keyInput at h
  obtain ⟨files, hfiles, hinput⟩ := Option.bind_eq_some_iff.mp h
  obtain ⟨read, hread, rfl⟩ := Option.map_eq_some_iff.mp hinput
  unfold collectClosureFiles at hfiles
  obtain ⟨lists, hlists, rfl⟩ := Option.map_eq_some_iff.mp hfiles
  refine ⟨fun dir hdir source hsource => ?_, fun file hfile => ?_, rfl⟩
  · obtain ⟨found, hfound, hclosure⟩ := exists_of_mapM hlists hdir
    obtain ⟨walked, hwalked, rfl⟩ := Option.map_eq_some_iff.mp hclosure
    rw [sourcesBelow_of_walkDir hwalked] at hsource
    obtain ⟨file, hfile, rfl⟩ := List.mem_map.mp hsource
    have hmem : (relPath (toOs w.root) dir file.1, file.2) ∈
        sortByKey (fun file => Scope.textKey file.1) lists.flatten :=
      (perm_sortByKey _ _).mem_iff.mpr
        (List.mem_flatten.mpr ⟨_, hfound, List.mem_map_of_mem hfile⟩)
    obtain ⟨entry, hentry, hcontents⟩ := exists_of_mapM hread hmem
    obtain ⟨contents, hdata, rfl⟩ := Option.map_eq_some_iff.mp hcontents
    exact ⟨contents, hdata, hentry⟩
  · obtain ⟨entry, hentry, hcontents⟩ := (mapM_eq_some_iff hread file).mp hfile
    obtain ⟨contents, hdata, rfl⟩ := Option.map_eq_some_iff.mp hcontents
    obtain ⟨found, hfound, hmem⟩ :=
      List.mem_flatten.mp ((perm_sortByKey _ _).mem_iff.mp hentry)
    obtain ⟨dir, hdir, hclosure⟩ := (mapM_eq_some_iff hlists found).mp hfound
    obtain ⟨walked, hwalked, rfl⟩ := Option.map_eq_some_iff.mp hclosure
    obtain ⟨source, hsource, rfl⟩ := List.mem_map.mp hmem
    refine ⟨dir, hdir, (source.1, source.2.contents), ?_, rfl, hdata⟩
    rw [sourcesBelow_of_walkDir hwalked]
    exact List.mem_map_of_mem hsource

/-- Paths below a directory, as paths of the operating system. -/
theorem toOs_joinAll (p : FilePath) (names : List FileName) :
    toOs (p.joinAll names) = (toOs p).joinAll (names.map .utf8) := by
  simp [toOs, Path.map, Path.joinAll, Part.map]

/-- What is below a directory that the walk reaches is found by the walk. -/
theorem sourcesBelow_joinAll {fs : FileSystem} {dir : OsPath} {names : List OsName}
    (hnames : ∀ name ∈ names, isPruned name = false) {source : OsPath × Option Bytes}
    (hsource : source ∈ sourcesBelow fs (dir.joinAll names)) : source ∈ sourcesBelow fs dir := by
  obtain ⟨p, contents⟩ := source
  obtain ⟨below, name, data, hp, hnode, hcontents, hname, hbelow⟩ := mem_sourcesBelow.mp hsource
  refine mem_sourcesBelow.mpr ⟨names ++ below, name, data, ?_, hnode, hcontents, hname, ?_⟩
  · rw [hp]
    simp [Path.joinAll]
  · intro n hn
    rcases List.mem_append.mp hn with hn | hn
    · exact hnames n hn
    · exact hbelow n hn

/-- A manifest is a source of its directory. -/
theorem manifest_mem_sourcesBelow {fs : FileSystem} {dir : OsPath} {data : FileData}
    (h : fs.nodeAt (dir.joinAll [.utf8 cargoToml]) = some (.file data)) :
    (dir.joinAll [.utf8 cargoToml], data.contents) ∈ sourcesBelow fs dir :=
  mem_sourcesBelow.mpr ⟨[], .utf8 cargoToml, data, rfl, h, rfl, by simp [isCacheInput], nofun⟩

namespace Workspace

variable {w w' : Workspace}

/-- The root and the kept dependencies have manifests on disk. -/
theorem exists_manifest {dir : FilePath} (hdir : dir ∈ w.root :: w.kept) :
    ∃ data, w.fs.nodeAt ((toOs dir).joinAll [.utf8 cargoToml]) = some (.file data) := by
  have hfile := w.manifest dir hdir
  unfold FileSystem.isFile at hfile
  rw [show toOs (dir.join cargoToml) = (toOs dir).joinAll [.utf8 cargoToml] by
    simp [toOs, Path.map, Path.join, Path.joinAll, Part.map]] at hfile
  cases hnode : w.fs.nodeAt ((toOs dir).joinAll [.utf8 cargoToml]) with
  | none => simp [hnode] at hfile
  | some node =>
    cases node with
    | file data => exact ⟨data, rfl⟩
    | dir entries => simp [hnode, FileTree.isFile] at hfile
    | blocked => simp [hnode, FileTree.isFile] at hfile
    | other => simp [hnode, FileTree.isFile] at hfile

/-- Where all is covered, what is below the root or a kept dependency is below a closure
directory. -/
theorem Covered.exists_crate (hw : w.Covered) {dir : FilePath} (hdir : dir ∈ w.root :: w.kept)
    {source : OsPath × Option Bytes} (hsource : source ∈ sourcesBelow w.fs (toOs dir)) :
    ∃ crate ∈ w.dirs, source ∈ sourcesBelow w.fs crate := by
  obtain ⟨crate, hcrate, names, rfl, hnames⟩ := hw dir hdir
  rw [toOs_joinAll] at hsource
  refine ⟨toOs crate, List.mem_map_of_mem hcrate, sourcesBelow_joinAll ?_ hsource⟩
  intro name hname
  obtain ⟨fileName, hfileName, rfl⟩ := List.mem_map.mp hname
  exact hnames fileName hfileName

/-- Where all is covered, the sources are those of the closure. -/
theorem Covered.mem_sources (hw : w.Covered) {source : OsPath × Option Bytes} :
    source ∈ w.sources ↔ ∃ dir ∈ w.dirs, source ∈ sourcesBelow w.fs dir := by
  unfold sources
  rw [List.mem_flatMap]
  constructor
  · rintro ⟨dir, hdir, hsource⟩
    rcases List.mem_append.mp hdir with hdir | hdir
    · exact ⟨dir, hdir, hsource⟩
    · obtain ⟨kept, hkept, rfl⟩ := List.mem_map.mp hdir
      exact hw.exists_crate (List.mem_cons_of_mem _ hkept) hsource
  · rintro ⟨dir, hdir, hsource⟩
    exact ⟨dir, List.mem_append_left _ hdir, hsource⟩

/-- The sources of one state are sources of another state with the same key. -/
theorem sources_subset {input : KeyInput} (hinput : w.keyInput = some input)
    (hinput' : w'.keyInput = some input) (hapart : KeysApart w w') {dir : OsPath}
    (hdir : dir ∈ w.dirs) {source : OsPath × Option Bytes}
    (hsource : source ∈ sourcesBelow w.fs dir) :
    ∃ dir' ∈ w'.dirs, source ∈ sourcesBelow w'.fs dir' := by
  obtain ⟨contents, hcontents, hfile⟩ := (mem_keyInput hinput).1 dir hdir source hsource
  obtain ⟨dir', hdir', source', hsource', hpath, hcontents'⟩ :=
    (mem_keyInput hinput').2.1 _ hfile
  have hsame := hapart dir hdir dir' hdir' source hsource source' hsource' hpath.symm
  refine ⟨dir', hdir', ?_⟩
  have heq : source = source' := Prod.ext hsame (hcontents.trans hcontents'.symm)
  rwa [heq]

/-- **Where all is covered, one key means one build.** -/
theorem Covered.sameInputs (hw : w.Covered) (hw' : w'.Covered) (hroot : w'.root = w.root)
    (hapart : KeysApart w w') (hfits : w.Fits) (hfits' : w'.Fits) {stream : Bytes}
    (hkey : w.key = some stream) (hkey' : w'.key = some stream) : SameInputs w w' := by
  rw [key_eq] at hkey hkey'
  obtain ⟨input, hinput, hstream⟩ := Option.map_eq_some_iff.mp hkey
  obtain ⟨input', hinput', hstream'⟩ := Option.map_eq_some_iff.mp hkey'
  obtain rfl : input = input' := KeyInput.stream_inj (hfits input hinput) (hfits' input' hinput')
    (hstream.trans hstream'.symm)
  have hapart' : KeysApart w' w := fun dir hdir dir' hdir' source hsource source' hsource' h =>
    (hapart dir' hdir' dir hdir source' hsource' source hsource h.symm).symm
  refine ⟨fun source => ?_, ?_, ?_⟩
  · rw [hw.mem_sources, hw'.mem_sources]
    constructor
    · rintro ⟨dir, hdir, hsource⟩
      exact sources_subset hinput hinput' hapart hdir hsource
    · rintro ⟨dir, hdir, hsource⟩
      exact sources_subset hinput' hinput hapart' hdir hsource
  · obtain ⟨data, hdata⟩ := exists_manifest (w := w) List.mem_cons_self
    obtain ⟨crate, hcrate, hsource⟩ :=
      hw.exists_crate List.mem_cons_self (manifest_mem_sourcesBelow hdata)
    obtain ⟨crate', -, hsource'⟩ := sources_subset hinput hinput' hapart hcrate hsource
    obtain ⟨-, -, data', -, hdata', hcontents, -⟩ := mem_sourcesBelow.mp hsource'
    have hpath (root : FilePath) :
        toOs (root.join cargoToml) = (toOs root).joinAll [.utf8 cargoToml] := by
      simp [toOs, Path.map, Path.join, Path.joinAll, Part.map]
    unfold rootManifest contentsAt
    rw [hroot, hpath, hdata, hdata']
    exact hcontents.symm
  · rw [← (mem_keyInput hinput).2.2, ← (mem_keyInput hinput').2.2]

end Workspace

/-- Other contents in the file along some names. -/
def editFile (fs : FileSystem) (names : List OsName) (data : FileData) : FileSystem :=
  ⟨fs.root.setData data names, fs.distinct.setData names⟩

/-- The nodes after an edit. -/
theorem nodeAt_editFile {fs : FileSystem} {names : List OsName} {data : FileData} {p : OsPath}
    {pnames : List OsName} (hp : p.names = some pnames) :
    (editFile fs names data).nodeAt p = (fs.nodeAt p).map fun node =>
      if pnames <+: names then node.setData data (names.drop pnames.length) else node := by
  unfold FileSystem.nodeAt
  split
  · rw [hp, Option.bind_some, Option.bind_some]
    exact FileTree.node_setData
  · rfl

/-- A path with a node has names. -/
theorem names_of_nodeAt {fs : FileSystem} {p : OsPath} {node : FileTree OsName FileData}
    (h : fs.nodeAt p = some node) :
    p.absolute = true ∧ ∃ names, p.names = some names ∧ p = ⟨true, names.map .normal⟩ := by
  have hnames (parts : List (Part OsName)) {names : List OsName}
      (hparts : parts.mapM Part.name = some names) : parts = names.map .normal := by
    induction parts generalizing names with
    | nil =>
      obtain rfl := Option.some.inj hparts
      rfl
    | cons part parts ih =>
      rw [List.mapM_cons] at hparts
      obtain ⟨name, hname, hrest⟩ := Option.bind_eq_some_iff.mp hparts
      obtain ⟨rest, hmap, hall⟩ := Option.bind_eq_some_iff.mp hrest
      obtain rfl := Option.some.inj hall
      cases part with
      | parentDir => cases hname
      | normal other =>
        obtain rfl := Option.some.inj hname
        rw [ih hmap]
        rfl
  unfold FileSystem.nodeAt at h
  split at h
  · rename_i habsolute
    obtain ⟨names, hp, -⟩ := Option.bind_eq_some_iff.mp h
    refine ⟨habsolute, names, hp, ?_⟩
    obtain ⟨absolute, parts⟩ := p
    obtain rfl : absolute = true := habsolute
    rw [hnames parts hp]
  · cases h

/-- Files stay files, and the contents of the others stay. -/
theorem nodeAt_editFile_file {fs : FileSystem} (names : List OsName) (data : FileData)
    {old : FileData} {p : OsPath} (h : fs.nodeAt p = some (.file old)) :
    (editFile fs names data).nodeAt p =
      some (.file (if p = ⟨true, names.map .normal⟩ then data else old)) := by
  obtain ⟨-, pnames, hpnames, rfl⟩ := names_of_nodeAt h
  have hinjective : Function.Injective (Part.normal : OsName → Part OsName) :=
    fun _ _ h => Part.normal.inj h
  rw [nodeAt_editFile hpnames, h, Option.map_some]
  simp only [Path.mk.injEq, true_and, hinjective.list_map.eq_iff]
  by_cases hway : pnames <+: names
  · obtain ⟨rest, rfl⟩ := hway
    cases rest with
    | nil => simp [FileTree.setData]
    | cons name rest => simp [FileTree.setData]
  · have hne : pnames ≠ names := by
      rintro rfl
      exact hway (List.prefix_refl _)
    rw [if_neg hway, if_neg hne]

/-- Only what is a file before an edit is one after it. -/
theorem file_of_nodeAt_editFile {fs : FileSystem} {names : List OsName} {data new : FileData}
    {p : OsPath} (h : (editFile fs names data).nodeAt p = some (.file new)) :
    ∃ old, fs.nodeAt p = some (.file old) := by
  obtain ⟨-, pnames, hpnames, -⟩ := names_of_nodeAt h
  rw [nodeAt_editFile hpnames] at h
  obtain ⟨node, hnode, hset⟩ := Option.map_eq_some_iff.mp h
  split at hset
  · obtain ⟨old, rfl⟩ := FileTree.file_of_setData hset
    exact ⟨old, hnode⟩
  · exact ⟨new, by rw [hnode, hset]⟩

/-- The contents at other paths stay. -/
theorem contentsAt_editFile {fs : FileSystem} {names : List OsName} {data : FileData} {p : OsPath}
    (hp : p ≠ ⟨true, names.map .normal⟩) :
    contentsAt (editFile fs names data) p = contentsAt fs p := by
  by_cases hfile : ∃ old, fs.nodeAt p = some (.file old)
  · obtain ⟨old, hold⟩ := hfile
    have hnew := nodeAt_editFile_file names data hold
    rw [if_neg hp] at hnew
    unfold contentsAt
    rw [hold, hnew]
  · have hnone (fs' : FileSystem) (h : ¬ ∃ old, fs'.nodeAt p = some (.file old)) :
        contentsAt fs' p = none := by
      unfold contentsAt
      split
      · rename_i old hold
        exact absurd ⟨_, hold⟩ h
      · rfl
    rw [hnone fs hfile, hnone _ fun ⟨_, hnew⟩ => hfile (file_of_nodeAt_editFile hnew)]

/-- A directory below which the edited file is not found is walked as before. -/
theorem walkDir_editFile {fs : FileSystem} {names : List OsName} {data : FileData} {dir : OsPath}
    (h : ∀ contents, (⟨true, names.map .normal⟩, contents) ∉ sourcesBelow fs dir) :
    walkDir (editFile fs names data) dir = walkDir fs dir := by
  unfold walkDir
  cases hnode : fs.nodeAt dir with
  | none =>
    have hnone : (editFile fs names data).nodeAt dir = none := by
      unfold FileSystem.nodeAt at hnode ⊢
      split
      · rename_i habsolute
        rw [if_pos habsolute] at hnode
        cases hnames : dir.names with
        | none => rfl
        | some dnames =>
          rw [hnames, Option.bind_some] at hnode
          rw [Option.bind_some]
          exact FileTree.node_setData.trans (by rw [hnode]; rfl)
      · rfl
    rw [hnone]
  | some tree =>
    obtain ⟨-, dnames, hdnames, hdir⟩ := names_of_nodeAt hnode
    rw [nodeAt_editFile hdnames, hnode, Option.map_some]
    dsimp only
    by_cases hway : dnames <+: names
    · obtain ⟨rest, rfl⟩ := hway
      have hpath : dir.joinAll rest = ⟨true, (dnames ++ rest).map .normal⟩ := by
        rw [hdir]
        simp [Path.joinAll]
      rw [if_pos (List.prefix_append _ _), List.drop_left]
      have htreeDir : (tree.setData data rest).isDir = tree.isDir := by
        cases tree <;> cases rest <;> rfl
      rw [htreeDir]
      split
      · rename_i hisDir
        rw [FileTree.walk_setData, hpath, FileTree.map_setVisit_of_not_mem]
        intro old hvisit
        refine h old.contents ?_
        unfold sourcesBelow
        simp only [hnode, hisDir, if_true]
        exact List.mem_filterMap.mpr ⟨_, hvisit, rfl⟩
      · rfl
    · rw [if_neg hway]

/-- A path of text below a directory of text is below it through names that are text. -/
theorem exists_joinAll_of_toOs {dir crate : FilePath} {last name : OsName} {below : List OsName}
    (h : (toOs dir).joinAll [last] = (toOs crate).joinAll (below ++ [name])) :
    ∃ names : List FileName, below = names.map .utf8 ∧ dir = crate.joinAll names := by
  have hinjective : Function.Injective (Part.map OsName.utf8) := by
    rintro (_ | a) (_ | b) hab
    · rfl
    · cases hab
    · cases hab
    · exact congrArg Part.normal (OsName.utf8.inj (Part.normal.inj hab))
  have hnames (parts : List (Part FileName)) (below : List OsName)
      (hparts : parts.map (Part.map .utf8) = below.map .normal) :
      ∃ names : List FileName, below = names.map .utf8 ∧ parts = names.map .normal := by
    induction parts generalizing below with
    | nil => exact ⟨[], List.map_eq_nil_iff.mp hparts.symm, rfl⟩
    | cons part parts ih =>
      cases below with
      | nil => cases hparts
      | cons first below =>
        obtain ⟨hfirst, hrest⟩ := List.cons.inj hparts
        obtain ⟨names, rfl, rfl⟩ := ih below hrest
        cases part with
        | parentDir => cases hfirst
        | normal fileName => exact ⟨fileName :: names, by rw [← Part.normal.inj hfirst]; rfl, rfl⟩
  obtain ⟨dirAbs, dirParts⟩ := dir
  obtain ⟨crateAbs, crateParts⟩ := crate
  simp only [toOs, Path.map, Path.joinAll, Path.mk.injEq, List.map_append, List.map_cons,
    List.map_nil, ← List.append_assoc] at h
  obtain ⟨rfl, hparts⟩ := h
  obtain ⟨hsame, -⟩ := List.append_inj' hparts rfl
  obtain ⟨before, after, rfl, hbefore, hafter⟩ := List.map_eq_append_iff.mp hsame
  obtain rfl := hinjective.list_map hbefore
  obtain ⟨names, rfl, rfl⟩ := hnames after below hafter
  exact ⟨names, rfl, rfl⟩

/-- The manifest of a directory that is not covered is not found. -/
theorem manifest_not_mem {w : Workspace} {dir : FilePath}
    (hdir : ∀ crate ∈ w.closure.dirs, ∀ names : List FileName, dir = crate.joinAll names →
      ∃ name ∈ names, isPruned (.utf8 name) = true) {crate : OsPath} (hcrate : crate ∈ w.dirs)
    (contents : Option Bytes) :
    ((toOs dir).joinAll [.utf8 cargoToml], contents) ∉ sourcesBelow w.fs crate := by
  intro hmem
  obtain ⟨below, name, data, hpath, -, -, -, hbelow⟩ := mem_sourcesBelow.mp hmem
  obtain ⟨crateDir, hcrateDir, rfl⟩ := List.mem_map.mp hcrate
  obtain ⟨names, rfl, hjoin⟩ := exists_joinAll_of_toOs hpath
  obtain ⟨pruned, hpruned, htrue⟩ := hdir crateDir hcrateDir names hjoin
  rw [hbelow _ (List.mem_map_of_mem hpruned)] at htrue
  cases htrue

namespace Workspace

/-- The workspace after an edit of a file that is there. Cargo reports the same. -/
def edited (w : Workspace) (names : List OsName) (data : FileData) : Workspace :=
  { w with
    fs := editFile w.fs names data
    manifest := by
      intro dir hdir
      have hfile := w.manifest dir hdir
      unfold FileSystem.isFile at hfile ⊢
      cases hnode : w.fs.nodeAt (toOs (dir.join cargoToml)) with
      | none => simp [hnode] at hfile
      | some node =>
        cases node with
        | file old =>
          rw [nodeAt_editFile_file names data hnode]
          rfl
        | dir entries => simp [hnode, FileTree.isFile] at hfile
        | blocked => simp [hnode, FileTree.isFile] at hfile
        | other => simp [hnode, FileTree.isFile] at hfile }

/-- An edit of a file that is not found, and is not the lock file, does not change the key. -/
theorem key_edited {w : Workspace} {names : List OsName} {data : FileData}
    (hfound : ∀ crate ∈ w.dirs, ∀ contents,
      (⟨true, names.map .normal⟩, contents) ∉ sourcesBelow w.fs crate)
    (hlock : (toOs w.root).join (.utf8 cargoLock) ≠ ⟨true, names.map .normal⟩) :
    (w.edited names data).key = w.key := by
  have hdirs : (w.edited names data).dirs = w.dirs := rfl
  have hfiles : collectClosureFiles (editFile w.fs names data) (toOs w.root) w.dirs =
      collectClosureFiles w.fs (toOs w.root) w.dirs := by
    unfold collectClosureFiles
    congr 1
    refine mapM_congr fun crate hcrate => ?_
    unfold closureFiles
    rw [walkDir_editFile (hfound crate hcrate)]
  rw [key_eq, key_eq]
  unfold keyInput Describe.keyInput readLock
  rw [hdirs]
  simp only [edited]
  rw [hfiles, contentsAt_editFile hlock]

/-- Files of different names have different paths. -/
theorem join_ne_joinAll {p q : OsPath} {a b : OsName} (h : a ≠ b) : p.join a ≠ q.joinAll [b] := by
  intro heq
  have hlast := congrArg Path.fileName heq
  simp only [Path.fileName, Path.join, Path.joinAll, List.map_cons, List.map_nil,
    List.getLast?_concat, Option.some.injEq] at hlast
  exact h hlast

/-- A manifest with a comment at its end. -/
def commented (old : FileData) : FileData :=
  { old with contents := some (old.contents.getD [] ++ toUtf8 "\n# edited\n".toList) }

/-- The comment changes the contents. -/
theorem contents_commented (old : FileData) : (commented old).contents ≠ old.contents := by
  obtain ⟨contents, mode⟩ := old
  cases contents with
  | none => exact nofun
  | some bytes => simp [commented, toUtf8]

/-- A comment is added to the manifest of a directory. -/
structure CommentsManifest (w : Workspace) (dir : FilePath) (names : List OsName)
    (old : FileData) : Prop where
  /-- The names lead to the manifest. -/
  path : (toOs dir).join (.utf8 cargoToml) = ⟨true, names.map .normal⟩
  /-- The manifest is there. -/
  manifest : w.fs.nodeAt ((toOs dir).join (.utf8 cargoToml)) = some (.file old)

/-- **An edit that the key does not see.** -/
theorem exists_hidden_edit {w : Workspace} (hw : ¬ w.Covered) :
    ∃ dir ∈ w.root :: w.kept, ∃ names old, CommentsManifest w dir names old ∧
      (w.edited names (commented old)).key = w.key ∧
      ¬ SameInputs w (w.edited names (commented old)) := by
  unfold Covered at hw
  push Not at hw
  obtain ⟨dir, hdir, huncovered⟩ := hw
  obtain ⟨old, hold⟩ := exists_manifest hdir
  obtain ⟨-, names, -, hpath⟩ := names_of_nodeAt hold
  have hnotfound (crate : OsPath) (hcrate : crate ∈ w.dirs) (contents : Option Bytes) :
      ((toOs dir).joinAll [.utf8 cargoToml], contents) ∉ sourcesBelow w.fs crate := by
    refine manifest_not_mem (fun crateDir hcrateDir below hbelow => ?_) hcrate contents
    simpa using huncovered crateDir hcrateDir below hbelow
  have hedited : (w.edited names (commented old)).fs.nodeAt
      ((toOs dir).joinAll [.utf8 cargoToml]) = some (.file (commented old)) := by
    have h := nodeAt_editFile_file names (commented old) hold
    rwa [if_pos hpath] at h
  refine ⟨dir, hdir, names, old, ⟨hpath, hold⟩,
    key_edited (fun crate hcrate contents => ?_) ?_, fun hsame => ?_⟩
  · rw [← hpath]
    exact hnotfound crate hcrate contents
  · rw [← hpath]
    exact join_ne_joinAll (by decide)
  · rcases List.mem_cons.mp hdir with rfl | hkept
    · have hmanifest := hsame.manifest
      have hroot : toOs (w.root.join cargoToml) = (toOs w.root).joinAll [.utf8 cargoToml] := by
        simp [toOs, Path.map, Path.join, Path.joinAll, Part.map]
      unfold rootManifest contentsAt at hmanifest
      rw [show (w.edited names (commented old)).root = w.root from rfl, hroot, hold,
        hedited] at hmanifest
      exact contents_commented old hmanifest.symm
    · have hsource : ((toOs dir).joinAll [.utf8 cargoToml], (commented old).contents) ∈
          (w.edited names (commented old)).sources :=
        List.mem_flatMap.mpr ⟨toOs dir, List.mem_append_right _ (List.mem_map_of_mem hkept),
          manifest_mem_sourcesBelow hedited⟩
      obtain ⟨found, -, hfound⟩ := List.mem_flatMap.mp ((hsame.sources _).mpr hsource)
      obtain ⟨-, -, same, -, hnode, heq, -⟩ := mem_sourcesBelow.mp hfound
      rw [hold] at hnode
      cases hnode
      exact contents_commented old heq.symm

end Workspace

/-- Where all closure directories are below the root, and the names are valid text, a path in
the stream stands for one file. -/
theorem keysApart_of_inside {w w' : Workspace} (hroot : w'.root = w.root)
    (hinside : ∀ dir ∈ w.dirs, (dir.stripPrefix (toOs w.root)).isSome)
    (hinside' : ∀ dir ∈ w'.dirs, (dir.stripPrefix (toOs w.root)).isSome)
    (htext : ∀ dir ∈ w.dirs, ∀ source ∈ sourcesBelow w.fs dir, IsText source.1)
    (htext' : ∀ dir ∈ w'.dirs, ∀ source ∈ sourcesBelow w'.fs dir, IsText source.1) :
    KeysApart w w' := by
  intro dir hdir dir' hdir' source hsource source' hsource' hpath
  have hstrip {dir : OsPath} (hdir : (dir.stripPrefix (toOs w.root)).isSome) {fs : FileSystem}
      {source : OsPath × Option Bytes} (hsource : source ∈ sourcesBelow fs dir) :
      ∃ rest, source.1.stripPrefix (toOs w.root) = some rest ∧
        relPath (toOs w.root) dir source.1 = rest.toPosix OsName.toStr := by
    obtain ⟨base, hbase⟩ := Option.isSome_iff_exists.mp hdir
    obtain ⟨names, name, -, hp, -⟩ := mem_sourcesBelow.mp hsource
    have hrest := Path.stripPrefix_joinAll (names ++ [name]) hbase
    rw [← hp] at hrest
    refine ⟨_, hrest, ?_⟩
    unfold relPath keyRoot
    rw [if_pos hdir, hrest, Option.getD_some]
  obtain ⟨rest, hrest, hrel⟩ := hstrip (hinside dir hdir) hsource
  obtain ⟨rest', hrest', hrel'⟩ := hstrip (hinside' dir' hdir') hsource'
  rw [hroot, hrel, hrel'] at hpath
  have hsame := toPosix_inj ((htext dir hdir source hsource).stripPrefix hrest)
    ((htext' dir' hdir' source' hsource').stripPrefix hrest') hpath
  rw [hsame] at hrest
  exact Path.stripPrefix_inj hrest hrest'

/-- The name of the example crate. -/
def appName : FileName := ⟨"app".toList, by decide, by decide, by decide⟩

/-- The root of the example workspace. -/
def appRoot : FilePath := ⟨true, [.normal ⟨"ws".toList, by decide, by decide, by decide⟩]⟩

/-- A workspace with one member below a root that is no crate. -/
def appMetadata : Metadata where
  workspaceMembers := ["app-id".toList]
  workspaceRoot := appRoot
  packages := [{
    id := "app-id".toList
    name := "app".toList
    manifestPath := (appRoot.join appName).join cargoToml
    dependencies := []
    targets := [] }]

/-- The files of the workspace: the root manifest, and the manifest of the member. -/
def appFs : FileSystem where
  root := .dir [(.utf8 ⟨"ws".toList, by decide, by decide, by decide⟩, .dir [
    (.utf8 cargoToml, .file ⟨some [1], none⟩),
    (.utf8 appName, .dir [(.utf8 cargoToml, .file ⟨some [2], none⟩)])])]
  distinct := by
    refine .dir _ (by decide) (List.forall_mem_singleton.mpr ?_)
    refine .dir _ (by decide) (List.forall_mem_cons.mpr ⟨.file _, ?_⟩)
    refine List.forall_mem_singleton.mpr (.dir _ (by decide) ?_)
    exact List.forall_mem_singleton.mpr (.file _)

/-- The example workspace. -/
def appWorkspace : Workspace where
  root := appRoot
  fs := appFs
  metadata := appMetadata
  package := "app".toList
  isGeneratable := true
  closure := ⟨[appRoot.join appName], []⟩
  closure_eq := rfl
  manifest := by
    intro dir hdir
    rw [show keptDirs appMetadata appRoot [appRoot.join appName] = [] by decide,
      List.mem_singleton] at hdir
    subst hdir
    rfl

/-- A workspace whose root is its only crate. -/
def rootMetadata : Metadata where
  workspaceMembers := ["app-id".toList]
  workspaceRoot := appRoot
  packages := [{
    id := "app-id".toList
    name := "app".toList
    manifestPath := appRoot.join cargoToml
    dependencies := []
    targets := [] }]

/-- The workspace of one crate, with the files of the example. -/
def crateWorkspace : Workspace where
  root := appRoot
  fs := appFs
  metadata := rootMetadata
  package := "app".toList
  isGeneratable := true
  closure := ⟨[appRoot], []⟩
  closure_eq := rfl
  manifest := by
    intro dir hdir
    rw [show keptDirs rootMetadata appRoot [appRoot] = [] by decide, List.mem_singleton] at hdir
    subst hdir
    rfl

/-- The names on the way to the root manifest. -/
def rootManifestNames : List OsName :=
  [.utf8 ⟨"ws".toList, by decide, by decide, by decide⟩, .utf8 cargoToml]

/-- The key input of the crate when its root manifest has one byte. -/
def rootCrateInput (byte : UInt8) : KeyInput :=
  ⟨"app".toList, true, none,
    [("Cargo.toml".toList, [byte]), ("app/Cargo.toml".toList, [2])]⟩

end ModalRust.Describe
