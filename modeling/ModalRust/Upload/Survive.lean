import ModalRust.Scope.Upload
import ModalRust.Upload.Collect

/-!
# The sources of a closure survive the upload filter

The root manifest of an upload lists the crate directories of the closure without
consulting the ignore matcher, which prunes by name. A listed crate is collected with
its manifest and its sources unless a name on the way is one that the built-in patterns
select.
-/

namespace ModalRust.Upload

open Scope (FilePath cargoToml crateName memberList)

/-- `src` can be a file name. -/
theorem isFileName_src : IsFileName "src".toList := ⟨by decide, by decide, by decide⟩

/-- `src`. -/
def srcName : FileName := isFileName_src.name

/-- A crate's manifest, or a Rust file under its `src`. -/
def CrateSource (sub : List FileName) : Prop :=
  sub = [cargoToml] ∨
    ∃ below source, sub = srcName :: below ++ [source] ∧ ".rs".toList <:+ source.text

/-- Every directory below a node can be listed and every file can be read. -/
def Readable (tree : FileTree OsName FileData) : Prop :=
  ∀ below, tree.node below ≠ some .blocked ∧
    ∀ data, tree.node below = some (.file data) → data.contents ≠ none

/-- The names on the way to every file below a node are valid text. -/
def ValidText (tree : FileTree OsName FileData) : Prop :=
  ∀ below data, tree.node below = some (.file data) →
    ∃ sub : List FileName, below = sub.map .utf8

/-- A file that can be read. -/
theorem readable_file {data : FileData} (h : data.contents ≠ none) : Readable (.file data) := by
  intro below
  cases below with
  | nil =>
    refine ⟨fun hblocked => ?_, fun data' hdata => ?_⟩
    · cases hblocked
    · cases hdata
      exact h
  | cons name below =>
    refine ⟨fun hblocked => ?_, fun data' hdata => ?_⟩
    · cases hblocked
    · cases hdata

/-- A directory with readable entries. -/
theorem readable_dir {entries : List (OsName × FileTree OsName FileData)}
    (h : ∀ entry ∈ entries, Readable entry.2) : Readable (.dir entries) := by
  intro below
  cases below with
  | nil =>
    refine ⟨fun h => ?_, fun _ h => ?_⟩
    · cases h
    · cases h
  | cons name below =>
    simp only [FileTree.node]
    cases hlookup : entries.lookup name with
    | none =>
      refine ⟨fun h => ?_, fun _ h => ?_⟩
      · cases h
      · cases h
    | some child => exact h _ (Scope.mem_of_lookup hlookup) below

/-- A file has no names below it. -/
theorem validText_file (data : FileData) : ValidText (.file data) := by
  intro below data' h
  cases below with
  | nil => exact ⟨[], rfl⟩
  | cons name below => cases h

/-- A directory whose entries have valid names. -/
theorem validText_dir {entries : List (OsName × FileTree OsName FileData)}
    (h : ∀ entry ∈ entries, (∃ name, entry.1 = .utf8 name) ∧ ValidText entry.2) :
    ValidText (.dir entries) := by
  intro below data hnode
  cases below with
  | nil => cases hnode
  | cons name below =>
    obtain ⟨child, hlookup, hbelow⟩ := Option.bind_eq_some_iff.mp hnode
    obtain ⟨⟨name', rfl⟩, hvalid⟩ := h _ (Scope.mem_of_lookup hlookup)
    obtain ⟨sub, rfl⟩ := hvalid below data hbelow
    exact ⟨name' :: sub, rfl⟩

/-- What a collected file is: the file on disk at some path that is valid text. -/
def FromDisk (fs : FileSystem) (workspaceRoot : FilePath) (remote : Text) (f : LocalFile) : Prop :=
  ∃ path rel data contents, fs.nodeAt (toOs path) = some (.file data) ∧
    path.stripPrefix workspaceRoot = some rel ∧ data.contents = some contents ∧
    f = ⟨mountPath remote (rel.toPosix FileName.toStr), contents, data.mode⟩

/-- Mount paths below one remote path are different for different relative paths. -/
theorem mountPath_inj {remote a b : Text} (h : mountPath remote a = mountPath remote b) :
    a = b := by
  unfold mountPath at h
  split at h
  · exact (List.cons.inj h).2
  · exact (List.cons.inj (List.append_cancel_left h)).2

/-- Files at one mount path come from one path on disk. -/
theorem FromDisk.data_eq {fs : FileSystem} {workspaceRoot path rel : FilePath} {remote : Text}
    {f : LocalFile} {data : FileData} (hf : FromDisk fs workspaceRoot remote f)
    (hnode : fs.nodeAt (toOs path) = some (.file data))
    (hrel : path.stripPrefix workspaceRoot = some rel)
    (hname : f.mountFilename = mountPath remote (rel.toPosix FileName.toStr)) :
    data.contents = some f.data := by
  obtain ⟨path', rel', data', contents, hnode', hrel', hcontents, rfl⟩ := hf
  obtain rfl : rel' = rel := Path.toPosix_inj (mountPath_inj hname)
  obtain rfl : path' = path := Path.stripPrefix_inj hrel' hrel
  rw [hnode] at hnode'
  cases hnode'
  exact hcontents

/-- Adding a file from disk that can be read. -/
theorem addFile_spec {fs : FileSystem} {workspaceRoot path rel : FilePath} {remote : Text}
    {files : List LocalFile} {data : FileData}
    (hfiles : ∀ f ∈ files, FromDisk fs workspaceRoot remote f)
    (hnode : fs.nodeAt (toOs path) = some (.file data))
    (hrel : path.stripPrefix workspaceRoot = some rel) (hread : data.contents ≠ none) :
    ∃ files', addFile (toOs workspaceRoot) remote files (toOs path) data = .ok files' ∧
      (∀ f ∈ files', FromDisk fs workspaceRoot remote f) ∧ names files ⊆ names files' ∧
      mountPath remote (rel.toPosix FileName.toStr) ∈ names files' := by
  obtain ⟨contents, hcontents⟩ := Option.ne_none_iff_exists'.mp hread
  have hstrip : (toOs path).stripPrefix (toOs workspaceRoot) = some (toOs rel) :=
    Path.stripPrefix_map _ hrel
  simp only [addFile, hstrip, toPosix_toOs]
  by_cases hseen : mountPath remote (rel.toPosix FileName.toStr) ∈ names files
  · rw [if_pos hseen]
    exact ⟨files, rfl, hfiles, List.Subset.refl _, hseen⟩
  · rw [if_neg hseen]
    refine ⟨files ++ [⟨mountPath remote (rel.toPosix FileName.toStr), contents, data.mode⟩],
      by simp [readLocalFile, hcontents, Except.map], ?_, ?_, ?_⟩
    · intro f hf
      rcases List.mem_append.mp hf with hf | hf
      · exact hfiles f hf
      · exact ⟨path, rel, data, contents, hnode, hrel, hcontents, List.mem_singleton.mp hf⟩
    · simp [names]
    · simp [names]

/-- A loop whose steps keep an invariant and the taken paths, and take the paths that an
item covers. -/
theorem foldlM_collect {α : Type} {step : List LocalFile → α → Except CollectError (List LocalFile)}
    {covers : α → List Text} {P : LocalFile → Prop} {items : List α}
    (hstep : ∀ files, (∀ f ∈ files, P f) → ∀ item ∈ items, ∃ files', step files item = .ok files' ∧
      (∀ f ∈ files', P f) ∧ names files ⊆ names files' ∧ covers item ⊆ names files')
    (files : List LocalFile) (hfiles : ∀ f ∈ files, P f) :
    ∃ files', items.foldlM step files = .ok files' ∧ (∀ f ∈ files', P f) ∧
      names files ⊆ names files' ∧ ∀ item ∈ items, covers item ⊆ names files' := by
  induction items generalizing files with
  | nil => exact ⟨files, rfl, hfiles, List.Subset.refl _, by simp⟩
  | cons item items ih =>
    obtain ⟨files₁, hrun₁, hfiles₁, hsub₁, hcover₁⟩ := hstep files hfiles item List.mem_cons_self
    obtain ⟨files₂, hrun₂, hfiles₂, hsub₂, hcover₂⟩ :=
      ih (fun files hfiles item hitem => hstep files hfiles item (List.mem_cons_of_mem _ hitem))
        files₁ hfiles₁
    refine ⟨files₂, ?_, hfiles₂, List.Subset.trans hsub₁ hsub₂, fun item' hitem' => ?_⟩
    · rw [List.foldlM_cons, hrun₁]
      exact hrun₂
    · rcases List.mem_cons.mp hitem' with rfl | hitem'
      · exact List.Subset.trans hcover₁ hsub₂
      · exact hcover₂ item' hitem'

/-- The mount path of a visited file. -/
def visitName (workspaceRoot : FilePath) (remote : Text) : Visit OsName FileData → List Text
  | .error _ => []
  | .file path _ =>
    ((path.stripPrefix (toOs workspaceRoot)).map fun rel =>
      mountPath remote (rel.toPosix OsName.toStr)).toList

/-- What holds of the crate directories of a closure: they are directories below the
workspace root whose files can be read and have names that are text. -/
structure CrateDir (fs : FileSystem) (workspaceRoot dir : FilePath)
    (tree : FileTree OsName FileData) : Prop where
  /-- The directory is below the root. -/
  below : ∃ rel, dir.stripPrefix workspaceRoot = some rel
  /-- Its tree. -/
  node : fs.nodeAt (toOs dir) = some tree
  /-- It is a directory. -/
  isDir : tree.isDir = true
  /-- Everything in it can be read. -/
  readable : Readable tree
  /-- The names in it are text. -/
  valid : ValidText tree

/-- The files of a crate directory are collected. -/
theorem addDir_spec {fs : FileSystem} {workspaceRoot dir : FilePath}
    {patterns : List IgnorePattern} {remote : Text} {files : List LocalFile}
    {tree : FileTree OsName FileData} (hdir : CrateDir fs workspaceRoot dir tree)
    (hfiles : ∀ f ∈ files, FromDisk fs workspaceRoot remote f) :
    ∃ files', addDir fs (toOs workspaceRoot) patterns remote files (toOs dir) = .ok files' ∧
      (∀ f ∈ files', FromDisk fs workspaceRoot remote f) ∧ names files ⊆ names files' ∧
      (tree.walk (keepEntry (toOs workspaceRoot) patterns) (toOs dir)).flatMap
        (visitName workspaceRoot remote) ⊆ names files' := by
  obtain ⟨rel, hrel⟩ := hdir.below
  have hdistinct := distinct_of_nodeAt hdir.node
  have hstep (files : List LocalFile) (hfiles : ∀ f ∈ files, FromDisk fs workspaceRoot remote f)
      (visit : Visit OsName FileData)
      (hvisit : visit ∈ tree.walk (keepEntry (toOs workspaceRoot) patterns) (toOs dir)) :
      ∃ files', addVisit (toOs workspaceRoot) remote files visit = .ok files' ∧
        (∀ f ∈ files', FromDisk fs workspaceRoot remote f) ∧ names files ⊆ names files' ∧
        visitName workspaceRoot remote visit ⊆ names files' := by
    cases visit with
    | error path =>
      obtain ⟨below, hblocked⟩ := FileTree.blocked_of_mem_walk hdistinct hvisit
      exact absurd hblocked (hdir.readable below).1
    | file path data =>
      obtain ⟨below, hnode, rfl, -, -⟩ := (FileTree.mem_walk hdistinct).mp hvisit
      obtain ⟨sub, rfl⟩ := hdir.valid below data hnode
      have hpath : (toOs dir).joinAll (sub.map .utf8) = toOs (dir.joinAll sub) := by
        simp [toOs, Path.map, Path.joinAll, Part.map, Function.comp_def]
      have hnodeAt : fs.nodeAt (toOs (dir.joinAll sub)) = some (.file data) := by
        rw [← hpath, nodeAt_joinAll, hdir.node, Option.bind_some, hnode]
      have hrelSub := Path.stripPrefix_joinAll sub hrel
      have hstrip : (toOs (dir.joinAll sub)).stripPrefix (toOs workspaceRoot) =
        some (toOs (rel.joinAll sub)) := Path.stripPrefix_map _ hrelSub
      obtain ⟨files', hrun, hfiles', hsub, hname⟩ :=
        addFile_spec hfiles hnodeAt hrelSub ((hdir.readable _).2 data hnode)
      refine ⟨files', ?_, hfiles', hsub, ?_⟩
      · rw [hpath]
        exact hrun
      · simpa [visitName, hpath, hstrip, toPosix_toOs] using hname
  obtain ⟨files', hrun, hfiles', hsub, hcover⟩ := foldlM_collect hstep files hfiles
  refine ⟨files', ?_, hfiles', hsub, ?_⟩
  · simp only [addDir, hdir.node, hdir.isDir, if_true]
    exact hrun
  · intro name hname
    obtain ⟨visit, hvisit, hname⟩ := List.mem_flatMap.mp hname
    exact hcover visit hvisit hname

/-- What the crate directories and the extra files yield. -/
theorem collect_spec {fs : FileSystem} {workspaceRoot : FilePath} {dirs extraFiles : List FilePath}
    (patterns : List IgnorePattern) (extraInlineFiles : List (Text × Bytes)) (remotePath : Text)
    (hdirs : ∀ dir ∈ dirs, ∃ tree, CrateDir fs workspaceRoot dir tree)
    (hextra : ∀ path ∈ extraFiles, (∃ rel, path.stripPrefix workspaceRoot = some rel) ∧
      ∀ data, fs.nodeAt (toOs path) = some (.file data) → data.contents ≠ none) :
    ∃ files, collectFilesForDirs fs (toOs workspaceRoot) (dirs.map toOs) (extraFiles.map toOs)
        extraInlineFiles remotePath patterns =
          .ok (appendInlineFiles (normalizeRemotePrefix remotePath) files extraInlineFiles) ∧
      (∀ f ∈ files, FromDisk fs workspaceRoot (normalizeRemotePrefix remotePath) f) ∧
      ∀ dir ∈ dirs, ∀ tree, fs.nodeAt (toOs dir) = some tree →
        (tree.walk (keepEntry (toOs workspaceRoot) patterns) (toOs dir)).flatMap
          (visitName workspaceRoot (normalizeRemotePrefix remotePath)) ⊆ names files := by
  unfold collectFilesForDirs
  dsimp only
  generalize normalizeRemotePrefix remotePath = remote
  have hdirStep (files : List LocalFile) (hfiles : ∀ f ∈ files, FromDisk fs workspaceRoot remote f)
      (dir : OsPath) (hdir : dir ∈ dirs.map toOs) :
      ∃ files', addDir fs (toOs workspaceRoot) patterns remote files dir = .ok files' ∧
        (∀ f ∈ files', FromDisk fs workspaceRoot remote f) ∧ names files ⊆ names files' ∧
        ((fs.nodeAt dir).toList.flatMap fun tree =>
          (tree.walk (keepEntry (toOs workspaceRoot) patterns) dir).flatMap
            (visitName workspaceRoot remote)) ⊆ names files' := by
    obtain ⟨dir, hmem, rfl⟩ := List.mem_map.mp hdir
    obtain ⟨tree, htree⟩ := hdirs dir hmem
    rw [htree.node, Option.toList_some, List.flatMap_singleton]
    exact addDir_spec htree hfiles
  have hextraStep (files : List LocalFile)
      (hfiles : ∀ f ∈ files, FromDisk fs workspaceRoot remote f) (path : OsPath)
      (hpath : path ∈ extraFiles.map toOs) :
      ∃ files', addExtra fs (toOs workspaceRoot) remote files path = .ok files' ∧
        (∀ f ∈ files', FromDisk fs workspaceRoot remote f) ∧ names files ⊆ names files' ∧
        [] ⊆ names files' := by
    obtain ⟨path, hmem, rfl⟩ := List.mem_map.mp hpath
    obtain ⟨⟨rel, hrel⟩, hread⟩ := hextra path hmem
    unfold addExtra
    split
    · rename_i data hnode
      obtain ⟨files', hrun, hfiles', hsub, -⟩ := addFile_spec hfiles hnode hrel (hread data hnode)
      exact ⟨files', hrun, hfiles', hsub, List.nil_subset _⟩
    · exact ⟨files, rfl, hfiles, List.Subset.refl _, List.nil_subset _⟩
  obtain ⟨files₁, hrun₁, hfiles₁, -, hcover⟩ := foldlM_collect hdirStep [] (by simp)
  obtain ⟨files₂, hrun₂, hfiles₂, hsub, -⟩ := foldlM_collect hextraStep files₁ hfiles₁
  refine ⟨files₂, ?_, hfiles₂, fun dir hdir tree htree => ?_⟩
  · simp only [hrun₁, Except.bind, hrun₂, Except.map]
  · have hnames := hcover (toOs dir) (List.mem_map.mpr ⟨dir, hdir, rfl⟩)
    rw [htree, Option.toList_some, List.flatMap_singleton] at hnames
    exact List.Subset.trans hnames hsub

/-- The text of a path below a directory with a name. -/
theorem toPosix_joinAll {rel : FilePath} (hrel : rel.toPosix FileName.toStr ≠ [])
    {sub : List FileName} (hsub : sub ≠ []) :
    (rel.joinAll sub).toPosix FileName.toStr =
      rel.toPosix FileName.toStr ++ '/' :: ['/'].intercalate (sub.map (·.text)) := by
  have happend (a b : List Text) (ha : a ≠ []) (hb : b ≠ []) :
      ['/'].intercalate (a ++ b) = ['/'].intercalate a ++ '/' :: ['/'].intercalate b := by
    induction a with
    | nil => exact absurd rfl ha
    | cons t a ih =>
      by_cases hnil : a = []
      · obtain ⟨u, b, rfl⟩ := List.exists_cons_of_ne_nil hb
        simp [hnil]
      · obtain ⟨u, a, rfl⟩ := List.exists_cons_of_ne_nil hnil
        simpa using ih (by simp)
  have hcomponents : (rel.joinAll sub).components FileName.toStr =
      rel.components FileName.toStr ++ sub.map (·.text) := by
    simp [Path.components_fileName, Path.joinAll, Function.comp_def, Part.text]
  unfold Path.toPosix at hrel ⊢
  rw [hcomponents]
  refine happend _ _ ?_ (by simpa using hsub)
  intro hnil
  rw [hnil] at hrel
  exact hrel rfl

/-- Where no built-in pattern selects a name the walk goes on. -/
theorem keepEntry_default {workspaceRoot dir rel : FilePath}
    (hrel : dir.stripPrefix workspaceRoot = some rel)
    (hclean : ∀ name, .normal name ∈ rel.parts → ¬ IgnoredName (.utf8 name))
    {sub : List FileName} (hsub : ∀ name ∈ sub, ¬ IgnoredName (.utf8 name)) (isDir : Bool) :
    keepEntry (toOs workspaceRoot) defaultMatcher ((toOs dir).joinAll (sub.map .utf8)) isDir =
      true := by
  have hstrip := Path.stripPrefix_joinAll (sub.map .utf8)
    (Path.stripPrefix_map OsName.utf8 hrel)
  unfold keepEntry toOs
  rw [hstrip]
  dsimp only
  rw [Bool.not_eq_true', isIgnored_default]
  intro name hname
  simp only [Path.joinAll, Path.map, List.mem_append, List.mem_map] at hname
  rcases hname with ⟨part, hpart, hmap⟩ | ⟨_, ⟨n, hn, rfl⟩, hmap⟩
  · cases part with
    | parentDir => cases hmap
    | normal n =>
      cases hmap
      exact hclean n hpart
  · cases hmap
    exact hsub n hn

/-- No built-in pattern selects a name on the way from the workspace root to a crate. -/
def CleanDir (workspaceRoot dir : FilePath) : Prop :=
  ∀ rel part, dir.stripPrefix workspaceRoot = some rel → .normal part ∈ rel.parts →
    ¬ IgnoredName (.utf8 part)

/-- A file of a crate is in a mount, with its contents or those of a file made in memory. -/
def InMount (files : List LocalFile) (extraInlineFiles : List (Text × Bytes)) (remote name : Text)
    (sub : List FileName) (contents : Bytes) : Prop :=
  ∃ file ∈ files,
    file.mountFilename = mountPath remote (name ++ '/' :: ['/'].intercalate (sub.map (·.text))) ∧
    (file.data = contents ∨ ∃ inlineFile ∈ extraInlineFiles,
      mountPath remote (inlineFile.1.dropWhile (· = '/')) = file.mountFilename ∧
        file.data = inlineFile.2)

/-- **The listed crates are collected with their manifests and their sources**, unless the
built-in patterns select a name on the way; a file made in memory may replace one. -/
theorem collected_of_listed (parseLines : OsPath → Option (List IgnorePattern)) (fs : FileSystem)
    (workspaceRoot : FilePath) (modalignoreName : OsName) (dirs extraFiles : List FilePath)
    (extraInlineFiles : List (Text × Bytes)) (remotePath : Text)
    (hgitignore : fs.isFile ((toOs workspaceRoot).join (.utf8 gitignoreName)) = false)
    (hmodalignore : fs.isFile ((toOs workspaceRoot).join modalignoreName) = false)
    (hdirs : ∀ dir ∈ dirs, ∃ tree, CrateDir fs workspaceRoot dir tree)
    (hextra : ∀ path ∈ extraFiles, (∃ rel, path.stripPrefix workspaceRoot = some rel) ∧
      ∀ data, fs.nodeAt (toOs path) = some (.file data) → data.contents ≠ none) :
    ∃ patterns files, buildMatcher parseLines fs (toOs workspaceRoot) modalignoreName =
        .ok patterns ∧
      collectFilesForDirs fs (toOs workspaceRoot) (dirs.map toOs) (extraFiles.map toOs)
        extraInlineFiles remotePath patterns = .ok files ∧
      ∀ dir ∈ dirs, ∀ name, crateName workspaceRoot dir = some name →
        name ∈ memberList workspaceRoot dirs → CleanDir workspaceRoot dir →
        ∀ sub data contents, CrateSource sub → (∀ part ∈ sub, ¬ IgnoredName (.utf8 part)) →
          fs.nodeAt ((toOs dir).joinAll (sub.map .utf8)) = some (.file data) →
          data.contents = some contents →
          InMount files extraInlineFiles (normalizeRemotePrefix remotePath) name sub contents := by
  obtain ⟨files, hrun, hfiles, hcover⟩ :=
    collect_spec defaultMatcher extraInlineFiles remotePath hdirs hextra
  refine ⟨defaultMatcher, _, buildMatcher_default parseLines hgitignore hmodalignore, hrun, ?_⟩
  intro dir hdir name hname hlisted hclean sub data contents hsource hsub hnode hcontents
  obtain ⟨rel, hrel, hposix⟩ := Option.map_eq_some_iff.mp hname
  obtain ⟨tree, htree⟩ := hdirs dir hdir
  have hkeep (above : List FileName) (habove : above <+: sub) (isDir : Bool) :=
    keepEntry_default hrel (fun part => hclean rel part hrel)
      (fun part hpart => hsub part (habove.subset hpart)) isDir
  have hvisit : .file ((toOs dir).joinAll (sub.map .utf8)) data ∈
      tree.walk (keepEntry (toOs workspaceRoot) defaultMatcher) (toOs dir) := by
    refine (FileTree.mem_walk (distinct_of_nodeAt htree.node)).mpr
      ⟨sub.map .utf8, ?_, rfl, hkeep sub List.prefix_rfl false, fun above habove _ => ?_⟩
    · rw [nodeAt_joinAll, htree.node, Option.bind_some] at hnode
      exact hnode
    · obtain ⟨rest, hrest⟩ := habove
      obtain ⟨above', below, hsplit, rfl, -⟩ := List.map_eq_append_iff.mp hrest.symm
      exact hkeep above' ⟨below, hsplit.symm⟩ true
  have hpath : (toOs dir).joinAll (sub.map .utf8) = toOs (dir.joinAll sub) := by
    simp [toOs, Path.map, Path.joinAll, Part.map, Function.comp_def]
  have hrelSub := Path.stripPrefix_joinAll sub hrel
  have hstrip : (toOs (dir.joinAll sub)).stripPrefix (toOs workspaceRoot) =
    some (toOs (rel.joinAll sub)) := Path.stripPrefix_map _ hrelSub
  have htaken : mountPath (normalizeRemotePrefix remotePath)
      ((rel.joinAll sub).toPosix FileName.toStr) ∈ names files := by
    refine hcover dir hdir tree htree.node (List.mem_flatMap.mpr ⟨_, hvisit, ?_⟩)
    simp [visitName, hpath, hstrip, toPosix_toOs]
  obtain ⟨f, hf, hfname⟩ := List.mem_map.mp htaken
  have hdata := (hfiles f hf).data_eq (hpath ▸ hnode) hrelSub hfname
  rw [hcontents] at hdata
  obtain ⟨f', hf', hsame, hreplaced⟩ := exists_mem_appendInlineFiles hf
  have hsubne : sub ≠ [] := by
    rcases hsource with rfl | ⟨below, source, rfl, -⟩ <;> simp
  have hne : rel.toPosix FileName.toStr ≠ [] := hposix ▸ (Scope.mem_memberList.mp hlisted).1
  refine ⟨f', hf', ?_, ?_⟩
  · rw [hsame, hfname, toPosix_joinAll hne hsubne, hposix]
  · rcases hreplaced with rfl | ⟨file, hfile, hfilePath, hfileData⟩
    · exact .inl (Option.some.inj hdata).symm
    · exact .inr ⟨file, hfile, hsame ▸ hfilePath, hfileData⟩

/-- `ws` can be a file name. -/
theorem isFileName_ws : IsFileName "ws".toList := ⟨by decide, by decide, by decide⟩

/-- The workspace directory of the examples. -/
def nameWs : FileName := isFileName_ws.name

/-- `a` can be a file name. -/
theorem isFileName_a : IsFileName "a".toList := ⟨by decide, by decide, by decide⟩

/-- A crate directory. -/
def nameA : FileName := isFileName_a.name

/-- A directory of tests. -/
def nameTests : FileName := ⟨"tests".toList, by decide, by decide, by decide⟩

/-- `lib.rs` can be a file name. -/
theorem isFileName_lib_rs : IsFileName "lib.rs".toList := ⟨by decide, by decide, by decide⟩

/-- The root source of a library. -/
def nameLib : FileName := isFileName_lib_rs.name

/-- `.modalignore`. -/
def nameModalignore : FileName := ⟨".modalignore".toList, by decide, by decide, by decide⟩

/-- A name that is not valid text. -/
def nameRaw : RawName := ⟨[.inr 255], ⟨255, List.mem_cons_self⟩⟩

/-- The workspace root of the examples. -/
def wsDir : FilePath := ⟨true, [.normal nameWs]⟩

/-- A file of the examples. -/
def exampleFile (contents : Bytes) : FileTree OsName FileData := .file ⟨some contents, some 0o644⟩

/-- A crate of the examples: its manifest, and a library with a directory of tests. -/
def exampleCrate : FileTree OsName FileData :=
  .dir [(.utf8 cargoToml, exampleFile [1]),
    (.utf8 srcName, .dir [(.utf8 nameLib, exampleFile [2]),
      (.utf8 nameTests, .dir [(.utf8 nameLib, exampleFile [3])])])]

/-- A crate with a second manifest in a directory whose name is not text. -/
def rawCrate : FileTree OsName FileData :=
  .dir [(.raw nameRaw, .dir [(.utf8 cargoToml, exampleFile [4])]),
    (.utf8 cargoToml, exampleFile [1])]

/-- A workspace with the crates `a` and `tests/a`. -/
def exampleTree (crate : FileTree OsName FileData) : FileTree OsName FileData :=
  .dir [(.utf8 nameWs, .dir [(.utf8 nameA, crate),
    (.utf8 nameTests, .dir [(.utf8 nameA, exampleCrate)])])]

/-- The example crate has distinct names. -/
theorem exampleCrate_distinct : exampleCrate.Distinct := by
  have htests : (FileTree.dir [(.utf8 nameLib, exampleFile [3])]).Distinct :=
    .dir _ (by decide) (List.forall_mem_singleton.mpr (.file _))
  have hsrc := FileTree.Distinct.dir
    [(OsName.utf8 nameLib, exampleFile [2]),
      (.utf8 nameTests, .dir [(.utf8 nameLib, exampleFile [3])])]
    (by decide) (List.forall_mem_cons.mpr ⟨.file _, List.forall_mem_singleton.mpr htests⟩)
  exact .dir _ (by decide)
    (List.forall_mem_cons.mpr ⟨.file _, List.forall_mem_singleton.mpr hsrc⟩)

/-- The crate with a name that is not text has distinct names. -/
theorem rawCrate_distinct : rawCrate.Distinct := by
  have hraw : (FileTree.dir [(.utf8 cargoToml, exampleFile [4])]).Distinct :=
    .dir _ (by decide) (List.forall_mem_singleton.mpr (.file _))
  exact .dir _ (by decide)
    (List.forall_mem_cons.mpr ⟨hraw, List.forall_mem_singleton.mpr (.file _)⟩)

/-- The example workspace has distinct names. -/
theorem exampleTree_distinct {crate : FileTree OsName FileData} (hcrate : crate.Distinct) :
    (exampleTree crate).Distinct := by
  have htests : (FileTree.dir [(.utf8 nameA, exampleCrate)]).Distinct :=
    .dir _ (by decide) (List.forall_mem_singleton.mpr exampleCrate_distinct)
  have hnodup : [OsName.utf8 nameA, .utf8 nameTests].Nodup := by decide
  have hws := FileTree.Distinct.dir
    [(OsName.utf8 nameA, crate), (.utf8 nameTests, .dir [(.utf8 nameA, exampleCrate)])]
    hnodup (List.forall_mem_cons.mpr ⟨hcrate, List.forall_mem_singleton.mpr htests⟩)
  exact .dir _ (List.nodup_singleton _) (List.forall_mem_singleton.mpr hws)

/-- The file system of the examples. -/
def exampleFs : FileSystem := ⟨exampleTree exampleCrate, exampleTree_distinct exampleCrate_distinct⟩

/-- The file system with a name that is not text. -/
def rawFs : FileSystem := ⟨exampleTree rawCrate, exampleTree_distinct rawCrate_distinct⟩

/-- The tree of the example crate satisfies the assumptions about crate directories. -/
theorem crateDir_example : CrateDir exampleFs wsDir (wsDir.join nameA) exampleCrate where
  below := ⟨⟨false, [.normal nameA]⟩, rfl⟩
  node := rfl
  isDir := rfl
  readable := by
    have hfile (contents : Bytes) : Readable (exampleFile contents) := readable_file nofun
    refine readable_dir (List.forall_mem_cons.mpr ⟨hfile _, List.forall_mem_singleton.mpr ?_⟩)
    refine readable_dir (List.forall_mem_cons.mpr ⟨hfile _, List.forall_mem_singleton.mpr ?_⟩)
    exact readable_dir (List.forall_mem_singleton.mpr (hfile _))
  valid := by
    have hfile (contents : Bytes) : ValidText (exampleFile contents) := validText_file _
    refine validText_dir (List.forall_mem_cons.mpr
      ⟨⟨⟨_, rfl⟩, hfile _⟩, List.forall_mem_singleton.mpr ⟨⟨_, rfl⟩, ?_⟩⟩)
    refine validText_dir (List.forall_mem_cons.mpr
      ⟨⟨⟨_, rfl⟩, hfile _⟩, List.forall_mem_singleton.mpr ⟨⟨_, rfl⟩, ?_⟩⟩)
    exact validText_dir (List.forall_mem_singleton.mpr ⟨⟨_, rfl⟩, hfile _⟩)

/-- The example crate is collected. -/
theorem collected_of_listed_example :
    ∃ patterns files, buildMatcher (fun _ => none) exampleFs (toOs wsDir) (.utf8 nameModalignore) =
        .ok patterns ∧
      collectFilesForDirs exampleFs (toOs wsDir) ([wsDir.join nameA].map toOs) ([].map toOs) []
        "/src".toList patterns = .ok files ∧
      ∀ dir ∈ [wsDir.join nameA], ∀ name, crateName wsDir dir = some name →
        name ∈ memberList wsDir [wsDir.join nameA] → CleanDir wsDir dir →
        ∀ sub data contents, CrateSource sub → (∀ part ∈ sub, ¬ IgnoredName (.utf8 part)) →
          exampleFs.nodeAt ((toOs dir).joinAll (sub.map .utf8)) = some (.file data) →
          data.contents = some contents →
          InMount files [] (normalizeRemotePrefix "/src".toList) name sub contents :=
  collected_of_listed (fun _ => none) exampleFs wsDir (.utf8 nameModalignore) [wsDir.join nameA] []
    [] "/src".toList rfl rfl (List.forall_mem_singleton.mpr ⟨_, crateDir_example⟩) nofun

/-- A listed crate of which nothing is collected, a source that is left out, and a
manifest that is replaced by another. -/
theorem listed_crate_not_collected :
    buildMatcher (fun _ => none) exampleFs (toOs wsDir) (.utf8 nameModalignore) =
      .ok defaultMatcher ∧
    ("tests/a".toList ∈ memberList wsDir [(wsDir.join nameTests).join nameA] ∧
      collectFilesForDirs exampleFs (toOs wsDir) [toOs ((wsDir.join nameTests).join nameA)] [] []
        "/src".toList defaultMatcher = .ok []) ∧
    (collectFilesForDirs exampleFs (toOs wsDir) [toOs (wsDir.join nameA)] [] [] "/src".toList
        defaultMatcher =
      .ok [⟨"/src/a/Cargo.toml".toList, [1], some 0o644⟩,
        ⟨"/src/a/src/lib.rs".toList, [2], some 0o644⟩] ∧
      exampleFs.nodeAt ((toOs (wsDir.join nameA)).joinAll
        [.utf8 srcName, .utf8 nameTests, .utf8 nameLib]) = some (exampleFile [3])) ∧
    (collectFilesForDirs rawFs (toOs wsDir) [toOs (wsDir.join nameA)] [] [] "/src".toList
        defaultMatcher = .ok [⟨"/src/a/Cargo.toml".toList, [4], some 0o644⟩] ∧
      rawFs.nodeAt ((toOs (wsDir.join nameA)).joinAll [.utf8 cargoToml]) =
        some (exampleFile [1])) := by
  refine ⟨?_, ⟨?_, ?_⟩, ⟨?_, ?_⟩, ?_, ?_⟩
  · rfl
  · decide
  · rfl
  · rfl
  · rfl
  · rfl
  · rfl

end ModalRust.Upload
