import ModalRust.Upload.Ignore

/-!
# Collecting the files of an upload

The crate directories of a closure are walked, pruned by the ignore matcher, and each
file is placed at its path relative to the workspace root below the remote path. Extra
files from disk and files made in memory are added without consulting the matcher; the
latter replace what is at their path.
-/

namespace ModalRust.Upload

/-- The data of a file on disk. -/
structure FileData where
  /-- The contents, if they can be read. -/
  contents : Option Bytes
  /-- The permission bits. -/
  mode : Option ℕ
  deriving DecidableEq

/-- A local file system. -/
structure FileSystem where
  /-- The tree below the root. -/
  root : FileTree OsName FileData
  /-- The names in each directory are distinct. -/
  distinct : root.Distinct

/-- The node at an absolute path. -/
def FileSystem.nodeAt (fs : FileSystem) (p : OsPath) : Option (FileTree OsName FileData) :=
  if p.absolute then p.names.bind fs.root.node else none

/-- `is_file`. -/
def FileSystem.isFile (fs : FileSystem) (p : OsPath) : Bool := (fs.nodeAt p).any FileTree.isFile

/-- A file selected for upload. -/
structure LocalFile where
  /-- The path in the mount. -/
  mountFilename : Text
  /-- The contents. -/
  data : Bytes
  /-- The permission bits. -/
  mode : Option ℕ
  deriving DecidableEq

/-- Why collecting fails. -/
inductive CollectError
  /-- A crate directory is not a directory. -/
  | notDirectory (dir : OsPath)
  /-- A directory could not be listed. -/
  | walking (path : OsPath)
  /-- A file is not below the workspace root. -/
  | outside (path : OsPath)
  /-- A file could not be read. -/
  | reading (path : OsPath)
  /-- An ignore file could not be parsed. -/
  | ignoreFile (path : OsPath)
  deriving DecidableEq

/-- `.gitignore`. -/
def gitignoreName : FileName := ⟨".gitignore".toList, by decide, by decide, by decide⟩

/-- The lines of an ignore file come after the lines before it; a missing file has none.
How lines are parsed is a parameter. -/
def addIgnoreFile (parseLines : OsPath → Option (List IgnorePattern)) (fs : FileSystem)
    (patterns : List IgnorePattern) (path : OsPath) : Except CollectError (List IgnorePattern) :=
  if fs.isFile path then
    match parseLines path with
    | some lines => .ok (patterns ++ lines)
    | none => .error (.ignoreFile path)
  else .ok patterns

/-- `build_matcher`: the built-in patterns first, so the ignore files win over them. -/
def buildMatcher (parseLines : OsPath → Option (List IgnorePattern)) (fs : FileSystem)
    (workspaceRoot : OsPath) (modalignoreName : OsName) :
    Except CollectError (List IgnorePattern) :=
  [.utf8 gitignoreName, modalignoreName].foldlM
    (fun patterns name => addIgnoreFile parseLines fs patterns (workspaceRoot.join name))
    defaultMatcher

/-- `normalize_remote_prefix`. -/
def normalizeRemotePrefix (remotePath : Text) : Text := remotePath.rdropWhile (· = '/')

/-- `mount_path`. -/
def mountPath (remote relPosix : Text) : Text :=
  if remote = [] then '/' :: relPosix else remote ++ '/' :: relPosix

/-- The paths in a mount that are taken. -/
def names (files : List LocalFile) : List Text := files.map (·.mountFilename)

/-- `read_local_file`. -/
def readLocalFile (path : OsPath) (data : FileData) (mountFilename : Text) :
    Except CollectError LocalFile :=
  match data.contents with
  | some contents => .ok ⟨mountFilename, contents, data.mode⟩
  | none => .error (.reading path)

/-- A file from disk is added unless its path in the mount was seen. The first file with
a path is kept. -/
def addFile (workspaceRoot : OsPath) (remote : Text) (files : List LocalFile) (path : OsPath)
    (data : FileData) : Except CollectError (List LocalFile) :=
  match path.stripPrefix workspaceRoot with
  | none => .error (.outside path)
  | some rel =>
    let mountFilename := mountPath remote (rel.toPosix OsName.toStr)
    if mountFilename ∈ names files then .ok files
    else (readLocalFile path data mountFilename).map fun file => files ++ [file]

/-- One step of a walk. -/
def addVisit (workspaceRoot : OsPath) (remote : Text) (files : List LocalFile) :
    Visit OsName FileData → Except CollectError (List LocalFile)
  | .error path => .error (.walking path)
  | .file path data => addFile workspaceRoot remote files path data

/-- The filter of a walk: what is outside of the workspace root is kept. -/
def keepEntry (workspaceRoot : OsPath) (patterns : List IgnorePattern) (path : OsPath)
    (isDir : Bool) : Bool :=
  match path.stripPrefix workspaceRoot with
  | some rel => !isIgnored patterns rel isDir
  | none => true

/-- The files of one crate directory. -/
def addDir (fs : FileSystem) (workspaceRoot : OsPath) (patterns : List IgnorePattern)
    (remote : Text) (files : List LocalFile) (dir : OsPath) :
    Except CollectError (List LocalFile) :=
  match fs.nodeAt dir with
  | none => .error (.notDirectory dir)
  | some tree =>
    if tree.isDir then
      (tree.walk (keepEntry workspaceRoot patterns) dir).foldlM (addVisit workspaceRoot remote)
        files
    else .error (.notDirectory dir)

/-- An extra file; one that is not there is skipped. -/
def addExtra (fs : FileSystem) (workspaceRoot : OsPath) (remote : Text) (files : List LocalFile)
    (path : OsPath) : Except CollectError (List LocalFile) :=
  match fs.nodeAt path with
  | some (.file data) => addFile workspaceRoot remote files path data
  | _ => .ok files

/-- A file made in memory replaces what is at its path. -/
def appendInlineFile (remote : Text) (files : List LocalFile) (file : Text × Bytes) :
    List LocalFile :=
  let mountFilename := mountPath remote (file.1.dropWhile (· = '/'))
  files.filter (fun f => f.mountFilename ≠ mountFilename) ++ [⟨mountFilename, file.2, some 0o644⟩]

/-- `append_inline_files`. -/
def appendInlineFiles (remote : Text) (files : List LocalFile)
    (extraInlineFiles : List (Text × Bytes)) : List LocalFile :=
  extraInlineFiles.foldl (appendInlineFile remote) files

/-- `collect_files_for_dirs`. -/
def collectFilesForDirs (fs : FileSystem) (workspaceRoot : OsPath)
    (crateDirs extraFiles : List OsPath) (extraInlineFiles : List (Text × Bytes))
    (remotePath : Text) (patterns : List IgnorePattern) : Except CollectError (List LocalFile) :=
  let remote := normalizeRemotePrefix remotePath
  ((crateDirs.foldlM (addDir fs workspaceRoot patterns remote) []).bind fun files =>
    extraFiles.foldlM (addExtra fs workspaceRoot remote) files).map fun files =>
      appendInlineFiles remote files extraInlineFiles

/-- A path that is valid text is joined as text. -/
theorem toPosix_toOs (p : Path FileName) :
    (toOs p).toPosix OsName.toStr = p.toPosix FileName.toStr := by
  simp only [Path.toPosix, Path.components, toOs, Path.map]
  congr 2
  rw [List.filterMap_map]
  refine List.filterMap_congr fun part _ => ?_
  cases part <;> rfl

/-- The nodes below a directory. -/
theorem nodeAt_joinAll (fs : FileSystem) (p : OsPath) (below : List OsName) :
    fs.nodeAt (p.joinAll below) = (fs.nodeAt p).bind fun tree => tree.node below := by
  have habs : (p.joinAll below).absolute = p.absolute := rfl
  unfold FileSystem.nodeAt
  rw [habs, Path.names_joinAll]
  split
  · cases p.names with
    | none => rfl
    | some names => simp [FileTree.node_append]
  · rfl

/-- The trees of a file system have distinct names. -/
theorem distinct_of_nodeAt {fs : FileSystem} {p : OsPath} {tree : FileTree OsName FileData}
    (h : fs.nodeAt p = some tree) : tree.Distinct := by
  unfold FileSystem.nodeAt at h
  split at h
  · obtain ⟨names, -, hnode⟩ := Option.bind_eq_some_iff.mp h
    exact fs.distinct.node hnode
  · cases h

/-- Without ignore files the matcher is the built-in one. -/
theorem buildMatcher_default (parseLines : OsPath → Option (List IgnorePattern)) {fs : FileSystem}
    {workspaceRoot : OsPath} {modalignoreName : OsName}
    (hgitignore : fs.isFile (workspaceRoot.join (.utf8 gitignoreName)) = false)
    (hmodalignore : fs.isFile (workspaceRoot.join modalignoreName) = false) :
    buildMatcher parseLines fs workspaceRoot modalignoreName = .ok defaultMatcher := by
  simp only [buildMatcher, addIgnoreFile, List.foldlM_cons, List.foldlM_nil, hgitignore,
    hmodalignore, Bool.false_eq_true, if_false]
  rfl

/-- Files made in memory are at their paths, and the other files are kept. -/
theorem mem_appendInlineFile {remote : Text} {files : List LocalFile} {file : Text × Bytes}
    {f : LocalFile} :
    f ∈ appendInlineFile remote files file ↔
      (f ∈ files ∧ f.mountFilename ≠ mountPath remote (file.1.dropWhile (· = '/'))) ∨
        f = ⟨mountPath remote (file.1.dropWhile (· = '/')), file.2, some 0o644⟩ := by
  simp [appendInlineFile]

/-- A file stays unless a file made in memory takes its path. -/
theorem exists_mem_appendInlineFiles {remote : Text} {extraInlineFiles : List (Text × Bytes)}
    {files : List LocalFile} {f : LocalFile} (hf : f ∈ files) :
    ∃ f' ∈ appendInlineFiles remote files extraInlineFiles, f'.mountFilename = f.mountFilename ∧
      (f' = f ∨ ∃ file ∈ extraInlineFiles,
        mountPath remote (file.1.dropWhile (· = '/')) = f.mountFilename ∧ f'.data = file.2) := by
  induction extraInlineFiles generalizing files f with
  | nil => exact ⟨f, hf, rfl, .inl rfl⟩
  | cons file rest ih =>
    by_cases hpath : f.mountFilename = mountPath remote (file.1.dropWhile (· = '/'))
    · have hnew : (⟨f.mountFilename, file.2, some 0o644⟩ : LocalFile) ∈
          appendInlineFile remote files file := mem_appendInlineFile.mpr (.inr (by rw [hpath]))
      obtain ⟨f', hf', hname, hdata⟩ := ih hnew
      refine ⟨f', hf', hname, .inr ?_⟩
      rcases hdata with rfl | ⟨file', hfile', hpath', hdata⟩
      · exact ⟨file, List.mem_cons_self, hpath.symm, rfl⟩
      · exact ⟨file', List.mem_cons_of_mem _ hfile', hpath', hdata⟩
    · have hold : f ∈ appendInlineFile remote files file :=
        mem_appendInlineFile.mpr (.inl ⟨hf, hpath⟩)
      obtain ⟨f', hf', hname, hdata⟩ := ih hold
      refine ⟨f', hf', hname, hdata.imp_right ?_⟩
      rintro ⟨file', hfile', hpath', hdata⟩
      exact ⟨file', List.mem_cons_of_mem _ hfile', hpath', hdata⟩

end ModalRust.Upload
