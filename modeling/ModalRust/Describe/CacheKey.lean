import Mathlib.Data.List.Lex
import ModalRust.FileTreeEdit
import ModalRust.PrefixCode
import ModalRust.Scope.Upload
import ModalRust.StableSort
import ModalRust.Upload.Collect

/-!
# The key of the describe cache

What `key` hashes: a version, the package and the kind of its runner, the lock file, and
the Rust files and manifests of the closure crates with their paths, sorted. The stream is
framed, so it determines all of these; and since the files of one crate have different
paths, it does not depend on the order in which directories are listed.
-/

namespace ModalRust.Describe

open Scope (FilePath Metadata closureFromMetadata textKey cargoToml cargoLock)
open Upload (OsName OsPath FileData FileSystem toOs)

/-- `DESCRIBE_CACHE_VERSION`. -/
def describeCacheVersion : ℕ := 1

/-- `update_field`. -/
def updateField (bytes : Bytes) : Bytes := lengthPrefixed bytes

/-- What `key` hashes. -/
structure KeyInput where
  /-- The package name. -/
  package : Text
  /-- Whether the runner is generated. -/
  isGeneratable : Bool
  /-- The lock file, if it can be read. -/
  lock : Option Bytes
  /-- The files of the closure with their paths, sorted by path. -/
  files : List (Text × Bytes)
  deriving DecidableEq

/-- One file of the closure in the stream. -/
def updateFile (file : Text × Bytes) : Bytes := updateField (toUtf8 file.1) ++ updateField file.2

/-- The lock file in the stream, after a byte that says whether it is there. -/
def updateLock (lock : Option Bytes) : Bytes := lock.elim [0] fun bytes => 1 :: updateField bytes

/-- The bytes that are hashed. -/
def KeyInput.stream (input : KeyInput) : Bytes :=
  littleEndian 4 describeCacheVersion ++ (updateField (toUtf8 input.package) ++
    ((if input.isGeneratable then [1] else [0]) ++ (updateLock input.lock ++
      counted updateFile input.files)))

/-- What a program can hold: the lengths are 64-bit numbers. -/
structure KeyInput.Fits (input : KeyInput) : Prop where
  /-- The package name. -/
  package : (toUtf8 input.package).length < 2 ^ 64
  /-- The lock file. -/
  lock : ∀ bytes ∈ input.lock, bytes.length < 2 ^ 64
  /-- The list of files. -/
  files : input.files.length < 2 ^ 64
  /-- Each path and each file. -/
  file : ∀ file ∈ input.files, (toUtf8 file.1).length < 2 ^ 64 ∧ file.2.length < 2 ^ 64

/-- `is_cache_input`: a manifest or a Rust file. -/
def isCacheInput (name : OsName) : Bool :=
  name = .utf8 cargoToml || (".rs".toList.map .inl).isSuffixOf name.units

/-- The directories that a walk skips. -/
def isPruned (name : OsName) : Bool :=
  name.units = "target".toList.map .inl || name.units = ".git".toList.map .inl

/-- The filter of `walk_dir` below a directory, which itself is never skipped. -/
def keepEntry (dir path : OsPath) (isDir : Bool) : Bool :=
  if isDir then path = dir || !path.fileName.any isPruned else path.fileName.any isCacheInput

/-- A step of a walk, which fails at a directory that cannot be listed. -/
def visitFile : Visit OsName FileData → Option (OsPath × FileData)
  | .file path data => some (path, data)
  | .error _ => none

/-- `walk_dir`. -/
def walkDir (fs : FileSystem) (dir : OsPath) : Option (List (OsPath × FileData)) :=
  match fs.nodeAt dir with
  | some tree => if tree.isDir then (tree.walk (keepEntry dir) dir).mapM visitFile else none
  | none => none

/-- The directory that paths are relative to: the workspace root, or the directory itself if
it is outside of it. -/
def keyRoot (workspaceRoot dir : OsPath) : OsPath :=
  if (dir.stripPrefix workspaceRoot).isSome then workspaceRoot else dir

/-- The path of a file in the stream. -/
def relPath (workspaceRoot dir path : OsPath) : Text :=
  ((path.stripPrefix (keyRoot workspaceRoot dir)).getD path).toPosix OsName.toStr

/-- The files of one closure directory with their paths in the stream. -/
def closureFiles (fs : FileSystem) (workspaceRoot dir : OsPath) : Option (List (Text × FileData)) :=
  (walkDir fs dir).map fun files => files.map fun file =>
    (relPath workspaceRoot dir file.1, file.2)

/-- `collect_closure_files`. -/
def collectClosureFiles (fs : FileSystem) (workspaceRoot : OsPath) (dirs : List OsPath) :
    Option (List (Text × FileData)) :=
  (dirs.mapM (closureFiles fs workspaceRoot)).map List.flatten

/-- `std::fs::read`. -/
def readFile (file : Text × FileData) : Option (Text × Bytes) :=
  file.2.contents.map fun contents => (file.1, contents)

/-- The contents of the file at a path. -/
def contentsAt (fs : FileSystem) (p : OsPath) : Option Bytes :=
  match fs.nodeAt p with
  | some (.file data) => data.contents
  | _ => none

/-- The lock file of the workspace. -/
def readLock (fs : FileSystem) (workspaceRoot : OsPath) : Option Bytes :=
  contentsAt fs (workspaceRoot.join (.utf8 cargoLock))

/-- `describe_cache_inputs`: the directories of the closure that cargo reports. -/
def describeCacheInputs (metadata : Option Metadata) (fs : FileSystem) (workspaceRoot : OsPath)
    (package : Text) : Option (List OsPath) :=
  if fs.isFile (workspaceRoot.join (.utf8 cargoToml)) then
    metadata.bind fun m => (closureFromMetadata m package).map fun closure => closure.dirs.map toOs
  else none

/-- What `key` hashes for the directories of a closure. -/
def keyInput (fs : FileSystem) (workspaceRoot : OsPath) (package : Text) (isGeneratable : Bool)
    (dirs : List OsPath) : Option KeyInput :=
  (collectClosureFiles fs workspaceRoot dirs).bind fun files =>
    ((sortByKey (fun file => textKey file.1) files).mapM readFile).map fun files =>
      { package := package
        isGeneratable := isGeneratable
        lock := readLock fs workspaceRoot
        files := files }

/-- `key` before hashing. -/
def key (metadata : Option Metadata) (fs : FileSystem) (workspaceRoot : OsPath) (package : Text)
    (isGeneratable : Bool) : Option Bytes :=
  (describeCacheInputs metadata fs workspaceRoot package).bind fun dirs =>
    (keyInput fs workspaceRoot package isGeneratable dirs).map KeyInput.stream

/-- What `key` hashes for what cargo reports and what is on disk. -/
def hashed (metadata : Option Metadata) (fs : FileSystem) (workspaceRoot : OsPath)
    (package : Text) (isGeneratable : Bool) : Option KeyInput :=
  (describeCacheInputs metadata fs workspaceRoot package).bind
    (keyInput fs workspaceRoot package isGeneratable)

/-- The key is the stream of what is hashed. -/
theorem key_eq_hashed (metadata : Option Metadata) (fs : FileSystem) (workspaceRoot : OsPath)
    (package : Text) (isGeneratable : Bool) :
    key metadata fs workspaceRoot package isGeneratable =
      (hashed metadata fs workspaceRoot package isGeneratable).map KeyInput.stream :=
  (Option.map_bind ..).symm

/-- What the parts of the input are. -/
theorem fields_of_hashed {metadata : Option Metadata} {fs : FileSystem} {workspaceRoot : OsPath}
    {package : Text} {isGeneratable : Bool} {input : KeyInput}
    (h : hashed metadata fs workspaceRoot package isGeneratable = some input) :
    input.package = package ∧ input.isGeneratable = isGeneratable ∧
      input.lock = readLock fs workspaceRoot := by
  obtain ⟨dirs, -, hinput⟩ := Option.bind_eq_some_iff.mp h
  obtain ⟨files, -, hread⟩ := Option.bind_eq_some_iff.mp hinput
  obtain ⟨read, -, rfl⟩ := Option.map_eq_some_iff.mp hread
  exact ⟨rfl, rfl, rfl⟩

/-- Texts are determined by their bytes. -/
theorem toUtf8_injective : Function.Injective toUtf8 := by
  intro t u h
  have hdecode := fromUtf8_toUtf8 t
  rw [h, fromUtf8_toUtf8] at hdecode
  exact (Option.some.inj hdecode).symm

/-- Text fields. -/
theorem prefixCode_text :
    PrefixCode (fun t : Text => (toUtf8 t).length < 2 ^ 64) fun t => updateField (toUtf8 t) :=
  PrefixCode.lengthPrefixed.comap toUtf8_injective

/-- The byte for a flag. -/
theorem prefixCode_flag : PrefixCode (fun _ : Bool => True) fun flag => if flag then [1] else [0] :=
  have hlength : ∀ flag : Bool, (if flag then [1] else [0] : Bytes).length = 1 := by decide
  PrefixCode.of_length hlength (by decide)

/-- Files. -/
theorem prefixCode_file :
    PrefixCode (fun file : Text × Bytes =>
      (toUtf8 file.1).length < 2 ^ 64 ∧ file.2.length < 2 ^ 64) updateFile :=
  prefixCode_text.pair PrefixCode.lengthPrefixed

/-- **The stream determines what is hashed.** -/
theorem KeyInput.stream_inj {a b : KeyInput} (ha : a.Fits) (hb : b.Fits)
    (h : a.stream = b.stream) : a = b := by
  have hcode := prefixCode_text.pair (prefixCode_flag.pair
    (PrefixCode.lengthPrefixed.option.pair prefixCode_file.counted))
  have hparts := hcode.inj (a := (a.package, a.isGeneratable, a.lock, a.files))
    (b := (b.package, b.isGeneratable, b.lock, b.files))
    ⟨ha.package, trivial, ha.lock, ha.files, ha.file⟩
    ⟨hb.package, trivial, hb.lock, hb.files, hb.file⟩ (List.append_cancel_left h)
  obtain ⟨apackage, aflag, alock, afiles⟩ := a
  obtain ⟨bpackage, bflag, block, bfiles⟩ := b
  simpa using hparts

/-- The names on a path are valid text. -/
def IsText (p : OsPath) : Prop := ∀ raw, .normal (.raw raw) ∉ p.parts

/-- The files of the directories have paths that are valid text. -/
def TextNames (fs : FileSystem) (dirs : List OsPath) : Prop :=
  ∀ dir ∈ dirs, ∀ files, walkDir fs dir = some files → ∀ file ∈ files, IsText file.1

/-- A path of valid text. -/
theorem IsText.exists_toOs {p : OsPath} (hp : IsText p) : ∃ q : FilePath, p = toOs q := by
  obtain ⟨absolute, parts⟩ := p
  have hparts : ∃ qs : List (Part FileName), parts = qs.map (Part.map .utf8) := by
    induction parts with
    | nil => exact ⟨[], rfl⟩
    | cons part parts ih =>
      obtain ⟨qs, hqs⟩ := ih fun raw hraw => hp raw (List.mem_cons_of_mem _ hraw)
      match part with
      | .parentDir => exact ⟨.parentDir :: qs, by rw [hqs]; rfl⟩
      | .normal (.utf8 name) => exact ⟨.normal name :: qs, by rw [hqs]; rfl⟩
      | .normal (.raw raw) => exact absurd List.mem_cons_self (hp raw)
  obtain ⟨qs, hqs⟩ := hparts
  exact ⟨⟨absolute, qs⟩, by rw [hqs]; rfl⟩

/-- Paths of valid text have different texts. -/
theorem toPosix_inj {p q : OsPath} (hp : IsText p) (hq : IsText q)
    (h : p.toPosix OsName.toStr = q.toPosix OsName.toStr) : p = q := by
  obtain ⟨p, rfl⟩ := hp.exists_toOs
  obtain ⟨q, rfl⟩ := hq.exists_toOs
  rw [Upload.toPosix_toOs, Upload.toPosix_toOs] at h
  rw [Path.toPosix_inj h]

/-- What is left of a path of valid text. -/
theorem IsText.stripPrefix {p base rest : OsPath} (hp : IsText p)
    (hrest : p.stripPrefix base = some rest) : IsText rest := by
  intro raw hraw
  refine hp raw ?_
  by_cases hbase : base = .empty
  · have hparts : rest.parts = p.parts := by
      rw [hbase] at hrest
      unfold Path.stripPrefix at hrest
      split at hrest
      · simp only [Path.empty, List.isPrefixOf?, Option.map_some, Option.some.injEq] at hrest
        rw [← hrest]
      · simp only [if_true, Option.some.injEq] at hrest
        rw [hrest]
    rw [← hparts]
    exact hraw
  · rw [((Path.stripPrefix_eq_some hbase).mp hrest).2]
    exact List.mem_append_right _ hraw

/-- A path is below itself. -/
theorem stripPrefix_self (p : OsPath) : p.stripPrefix p = some .empty := by
  unfold Path.stripPrefix
  have hself : p.parts.isPrefixOf? p.parts = some [] :=
    List.isPrefixOf?_eq_some_iff_append_eq.mpr (List.append_nil _)
  rw [if_pos rfl, hself]
  rfl

/-- A closure directory is below the directory that its paths are relative to. -/
theorem exists_stripPrefix_keyRoot (workspaceRoot dir : OsPath) :
    ∃ rest, dir.stripPrefix (keyRoot workspaceRoot dir) = some rest := by
  unfold keyRoot
  split
  · rename_i hinside
    exact Option.isSome_iff_exists.mp hinside
  · exact ⟨_, stripPrefix_self dir⟩

/-- The files of one closure directory have different paths in the stream. -/
theorem relPath_inj {workspaceRoot dir p q : OsPath} {ps qs : List OsName}
    (hp : p = dir.joinAll ps) (hq : q = dir.joinAll qs) (hptext : IsText p) (hqtext : IsText q)
    (h : relPath workspaceRoot dir p = relPath workspaceRoot dir q) : p = q := by
  obtain ⟨rest, hrest⟩ := exists_stripPrefix_keyRoot workspaceRoot dir
  have hprest := Path.stripPrefix_joinAll ps hrest
  have hqrest := Path.stripPrefix_joinAll qs hrest
  rw [← hp] at hprest
  rw [← hq] at hqrest
  unfold relPath at h
  rw [hprest, hqrest, Option.getD_some, Option.getD_some] at h
  have hsame := toPosix_inj (hptext.stripPrefix hprest) (hqtext.stripPrefix hqrest) h
  rw [hsame] at hprest
  exact Path.stripPrefix_inj hprest hqrest

/-- The same nodes in file systems with the same files. -/
theorem nodeAt_sameFiles {fs fs' : FileSystem} (h : fs.root.SameFiles fs'.root) (p : OsPath) :
    (fs.nodeAt p = none ∧ fs'.nodeAt p = none) ∨
      ∃ t u, fs.nodeAt p = some t ∧ fs'.nodeAt p = some u ∧ t.SameFiles u := by
  unfold FileSystem.nodeAt
  split
  · cases p.names with
    | none => exact .inl ⟨rfl, rfl⟩
    | some names =>
      have hnames := h names
      simp only [Option.bind_some]
      cases ht : fs.root.node names with
      | none =>
        cases hu : fs'.root.node names with
        | none => exact .inl ⟨rfl, rfl⟩
        | some u => simp [ht, hu] at hnames
      | some t =>
        cases hu : fs'.root.node names with
        | none => simp [ht, hu] at hnames
        | some u =>
          refine .inr ⟨t, u, rfl, rfl, fun below => ?_⟩
          have hbelow := h (names ++ below)
          simpa only [FileTree.node_append, ht, hu, Option.bind_some] using hbelow
  · exact .inl ⟨rfl, rfl⟩

/-- A partial map over a permuted list. -/
theorem mapM_perm {α β : Type} {f : α → Option β} {l m : List α} (h : l.Perm m) :
    (l.mapM f = none ∧ m.mapM f = none) ∨
      ∃ l' m', l.mapM f = some l' ∧ m.mapM f = some m' ∧ l'.Perm m' := by
  induction h with
  | nil => exact .inr ⟨[], [], rfl, rfl, .refl _⟩
  | cons a _ ih =>
    simp only [List.mapM_cons]
    cases f a with
    | none => exact .inl ⟨rfl, rfl⟩
    | some b =>
      rcases ih with ⟨hl, hm⟩ | ⟨l', m', hl, hm, hperm⟩
      · rw [hl, hm]
        exact .inl ⟨rfl, rfl⟩
      · rw [hl, hm]
        exact .inr ⟨b :: l', b :: m', rfl, rfl, hperm.cons b⟩
  | swap a b l =>
    simp only [List.mapM_cons]
    cases f a with
    | none => cases f b <;> exact .inl ⟨rfl, rfl⟩
    | some a' =>
      cases f b with
      | none => exact .inl ⟨rfl, rfl⟩
      | some b' =>
        cases l.mapM f with
        | none => exact .inl ⟨rfl, rfl⟩
        | some l' => exact .inr ⟨_, _, rfl, rfl, .swap a' b' l'⟩
  | trans _ _ ih ih' =>
    rcases ih with ⟨hl, hm⟩ | ⟨l', m', hl, hm, hperm⟩
    · rcases ih' with ⟨_, hn⟩ | ⟨m', _, hm', -⟩
      · exact .inl ⟨hl, hn⟩
      · rw [hm] at hm'
        cases hm'
    · rcases ih' with ⟨hm', _⟩ | ⟨m'', n', hm', hn, hperm'⟩
      · rw [hm] at hm'
        cases hm'
      · rw [hm] at hm'
        obtain rfl := Option.some.inj hm'
        exact .inr ⟨l', n', hl, hn, hperm.trans hperm'⟩

/-- The files of a walk in which nothing failed are its steps. -/
theorem map_of_mapM_visitFile {visits : List (Visit OsName FileData)}
    {files : List (OsPath × FileData)} (h : visits.mapM visitFile = some files) :
    visits = files.map fun file => .file file.1 file.2 := by
  induction visits generalizing files with
  | nil =>
    obtain rfl := Option.some.inj h
    rfl
  | cons visit visits ih =>
    rw [List.mapM_cons] at h
    obtain ⟨file, hfile, hrest⟩ := Option.bind_eq_some_iff.mp h
    obtain ⟨rest, hmap, hfiles⟩ := Option.bind_eq_some_iff.mp hrest
    obtain rfl := Option.some.inj hfiles
    cases visit with
    | file path data =>
      obtain rfl := Option.some.inj hfile
      rw [ih hmap, List.map_cons]
    | error path => cases hfile

/-- The files of a directory come from its walk. -/
theorem walk_of_walkDir {fs : FileSystem} {dir : OsPath} {files : List (OsPath × FileData)}
    (h : walkDir fs dir = some files) : ∃ tree, fs.nodeAt dir = some tree ∧
      tree.walk (keepEntry dir) dir = files.map fun file => .file file.1 file.2 := by
  unfold walkDir at h
  cases htree : fs.nodeAt dir with
  | none => simp [htree] at h
  | some tree =>
    simp only [htree] at h
    split at h
    · exact ⟨tree, rfl, map_of_mapM_visitFile h⟩
    · cases h

/-- The files of a closure directory are below it. -/
theorem joinAll_of_walkDir {fs : FileSystem} {dir : OsPath} {files : List (OsPath × FileData)}
    (h : walkDir fs dir = some files) {file : OsPath × FileData} (hfile : file ∈ files) :
    ∃ names, file.1 = dir.joinAll names := by
  obtain ⟨tree, -, hwalk⟩ := walk_of_walkDir h
  have hvisit : .file file.1 file.2 ∈ tree.walk (keepEntry dir) dir := by
    rw [hwalk]
    exact List.mem_map_of_mem hfile
  exact FileTree.path_of_mem_walk tree dir hvisit

/-- The keys of the files of one closure directory are distinct. -/
theorem nodup_closureFiles {fs : FileSystem} {workspaceRoot dir : OsPath}
    {files : List (OsPath × FileData)} (h : walkDir fs dir = some files)
    (htext : ∀ file ∈ files, IsText file.1) :
    ((files.map fun file => (relPath workspaceRoot dir file.1, file.2)).map
      fun file => textKey file.1).Nodup := by
  obtain ⟨tree, htree, hwalk⟩ := walk_of_walkDir h
  have hpaths : (files.map Prod.fst).Nodup := by
    have hnodup : ((tree.walk (keepEntry dir) dir).map Visit.path).Nodup :=
      FileTree.nodup_walk (Upload.distinct_of_nodeAt htree)
    rw [hwalk, List.map_map] at hnodup
    exact hnodup
  have hkey : Function.Injective textKey := fun _ _ h => List.map_injective_iff.mpr
    (fun _ _ => Char.toNat_inj.mp) h
  rw [List.map_map]
  refine (List.nodup_map_iff_inj_on (hpaths.of_map _)).mpr fun file hfile other hother hsame => ?_
  obtain ⟨ps, hps⟩ := joinAll_of_walkDir h hfile
  obtain ⟨qs, hqs⟩ := joinAll_of_walkDir h hother
  have hpath := relPath_inj hps hqs (htext file hfile) (htext other hother) (hkey hsame)
  exact List.inj_on_of_nodup_map hpaths hfile hother hpath

/-- The files of one directory, listed in another order. -/
theorem closureFiles_sameFiles {fs fs' : FileSystem} (workspaceRoot : OsPath) {dir : OsPath}
    (h : fs.root.SameFiles fs'.root)
    (htext : ∀ files, walkDir fs dir = some files → ∀ file ∈ files, IsText file.1) :
    (closureFiles fs workspaceRoot dir = none ∧ closureFiles fs' workspaceRoot dir = none) ∨
      ∃ files files', closureFiles fs workspaceRoot dir = some files ∧
        closureFiles fs' workspaceRoot dir = some files' ∧
        ∀ k, withKey (fun file => textKey file.1) k files =
          withKey (fun file => textKey file.1) k files' := by
  have hwalk : (walkDir fs dir = none ∧ walkDir fs' dir = none) ∨ ∃ files files',
      walkDir fs dir = some files ∧ walkDir fs' dir = some files' ∧ files.Perm files' := by
    unfold walkDir
    rcases nodeAt_sameFiles h dir with ⟨hnone, hnone'⟩ | ⟨t, u, ht, hu, hsame⟩
    · rw [hnone, hnone']
      exact .inl ⟨rfl, rfl⟩
    · rw [ht, hu]
      have hdir : t.isDir = u.isDir := by
        have hroot := hsame []
        cases t <;> cases u <;> simp [FileTree.node, FileTree.stat] at hroot <;> rfl
      simp only [hdir]
      split
      · exact mapM_perm (FileTree.walk_perm (Upload.distinct_of_nodeAt ht)
          (Upload.distinct_of_nodeAt hu) hsame)
      · exact .inl ⟨rfl, rfl⟩
  unfold closureFiles
  rcases hwalk with ⟨hnone, hnone'⟩ | ⟨files, files', hfiles, hfiles', hperm⟩
  · rw [hnone, hnone']
    exact .inl ⟨rfl, rfl⟩
  · rw [hfiles, hfiles']
    exact .inr ⟨_, _, rfl, rfl, withKey_perm _ (nodup_closureFiles hfiles (htext files hfiles))
      (hperm.map _)⟩

/-- The files of all directories, listed in another order. -/
theorem collectClosureFiles_sameFiles {fs fs' : FileSystem} (workspaceRoot : OsPath)
    {dirs : List OsPath} (h : fs.root.SameFiles fs'.root) (htext : TextNames fs dirs) :
    (collectClosureFiles fs workspaceRoot dirs = none ∧
      collectClosureFiles fs' workspaceRoot dirs = none) ∨
      ∃ files files', collectClosureFiles fs workspaceRoot dirs = some files ∧
        collectClosureFiles fs' workspaceRoot dirs = some files' ∧
        ∀ k, withKey (fun file => textKey file.1) k files =
          withKey (fun file => textKey file.1) k files' := by
  induction dirs with
  | nil => exact .inr ⟨[], [], rfl, rfl, fun _ => rfl⟩
  | cons dir dirs ih =>
    have hdir := closureFiles_sameFiles workspaceRoot h (htext dir List.mem_cons_self)
    have hdirs := ih fun d hd => htext d (List.mem_cons_of_mem _ hd)
    unfold collectClosureFiles at hdirs ⊢
    simp only [List.mapM_cons]
    rcases hdir with ⟨hnone, hnone'⟩ | ⟨files, files', hfiles, hfiles', hkeys⟩
    · rw [hnone, hnone']
      exact .inl ⟨rfl, rfl⟩
    · rw [hfiles, hfiles']
      rcases hdirs with ⟨hnone, hnone'⟩ | ⟨rest, rest', hrest, hrest', hkeys'⟩
      · rw [Option.map_eq_none_iff] at hnone hnone'
        rw [hnone, hnone']
        exact .inl ⟨rfl, rfl⟩
      · obtain ⟨lists, hlists, rfl⟩ := Option.map_eq_some_iff.mp hrest
        obtain ⟨lists', hlists', rfl⟩ := Option.map_eq_some_iff.mp hrest'
        rw [hlists, hlists']
        refine .inr ⟨files ++ lists.flatten, files' ++ lists'.flatten, rfl, rfl, fun k => ?_⟩
        have hfirst := hkeys k
        have hothers := hkeys' k
        unfold withKey at hfirst hothers ⊢
        rw [List.filter_append, List.filter_append, hfirst, hothers]

/-- What is hashed does not depend on the order of listing. -/
theorem key_sameFiles {metadata : Option Metadata} {fs fs' : FileSystem} {workspaceRoot : OsPath}
    {package : Text} {isGeneratable : Bool} (h : fs.root.SameFiles fs'.root)
    (htext : ∀ dirs, describeCacheInputs metadata fs workspaceRoot package = some dirs →
      TextNames fs dirs) :
    key metadata fs workspaceRoot package isGeneratable =
      key metadata fs' workspaceRoot package isGeneratable := by
  have hfile (p : OsPath) : fs.isFile p = fs'.isFile p := by
    unfold FileSystem.isFile
    rcases nodeAt_sameFiles h p with ⟨hnone, hnone'⟩ | ⟨t, u, ht, hu, hsame⟩
    · rw [hnone, hnone']
    · rw [ht, hu]
      have hroot := hsame []
      cases t <;> cases u <;> simp [FileTree.node, FileTree.stat] at hroot <;> rfl
  have hlock : readLock fs workspaceRoot = readLock fs' workspaceRoot := by
    unfold readLock contentsAt
    rcases nodeAt_sameFiles h (workspaceRoot.join (.utf8 cargoLock)) with
      ⟨hnone, hnone'⟩ | ⟨t, u, ht, hu, hsame⟩
    · rw [hnone, hnone']
    · rw [ht, hu]
      have hroot := hsame []
      cases t <;> cases u <;> simp [FileTree.node, FileTree.stat] at hroot
      · rw [hroot]
      all_goals rfl
  have hinputs : describeCacheInputs metadata fs' workspaceRoot package =
      describeCacheInputs metadata fs workspaceRoot package := by
    unfold describeCacheInputs
    rw [hfile]
  unfold key
  rw [hinputs]
  cases hdirs : describeCacheInputs metadata fs workspaceRoot package with
  | none => rfl
  | some dirs =>
    have hkey : keyInput fs workspaceRoot package isGeneratable dirs =
        keyInput fs' workspaceRoot package isGeneratable dirs := by
      unfold keyInput
      rcases collectClosureFiles_sameFiles workspaceRoot h (htext dirs hdirs)
        with ⟨hnone, hnone'⟩ | ⟨files, files', hfiles, hfiles', hkeys⟩
      · rw [hnone, hnone']
        rfl
      · rw [hfiles, hfiles', Option.bind_some, Option.bind_some, hlock, sortByKey_congr _ hkeys]
    simp only [Option.bind_some, hkey]

/-- Two keys with one stream. -/
theorem hashed_inj {metadata metadata' : Option Metadata} {fs fs' : FileSystem}
    {workspaceRoot workspaceRoot' : OsPath} {package package' : Text}
    {isGeneratable isGeneratable' : Bool} {stream : Bytes}
    (hfits : ∀ input ∈ hashed metadata fs workspaceRoot package isGeneratable, input.Fits)
    (hfits' : ∀ input ∈ hashed metadata' fs' workspaceRoot' package' isGeneratable', input.Fits)
    (h : key metadata fs workspaceRoot package isGeneratable = some stream)
    (h' : key metadata' fs' workspaceRoot' package' isGeneratable' = some stream) :
    ∃ input, hashed metadata fs workspaceRoot package isGeneratable = some input ∧
      hashed metadata' fs' workspaceRoot' package' isGeneratable' = some input := by
  rw [key_eq_hashed] at h h'
  obtain ⟨input, hinput, hstream⟩ := Option.map_eq_some_iff.mp h
  obtain ⟨input', hinput', hstream'⟩ := Option.map_eq_some_iff.mp h'
  have hsame : input = input' := KeyInput.stream_inj (hfits input hinput) (hfits' input' hinput')
    (hstream.trans hstream'.symm)
  exact ⟨input, hinput, hsame ▸ hinput'⟩

/-- **The framing of the key is injective, and the stream does not depend on the order of
listing.** Inputs with one stream are equal. So two states of workspaces with one stream have
the same package, flag and lock file, and the same files at the same paths. And in two file
systems with the same files, listed in any order, the stream is the same. -/
theorem key_framing :
    (∀ a b : KeyInput, a.Fits → b.Fits → a.stream = b.stream → a = b) ∧
      (∀ (metadata metadata' : Option Metadata) (fs fs' : FileSystem)
        (workspaceRoot workspaceRoot' : OsPath) (package package' : Text)
        (isGeneratable isGeneratable' : Bool) (stream : Bytes),
        (∀ input ∈ hashed metadata fs workspaceRoot package isGeneratable, input.Fits) →
        (∀ input ∈ hashed metadata' fs' workspaceRoot' package' isGeneratable', input.Fits) →
        key metadata fs workspaceRoot package isGeneratable = some stream →
        key metadata' fs' workspaceRoot' package' isGeneratable' = some stream →
        package = package' ∧ isGeneratable = isGeneratable' ∧
          readLock fs workspaceRoot = readLock fs' workspaceRoot' ∧
          ∃ input, hashed metadata fs workspaceRoot package isGeneratable = some input ∧
            hashed metadata' fs' workspaceRoot' package' isGeneratable' = some input) ∧
      ∀ (metadata : Option Metadata) (fs fs' : FileSystem) (workspaceRoot : OsPath)
        (package : Text) (isGeneratable : Bool), fs.root.SameFiles fs'.root →
        (∀ dirs, describeCacheInputs metadata fs workspaceRoot package = some dirs →
          TextNames fs dirs) →
        key metadata fs workspaceRoot package isGeneratable =
          key metadata fs' workspaceRoot package isGeneratable := by
  refine ⟨fun _ _ ha hb h => KeyInput.stream_inj ha hb h, ?_,
    fun _ _ _ _ _ _ h htext => key_sameFiles h htext⟩
  intro metadata metadata' fs fs' workspaceRoot workspaceRoot' package package' isGeneratable
    isGeneratable' stream hfits hfits' h h'
  obtain ⟨input, hinput, hinput'⟩ := hashed_inj hfits hfits' h h'
  obtain ⟨hpackage, hflag, hlock⟩ := fields_of_hashed hinput
  obtain ⟨hpackage', hflag', hlock'⟩ := fields_of_hashed hinput'
  exact ⟨hpackage.symm.trans hpackage', hflag.symm.trans hflag', hlock.symm.trans hlock',
    input, hinput, hinput'⟩

/-- An input with one file, and the same input whose file holds what looks like a second
one. -/
def imitation (files : List (Text × Bytes)) : KeyInput := ⟨"app".toList, true, some [], files⟩

/-- The package at the root of a file system. -/
def crateMetadata : Metadata where
  workspaceMembers := ["app-id".toList]
  workspaceRoot := ⟨true, []⟩
  packages := [{
    id := "app-id".toList
    name := "app".toList
    manifestPath := ⟨true, [.normal cargoToml]⟩
    dependencies := []
    targets := [] }]

/-- Its source. -/
def sourceName : FileName := ⟨"crate.rs".toList, by decide, by decide, by decide⟩

/-- The package on disk, the manifest listed first. -/
def crateFs (source : UInt8) : FileSystem where
  root := .dir [(.utf8 cargoToml, .file ⟨some [1], none⟩),
    (.utf8 sourceName, .file ⟨some [source], none⟩)]
  distinct := .dir _ (by decide : [OsName.utf8 cargoToml, .utf8 sourceName].Nodup)
    (List.forall_mem_cons.mpr ⟨.file _, List.forall_mem_singleton.mpr (.file _)⟩)

/-- The package on disk, the source listed first. -/
def crateFsTurned (source : UInt8) : FileSystem where
  root := .dir [(.utf8 sourceName, .file ⟨some [source], none⟩),
    (.utf8 cargoToml, .file ⟨some [1], none⟩)]
  distinct := .dir _ (by decide : [OsName.utf8 sourceName, .utf8 cargoToml].Nodup)
    (List.forall_mem_cons.mpr ⟨.file _, List.forall_mem_singleton.mpr (.file _)⟩)

/-- What is hashed for the package. -/
def crateInput (source : UInt8) : KeyInput :=
  ⟨"app".toList, true, none, [("Cargo.toml".toList, [1]), ("crate.rs".toList, [source])]⟩

/-- The frame of a second file inside of a first one does not make two files, an edit of the
source changes the key of a package, and the order of its files does not. -/
theorem key_framing_imitation :
    (imitation [("a.rs".toList, [1]), ("b.rs".toList, [2])]).stream ≠
      (imitation [("a.rs".toList, 1 :: updateFile ("b.rs".toList, [2]))]).stream ∧
    key (some crateMetadata) (crateFs 2) ⟨true, []⟩ "app".toList true ≠
      key (some crateMetadata) (crateFs 3) ⟨true, []⟩ "app".toList true ∧
    key (some crateMetadata) (crateFs 2) ⟨true, []⟩ "app".toList true =
      key (some crateMetadata) (crateFsTurned 2) ⟨true, []⟩ "app".toList true := by
  have hinput : hashed (some crateMetadata) (crateFs 2) ⟨true, []⟩ "app".toList true =
      some (crateInput 2) := by decide +kernel
  have hinput' : hashed (some crateMetadata) (crateFs 3) ⟨true, []⟩ "app".toList true =
      some (crateInput 3) := by decide +kernel
  refine ⟨fun h => ?_, fun h => ?_, ?_⟩
  · have hsame := key_framing.1 _ _ ⟨by decide, by decide, by decide, by decide⟩
      ⟨by decide, by decide, by decide, by decide⟩ h
    revert hsame
    decide
  · have hkey : key (some crateMetadata) (crateFs 2) ⟨true, []⟩ "app".toList true =
        some (crateInput 2).stream := by rw [key_eq_hashed, hinput, Option.map_some]
    have hfits : ∀ input ∈ some (crateInput 2), input.Fits := by
      rintro _ ⟨⟩
      exact ⟨by decide, by simp [crateInput], by decide, by decide⟩
    have hfits' : ∀ input ∈ some (crateInput 3), input.Fits := by
      rintro _ ⟨⟩
      exact ⟨by decide, by simp [crateInput], by decide, by decide⟩
    rw [← hinput] at hfits
    rw [← hinput'] at hfits'
    obtain ⟨-, -, -, input, hsome, hsome'⟩ := key_framing.2.1 _ _ _ _ _ _ _ _ _ _ _ hfits hfits'
      hkey (h.symm.trans hkey)
    rw [hinput] at hsome
    rw [hinput', ← hsome] at hsome'
    revert hsome'
    decide
  · refine key_framing.2.2 _ _ _ _ _ _
      (FileTree.SameFiles.of_perm (.swap ..) (by decide)) fun dirs hdirs => ?_
    obtain rfl := Option.some.inj hdirs
    intro dir hdir files hfiles
    obtain rfl := List.mem_singleton.mp hdir
    obtain rfl := Option.some.inj hfiles
    refine List.forall_mem_cons.mpr ⟨fun raw h => ?_, List.forall_mem_singleton.mpr fun raw h => ?_⟩
    · cases List.mem_singleton.mp h
    · cases List.mem_singleton.mp h

end ModalRust.Describe
