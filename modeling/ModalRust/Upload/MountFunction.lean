import Mathlib.Data.List.Pairwise
import ModalRust.FileTreeEdit
import ModalRust.Upload.Survive

/-!
# The upload as a function of the mount path

Two collectors make the list of files of an upload: one walks the crate directories of a
closure, the other the whole source directory. What they place at a path comes from the
walked files in order, then from the files made in memory. Names that are not valid text
are left out of a path in the mount; apart from this, a path in the mount belongs to one
file, and the upload is a function of the path.
-/

namespace ModalRust.Upload

open Scope (cargoToml)

/-- One step of the walk of a whole directory: every file is added. -/
def pushVisit (localDir : OsPath) (remote : Text) (files : List LocalFile) :
    Visit OsName FileData → Except CollectError (List LocalFile)
  | .error path => .error (.walking path)
  | .file path data =>
    match path.stripPrefix localDir with
    | none => .error (.outside path)
    | some rel =>
      (readLocalFile path data (mountPath remote (rel.toPosix OsName.toStr))).map fun file =>
        files ++ [file]

/-- `collect_files`. -/
def collectFiles (fs : FileSystem) (localDir : OsPath) (remotePath : Text)
    (patterns : List IgnorePattern) (extraInlineFiles : List (Text × Bytes)) :
    Except CollectError (List LocalFile) :=
  let remote := normalizeRemotePrefix remotePath
  match fs.nodeAt localDir with
  | none => .error (.walking localDir)
  | some tree =>
    ((tree.walk (keepEntry localDir patterns) localDir).foldlM (pushVisit localDir remote) []).map
      fun files => appendInlineFiles remote files extraInlineFiles

/-- The bytes of the last file made in memory for a path in the mount. -/
def lastInline (remote : Text) (extraInlineFiles : List (Text × Bytes)) (name : Text) :
    Option Bytes :=
  (extraInlineFiles.reverse.find? fun file =>
    mountPath remote (file.1.dropWhile (· = '/')) = name).map Prod.snd

/-- A path in the mount names the local path with the same path relative to the root. -/
def MountsAt (root : OsPath) (remote : Text) (path : OsPath) (name : Text) : Prop :=
  ∃ rel : Path FileName, path.stripPrefix root = some (toOs rel) ∧
    name = mountPath remote (rel.toPosix FileName.toStr)

/-- The one local file that a path in the mount names has these bytes. -/
def LocalBytes (fs : FileSystem) (root : OsPath) (remote name : Text) (contents : Bytes) : Prop :=
  ∃ path data, (∀ other, MountsAt root remote other name ↔ other = path) ∧
    fs.nodeAt path = some (.file data) ∧ data.contents = some contents

/-- The upload is a function of the path in the mount: paths are distinct, files made in
memory are at theirs, the last one for each, and every other file has the bytes of the
local file that its path names. -/
structure MountFunction (fs : FileSystem) (root : OsPath) (remote : Text)
    (extraInlineFiles : List (Text × Bytes)) (files : List LocalFile) : Prop where
  /-- Paths in the mount are distinct. -/
  nodup : (names files).Nodup
  /-- Files made in memory win, and the last one for a path. -/
  inlined : ∀ name contents, lastInline remote extraInlineFiles name = some contents →
    ∃ f ∈ files, f.mountFilename = name ∧ f.data = contents
  /-- The other files are local ones. -/
  localFile : ∀ f ∈ files, lastInline remote extraInlineFiles f.mountFilename = none →
    LocalBytes fs root remote f.mountFilename f.data

/-- The path in the mount of a walked file: names that are not text are left out. -/
def nameOf (root : OsPath) (remote : Text) (path : OsPath) : Option Text :=
  (path.stripPrefix root).map fun rel => mountPath remote (rel.toPosix OsName.toStr)

/-- All names of a path below the root are text. -/
def TextBelow (root path : OsPath) : Prop :=
  ∃ rel : Path FileName, path.stripPrefix root = some (toOs rel)

/-- The file of a step of a walk. -/
def walkedFile : Visit OsName FileData → List (OsPath × FileData)
  | .error _ => []
  | .file path data => [(path, data)]

/-- The files of the walk of one directory. -/
def walkedFiles (fs : FileSystem) (root : OsPath) (patterns : List IgnorePattern) (dir : OsPath) :
    List (OsPath × FileData) :=
  match fs.nodeAt dir with
  | none => []
  | some tree => (tree.walk (keepEntry root patterns) dir).flatMap walkedFile

/-- An extra file that is there. -/
def extraFile (fs : FileSystem) (path : OsPath) : List (OsPath × FileData) :=
  match fs.nodeAt path with
  | some (.file data) => [(path, data)]
  | _ => []

/-- The files that the closure collector looks at, in order. -/
def closureCandidates (fs : FileSystem) (workspaceRoot : OsPath) (patterns : List IgnorePattern)
    (crateDirs extraFiles : List OsPath) : List (OsPath × FileData) :=
  crateDirs.flatMap (walkedFiles fs workspaceRoot patterns) ++ extraFiles.flatMap (extraFile fs)

/-- The first of some files with a path in the mount. -/
def firstAt (root : OsPath) (remote : Text) (candidates : List (OsPath × FileData)) (name : Text) :
    Option (OsPath × FileData) :=
  candidates.find? fun c => nameOf root remote c.1 = some name

section Paths

variable {root path : OsPath} {remote name : Text}

/-- A path in the mount names at most one local path. -/
theorem MountsAt.unique {other : OsPath} (h : MountsAt root remote path name)
    (hother : MountsAt root remote other name) : other = path := by
  obtain ⟨rel, hrel, rfl⟩ := h
  obtain ⟨rel', hrel', hname⟩ := hother
  obtain rfl : rel = rel' := Path.toPosix_inj (mountPath_inj hname)
  exact Path.stripPrefix_inj hrel' hrel

/-- The bytes of a local file at a path that names it. -/
theorem MountsAt.localBytes {fs : FileSystem} {data : FileData} {contents : Bytes}
    (h : MountsAt root remote path name) (hnode : fs.nodeAt path = some (.file data))
    (hcontents : data.contents = some contents) : LocalBytes fs root remote name contents :=
  ⟨path, data, fun _ => ⟨fun hother => h.unique hother, fun heq => heq ▸ h⟩, hnode, hcontents⟩

/-- A file all of whose names are text is at the path that names it. -/
theorem mountsAt_of_text (htext : TextBelow root path)
    (hname : nameOf root remote path = some name) : MountsAt root remote path name := by
  obtain ⟨rel, hrel⟩ := htext
  rw [nameOf, hrel, Option.map_some, Option.some.injEq, toPosix_toOs] at hname
  exact ⟨rel, hrel, hname.symm⟩

end Paths

section Inline

variable {remote : Text}

/-- The last file made in memory is looked at first. -/
theorem lastInline_concat (extraInlineFiles : List (Text × Bytes)) (file : Text × Bytes)
    (name : Text) :
    lastInline remote (extraInlineFiles ++ [file]) name =
      if mountPath remote (file.1.dropWhile (· = '/')) = name then some file.2
      else lastInline remote extraInlineFiles name := by
  unfold lastInline
  rw [List.reverse_append, List.reverse_singleton, List.singleton_append, List.find?_cons]
  split <;> simp_all

/-- Files made in memory leave the files at other paths as they are. -/
theorem appendInlineFiles_eq (files : List LocalFile) (extraInlineFiles : List (Text × Bytes)) :
    appendInlineFiles remote files extraInlineFiles =
      files.filter (fun f => lastInline remote extraInlineFiles f.mountFilename = none) ++
        appendInlineFiles remote [] extraInlineFiles := by
  induction extraInlineFiles using List.reverseRecOn with
  | nil =>
    have hall : files.filter (fun f => lastInline remote [] f.mountFilename = none) = files :=
      List.filter_eq_self.mpr fun _ _ => rfl
    simp [appendInlineFiles, hall]
  | append_singleton rest file ih =>
    unfold appendInlineFiles at ih ⊢
    rw [List.foldl_append, List.foldl_append, ih]
    simp only [List.foldl_cons, List.foldl_nil, appendInlineFile, List.filter_append,
      List.filter_filter, List.append_assoc]
    congr 1
    refine List.filter_congr fun f _ => ?_
    rw [lastInline_concat]
    by_cases hpath : mountPath remote (file.1.dropWhile (· = '/')) = f.mountFilename
    · simp [hpath]
    · simp [hpath, Ne.symm hpath]

/-- What is placed for the files made in memory: the last one for each path. -/
theorem inlineFiles_spec (remote : Text) (extraInlineFiles : List (Text × Bytes)) :
    (names (appendInlineFiles remote [] extraInlineFiles)).Nodup ∧
      ∀ f, f ∈ appendInlineFiles remote [] extraInlineFiles ↔
        lastInline remote extraInlineFiles f.mountFilename = some f.data ∧ f.mode = some 0o644 := by
  induction extraInlineFiles using List.reverseRecOn with
  | nil => simp [appendInlineFiles, names, lastInline]
  | append_singleton rest file ih =>
    obtain ⟨hnodup, hmem⟩ := ih
    have hlast : appendInlineFiles remote [] (rest ++ [file]) =
        appendInlineFile remote (appendInlineFiles remote [] rest) file := by
      simp [appendInlineFiles]
    rw [hlast]
    constructor
    · unfold names appendInlineFile
      rw [List.map_append, List.nodup_append]
      refine ⟨hnodup.sublist (List.filter_sublist.map _), List.nodup_singleton _, ?_⟩
      intro name hname other hother heq
      obtain ⟨f, hf, rfl⟩ := List.mem_map.mp hname
      have hother := List.mem_singleton.mp hother
      have hne := (List.mem_filter.mp hf).2
      rw [decide_eq_true_eq] at hne
      exact hne (heq.trans hother)
    · rintro ⟨name, data, mode⟩
      rw [mem_appendInlineFile, hmem, lastInline_concat]
      by_cases hpath : mountPath remote (file.1.dropWhile (· = '/')) = name
      · simp [hpath, eq_comm]
      · simp [hpath, Ne.symm hpath]

/-- When an upload is a function of the path, in terms of the files before those made in
memory: those that stay have distinct paths and the bytes that their paths name. -/
theorem mountFunction_iff {fs : FileSystem} {root : OsPath} {files : List LocalFile}
    {extraInlineFiles : List (Text × Bytes)} :
    MountFunction fs root remote extraInlineFiles
        (appendInlineFiles remote files extraInlineFiles) ↔
      ((names files).filter fun name => lastInline remote extraInlineFiles name = none).Nodup ∧
        ∀ f ∈ files, lastInline remote extraInlineFiles f.mountFilename = none →
          LocalBytes fs root remote f.mountFilename f.data := by
  obtain ⟨hnodup, hmem⟩ := inlineFiles_spec remote extraInlineFiles
  have hnames : names (appendInlineFiles remote files extraInlineFiles) =
      ((names files).filter fun name => lastInline remote extraInlineFiles name = none) ++
        names (appendInlineFiles remote [] extraInlineFiles) := by
    rw [appendInlineFiles_eq]
    simp [names, List.filter_map, Function.comp_def]
  constructor
  · intro h
    refine ⟨?_, fun f hf hkept => h.localFile f ?_ hkept⟩
    · have hall := h.nodup
      rw [hnames] at hall
      exact (List.nodup_append.mp hall).1
    · rw [appendInlineFiles_eq]
      exact List.mem_append_left _ (List.mem_filter.mpr ⟨hf, decide_eq_true hkept⟩)
  · rintro ⟨hkept, hlocal⟩
    refine ⟨?_, fun name contents hlast => ?_, fun f hf hnone => ?_⟩
    · rw [hnames, List.nodup_append]
      refine ⟨hkept, hnodup, fun name hname other hother heq => ?_⟩
      have hnone := (List.mem_filter.mp hname).2
      rw [decide_eq_true_eq] at hnone
      obtain ⟨f, hf, rfl⟩ := List.mem_map.mp hother
      rw [heq, ((hmem f).mp hf).1] at hnone
      cases hnone
    · refine ⟨⟨name, contents, some 0o644⟩, ?_, rfl, rfl⟩
      rw [appendInlineFiles_eq]
      exact List.mem_append_right _ ((hmem _).mpr ⟨hlast, rfl⟩)
    · rw [appendInlineFiles_eq] at hf
      rcases List.mem_append.mp hf with hf | hf
      · exact hlocal f (List.mem_filter.mp hf).1 hnone
      · rw [((hmem f).mp hf).1] at hnone
        cases hnone

end Inline

/-- A loop that fails at the first error, where each step extends what an invariant says of
the items that were emitted so far. -/
theorem foldlM_emit {σ ι κ ε : Type} {step : σ → ι → Except ε σ} {emit : ι → List κ}
    {P : List κ → σ → Prop}
    (hstep : ∀ done s i s', P done s → step s i = .ok s' → P (done ++ emit i) s') {items : List ι}
    {done : List κ} {s s' : σ} (h : P done s) (hrun : items.foldlM step s = .ok s') :
    P (done ++ items.flatMap emit) s' := by
  induction items generalizing done s with
  | nil =>
    cases hrun
    simpa using h
  | cons i items ih =>
    rw [List.foldlM_cons] at hrun
    cases hi : step s i with
    | error e =>
      rw [hi] at hrun
      cases hrun
    | ok s₁ =>
      rw [hi] at hrun
      have hrest := ih (hstep done s i s₁ h hi) hrun
      rwa [List.append_assoc, ← List.flatMap_cons] at hrest

/-- What was collected for some files in order: for each path in the mount, the first file. -/
structure Placed (root : OsPath) (remote : Text) (done : List (OsPath × FileData))
    (files : List LocalFile) : Prop where
  /-- Paths in the mount are distinct. -/
  nodup : (names files).Nodup
  /-- What is placed is the first file with this path. -/
  first : ∀ f ∈ files, ∃ c, firstAt root remote done f.mountFilename = some c ∧
    c.2.contents = some f.data
  /-- All paths are taken. -/
  taken : ∀ c ∈ done, ∃ f ∈ files, nameOf root remote c.1 = some f.mountFilename

section Closure

variable {fs : FileSystem} {root : OsPath} {remote : Text} {patterns : List IgnorePattern}

/-- A file that can be read. -/
theorem readLocalFile_eq_ok {path : OsPath} {data : FileData} {name : Text} {f : LocalFile}
    (h : readLocalFile path data name = .ok f) :
    f.mountFilename = name ∧ data.contents = some f.data := by
  unfold readLocalFile at h
  split at h
  · next contents hcontents =>
    cases h
    exact ⟨rfl, hcontents⟩
  · cases h

/-- The first file stays the first one when more are looked at. -/
theorem firstAt_append {done more : List (OsPath × FileData)} {name : Text}
    {c : OsPath × FileData} (h : firstAt root remote done name = some c) :
    firstAt root remote (done ++ more) name = some c := by
  unfold firstAt at h ⊢
  rw [List.find?_append, h]
  rfl

/-- The first file with a path has it, and was looked at. -/
theorem mem_of_firstAt {done : List (OsPath × FileData)} {name : Text} {c : OsPath × FileData}
    (h : firstAt root remote done name = some c) :
    c ∈ done ∧ nameOf root remote c.1 = some name :=
  ⟨List.mem_of_find?_eq_some h, by simpa using List.find?_some h⟩

/-- One file from disk is placed, unless its path is taken. -/
theorem Placed.addFile {done : List (OsPath × FileData)} {files files' : List LocalFile}
    {path : OsPath} {data : FileData} (h : Placed root remote done files)
    (hrun : Upload.addFile root remote files path data = .ok files') :
    Placed root remote (done ++ [(path, data)]) files' := by
  unfold Upload.addFile at hrun
  split at hrun
  · cases hrun
  · next rel hrel =>
    have hname : nameOf root remote path = some (mountPath remote (rel.toPosix OsName.toStr)) := by
      rw [nameOf, hrel, Option.map_some]
    generalize mountPath remote (rel.toPosix OsName.toStr) = name at hname hrun
    dsimp only at hrun
    split at hrun
    · next hseen =>
      cases hrun
      obtain ⟨f, hf, hfname⟩ := List.mem_map.mp hseen
      refine ⟨h.nodup, fun g hg => ?_, fun c hc => ?_⟩
      · obtain ⟨c, hc, hcontents⟩ := h.first g hg
        exact ⟨c, firstAt_append hc, hcontents⟩
      · rcases List.mem_append.mp hc with hc | hc
        · exact h.taken c hc
        · rw [List.mem_singleton.mp hc]
          exact ⟨f, hf, hname.trans (congrArg some hfname.symm)⟩
    · next hnew =>
      cases hread : readLocalFile path data name with
      | error e =>
        rw [hread] at hrun
        cases hrun
      | ok f =>
        rw [hread] at hrun
        cases hrun
        obtain ⟨hfname, hcontents⟩ := readLocalFile_eq_ok hread
        refine ⟨?_, fun g hg => ?_, fun c hc => ?_⟩
        · unfold names at hnew ⊢
          rw [List.map_append, List.nodup_append]
          refine ⟨h.nodup, List.nodup_singleton _, fun a ha b hb hab => hnew ?_⟩
          have hb : b = f.mountFilename := by simpa using hb
          rwa [← hfname, ← hb, ← hab]
        · rcases List.mem_append.mp hg with hg | hg
          · obtain ⟨c, hc, hcontents⟩ := h.first g hg
            exact ⟨c, firstAt_append hc, hcontents⟩
          · -- no earlier file has the path of the new one
            rw [List.mem_singleton.mp hg, hfname]
            refine ⟨(path, data), ?_, hcontents⟩
            have hnone : firstAt root remote done name = none := by
              refine List.find?_eq_none.mpr fun c hc hcname => hnew ?_
              obtain ⟨g, hg, hgname⟩ := h.taken c hc
              rw [decide_eq_true_eq, hgname, Option.some.injEq] at hcname
              exact hcname ▸ List.mem_map_of_mem hg
            unfold firstAt at hnone ⊢
            rw [List.find?_append, hnone, Option.none_or, List.find?_singleton]
            simp [hname]
        · rcases List.mem_append.mp hc with hc | hc
          · obtain ⟨g, hg, hgname⟩ := h.taken c hc
            exact ⟨g, List.mem_append_left _ hg, hgname⟩
          · rw [List.mem_singleton.mp hc]
            exact ⟨f, List.mem_append_right _ (List.mem_singleton_self f), hfname ▸ hname⟩

/-- The files of the walk of a directory that is there. -/
theorem walkedFiles_eq {dir : OsPath} {tree : FileTree OsName FileData}
    (htree : fs.nodeAt dir = some tree) :
    walkedFiles fs root patterns dir =
      (tree.walk (keepEntry root patterns) dir).flatMap walkedFile := by
  simp only [walkedFiles, htree]

/-- The files of one directory are placed in order. -/
theorem Placed.addDir {done : List (OsPath × FileData)} {files files' : List LocalFile}
    {dir : OsPath} (h : Placed root remote done files)
    (hrun : Upload.addDir fs root patterns remote files dir = .ok files') :
    Placed root remote (done ++ walkedFiles fs root patterns dir) files' := by
  unfold Upload.addDir at hrun
  cases htree : fs.nodeAt dir with
  | none =>
    rw [htree] at hrun
    cases hrun
  | some tree =>
    rw [htree] at hrun
    dsimp only at hrun
    split at hrun
    · rw [walkedFiles_eq htree]
      refine foldlM_emit (fun done files visit files' h hvisit => ?_) h hrun
      cases visit with
      | error path => cases hvisit
      | file path data => exact h.addFile hvisit
    · cases hrun

/-- An extra file is placed if it is there. -/
theorem Placed.addExtra {done : List (OsPath × FileData)} {files files' : List LocalFile}
    {path : OsPath} (h : Placed root remote done files)
    (hrun : Upload.addExtra fs root remote files path = .ok files') :
    Placed root remote (done ++ extraFile fs path) files' := by
  unfold Upload.addExtra at hrun
  cases hnode : fs.nodeAt path with
  | none =>
    rw [hnode] at hrun
    cases hrun
    simpa [extraFile, hnode] using h
  | some node =>
    rw [hnode] at hrun
    cases node with
    | file data =>
      have hadded := h.addFile hrun
      simpa [extraFile, hnode] using hadded
    | dir _ | blocked | other =>
      cases hrun
      simpa [extraFile, hnode] using h

/-- What the closure collector returns: the first candidate for each path, and then the
files made in memory. -/
theorem collectFilesForDirs_placed {crateDirs extraFiles : List OsPath}
    {extraInlineFiles : List (Text × Bytes)} {remotePath : Text} {files : List LocalFile}
    (hrun : collectFilesForDirs fs root crateDirs extraFiles extraInlineFiles remotePath patterns =
      .ok files) :
    ∃ placed, files = appendInlineFiles (normalizeRemotePrefix remotePath) placed extraInlineFiles ∧
      Placed root (normalizeRemotePrefix remotePath)
        (closureCandidates fs root patterns crateDirs extraFiles) placed := by
  unfold collectFilesForDirs at hrun
  dsimp only at hrun
  generalize normalizeRemotePrefix remotePath = remote at hrun ⊢
  cases hdirs : crateDirs.foldlM (Upload.addDir fs root patterns remote) [] with
  | error e =>
    rw [hdirs] at hrun
    cases hrun
  | ok files₁ =>
    rw [hdirs] at hrun
    have hempty : Placed root remote [] [] := ⟨List.nodup_nil, nofun, nofun⟩
    have hplaced := foldlM_emit (fun _ _ _ _ h hstep => h.addDir hstep) hempty hdirs
    cases hextra : extraFiles.foldlM (Upload.addExtra fs root remote) files₁ with
    | error e =>
      simp only [Except.bind, hextra] at hrun
      cases hrun
    | ok files₂ =>
      simp only [Except.bind, hextra] at hrun
      cases hrun
      exact ⟨files₂, rfl, foldlM_emit (fun _ _ _ _ h hstep => h.addExtra hstep) hplaced hextra⟩

/-- A file that a walk visits is there. -/
theorem nodeAt_of_mem_walkedFiles {dir : OsPath} {c : OsPath × FileData}
    (h : c ∈ walkedFiles fs root patterns dir) : fs.nodeAt c.1 = some (.file c.2) := by
  cases htree : fs.nodeAt dir with
  | none => simp [walkedFiles, htree] at h
  | some tree =>
    rw [walkedFiles_eq htree] at h
    obtain ⟨visit, hvisit, hc⟩ := List.mem_flatMap.mp h
    cases visit with
    | error path => cases hc
    | file path data =>
      obtain rfl := List.mem_singleton.mp hc
      obtain ⟨below, hnode, rfl, -⟩ := (FileTree.mem_walk (distinct_of_nodeAt htree)).mp hvisit
      rw [nodeAt_joinAll, htree, Option.bind_some, hnode]

/-- The candidates are there. -/
theorem nodeAt_of_mem_closureCandidates {crateDirs extraFiles : List OsPath}
    {c : OsPath × FileData} (h : c ∈ closureCandidates fs root patterns crateDirs extraFiles) :
    fs.nodeAt c.1 = some (.file c.2) := by
  rcases List.mem_append.mp h with h | h
  · obtain ⟨dir, -, hc⟩ := List.mem_flatMap.mp h
    exact nodeAt_of_mem_walkedFiles hc
  · obtain ⟨path, -, hc⟩ := List.mem_flatMap.mp h
    unfold extraFile at hc
    split at hc
    · next data hdata =>
      rw [List.mem_singleton.mp hc]
      exact hdata
    · cases hc

end Closure

/-- What was read for some files: each is placed at its path. -/
def PlacedAll (root : OsPath) (remote : Text) (done : List (OsPath × FileData))
    (files : List LocalFile) : Prop :=
  List.Forall₂ (fun c f => nameOf root remote c.1 = some f.mountFilename ∧
    c.2.contents = some f.data) done files

section Whole

variable {fs : FileSystem} {localDir : OsPath} {remote : Text} {patterns : List IgnorePattern}

/-- What the collector of a whole directory returns: every walked file, and then the files
made in memory. -/
theorem collectFiles_placed {extraInlineFiles : List (Text × Bytes)} {remotePath : Text}
    {files : List LocalFile}
    (hrun : collectFiles fs localDir remotePath patterns extraInlineFiles = .ok files) :
    ∃ placed, files = appendInlineFiles (normalizeRemotePrefix remotePath) placed extraInlineFiles ∧
      PlacedAll localDir (normalizeRemotePrefix remotePath)
        (walkedFiles fs localDir patterns localDir) placed := by
  unfold collectFiles at hrun
  dsimp only at hrun
  generalize normalizeRemotePrefix remotePath = remote at hrun ⊢
  cases htree : fs.nodeAt localDir with
  | none =>
    rw [htree] at hrun
    cases hrun
  | some tree =>
    rw [htree] at hrun
    rw [walkedFiles_eq htree]
    dsimp only at hrun
    cases hwalk : (tree.walk (keepEntry localDir patterns) localDir).foldlM
        (pushVisit localDir remote) [] with
    | error e =>
      rw [hwalk] at hrun
      cases hrun
    | ok placed =>
      rw [hwalk] at hrun
      cases hrun
      refine ⟨placed, rfl, foldlM_emit (P := PlacedAll localDir remote)
        (fun done files visit files' h hvisit => ?_) .nil hwalk⟩
      cases visit with
      | error path => cases hvisit
      | file path data =>
        unfold pushVisit at hvisit
        dsimp only at hvisit
        split at hvisit
        · cases hvisit
        · next rel hrel =>
          cases hread : readLocalFile path data (mountPath remote (rel.toPosix OsName.toStr)) with
          | error e =>
            rw [hread] at hvisit
            cases hvisit
          | ok f =>
            rw [hread] at hvisit
            cases hvisit
            obtain ⟨hname, hcontents⟩ := readLocalFile_eq_ok hread
            refine List.rel_append h (.cons ⟨?_, hcontents⟩ .nil)
            rw [nameOf, hrel, Option.map_some, hname]

/-- A walk visits a path once. -/
theorem nodup_walkedFiles (fs : FileSystem) (root : OsPath) (patterns : List IgnorePattern)
    (dir : OsPath) : ((walkedFiles fs root patterns dir).map Prod.fst).Nodup := by
  cases htree : fs.nodeAt dir with
  | none => simp [walkedFiles, htree]
  | some tree =>
    have hwalk : ((tree.walk (keepEntry root patterns) dir).map Visit.path).Nodup :=
      FileTree.nodup_walk (distinct_of_nodeAt htree)
    rw [walkedFiles_eq htree]
    generalize tree.walk (keepEntry root patterns) dir = visits at hwalk ⊢
    refine hwalk.sublist ?_
    clear hwalk
    induction visits with
    | nil => exact .slnil
    | cons visit visits ih =>
      cases visit with
      | error path => exact ih.cons _
      | file path data => exact ih.cons_cons _

/-- The paths in the mount of what was placed. -/
theorem PlacedAll.names {done : List (OsPath × FileData)} {files : List LocalFile}
    (h : PlacedAll localDir remote done files) :
    Upload.names files = done.filterMap fun c => nameOf localDir remote c.1 := by
  induction h with
  | nil => rfl
  | cons hR _ ih =>
    rw [List.filterMap_cons, hR.1, ← ih]
    rfl

/-- What was placed for a file. -/
theorem PlacedAll.exists_file {done : List (OsPath × FileData)} {files : List LocalFile}
    (h : PlacedAll localDir remote done files) {c : OsPath × FileData} (hc : c ∈ done) :
    ∃ f ∈ files, nameOf localDir remote c.1 = some f.mountFilename ∧
      c.2.contents = some f.data := by
  induction h with
  | nil => cases hc
  | cons hR _ ih =>
    rcases List.mem_cons.mp hc with rfl | hc
    · exact ⟨_, List.mem_cons_self .., hR⟩
    · obtain ⟨f, hf, hfR⟩ := ih hc
      exact ⟨f, List.mem_cons_of_mem _ hf, hfR⟩

/-- Where a placed file comes from. -/
theorem PlacedAll.exists_candidate {done : List (OsPath × FileData)} {files : List LocalFile}
    (h : PlacedAll localDir remote done files) {f : LocalFile} (hf : f ∈ files) :
    ∃ c ∈ done, nameOf localDir remote c.1 = some f.mountFilename ∧ c.2.contents = some f.data := by
  induction h with
  | nil => cases hf
  | cons hR _ ih =>
    rcases List.mem_cons.mp hf with rfl | hf
    · exact ⟨_, List.mem_cons_self .., hR⟩
    · obtain ⟨c, hc, hcR⟩ := ih hf
      exact ⟨c, List.mem_cons_of_mem _ hc, hcR⟩

end Whole

/-- The local file that a path in the mount names has the bytes of this file. -/
def SameBytes (fs : FileSystem) (root : OsPath) (remote name : Text) (c : OsPath × FileData) :
    Prop :=
  ∃ contents, c.2.contents = some contents ∧ LocalBytes fs root remote name contents

/-- The closure upload is a function of the path, if what is first at each path has a name that
is text, or the bytes of the file that the path names. -/
theorem mountFunction_of_placed_iff {fs : FileSystem} {root : OsPath} {remote : Text}
    {extraInlineFiles : List (Text × Bytes)} {candidates : List (OsPath × FileData)}
    (hcandidates : ∀ c ∈ candidates, fs.nodeAt c.1 = some (.file c.2)) {placed : List LocalFile}
    (hplaced : Placed root remote candidates placed) :
    MountFunction fs root remote extraInlineFiles
        (appendInlineFiles remote placed extraInlineFiles) ↔
      ∀ name c, firstAt root remote candidates name = some c →
        lastInline remote extraInlineFiles name = none →
        TextBelow root c.1 ∨ SameBytes fs root remote name c := by
  rw [mountFunction_iff]
  constructor
  · rintro ⟨-, hlocal⟩ name c hfirst hnone
    obtain ⟨hc, hname⟩ := mem_of_firstAt hfirst
    obtain ⟨f, hf, hfname⟩ := hplaced.taken c hc
    obtain rfl : name = f.mountFilename := Option.some.inj (hname.symm.trans hfname)
    obtain ⟨c', hfirst', hcontents⟩ := hplaced.first f hf
    obtain rfl : c = c' := Option.some.inj (hfirst.symm.trans hfirst')
    exact .inr ⟨f.data, hcontents, hlocal f hf hnone⟩
  · intro h
    refine ⟨hplaced.nodup.filter _, fun f hf hnone => ?_⟩
    obtain ⟨c, hfirst, hcontents⟩ := hplaced.first f hf
    obtain ⟨hc, hname⟩ := mem_of_firstAt hfirst
    rcases h _ c hfirst hnone with htext | ⟨contents, hcontents', hbytes⟩
    · exact (mountsAt_of_text htext hname).localBytes (hcandidates c hc) hcontents
    · rw [hcontents, Option.some.injEq] at hcontents'
      rwa [hcontents']

/-- The upload of a whole directory is a function of the path, if each walked file has a name
that is text, or no other file has its path and the path names a file with its bytes. -/
theorem mountFunction_of_placedAll_iff {fs : FileSystem} {localDir : OsPath} {remote : Text}
    {extraInlineFiles : List (Text × Bytes)} {walked : List (OsPath × FileData)}
    (hwalked : ∀ c ∈ walked, fs.nodeAt c.1 = some (.file c.2))
    (hpaths : (walked.map Prod.fst).Nodup) {placed : List LocalFile}
    (hplaced : PlacedAll localDir remote walked placed) :
    MountFunction fs localDir remote extraInlineFiles
        (appendInlineFiles remote placed extraInlineFiles) ↔
      ∀ c ∈ walked, ∀ name, nameOf localDir remote c.1 = some name →
        lastInline remote extraInlineFiles name = none → TextBelow localDir c.1 ∨
          (∀ c' ∈ walked, nameOf localDir remote c'.1 = some name → c' = c) ∧
            SameBytes fs localDir remote name c := by
  have hkept : ((names placed).filter fun name => lastInline remote extraInlineFiles name = none) =
      walked.filterMap fun c => (nameOf localDir remote c.1).filter fun name =>
        lastInline remote extraInlineFiles name = none := by
    rw [hplaced.names, List.filter_filterMap]
  rw [mountFunction_iff, hkept, List.Nodup, List.pairwise_filterMap]
  simp only [Option.filter_eq_some_iff, decide_eq_true_eq]
  constructor
  · rintro ⟨hdistinct, hlocal⟩ c hc name hname hnone
    refine .inr ⟨fun c' hc' hname' => ?_, ?_⟩
    · by_contra hne
      have hsymm : Std.Symm fun a b : OsPath × FileData => ∀ n,
          nameOf localDir remote a.1 = some n ∧ lastInline remote extraInlineFiles n = none →
          ∀ n', nameOf localDir remote b.1 = some n' ∧
            lastInline remote extraInlineFiles n' = none → n ≠ n' :=
        ⟨fun a b h n hn n' hn' heq => h n' hn' n hn heq.symm⟩
      exact hdistinct.forall hc' hc hne name ⟨hname', hnone⟩ name ⟨hname, hnone⟩ rfl
    · obtain ⟨f, hf, hfname, hcontents⟩ := hplaced.exists_file hc
      obtain rfl : name = f.mountFilename := Option.some.inj (hname.symm.trans hfname)
      exact ⟨f.data, hcontents, hlocal f hf hnone⟩
  · intro h
    constructor
    · refine (List.Pairwise.of_map Prod.fst (fun _ _ hne heq => hne (by rw [heq])) hpaths :
        walked.Pairwise (· ≠ ·)).imp_of_mem ?_
      rintro c c' hc hc' hne name ⟨hname, hnone⟩ _ ⟨hname', -⟩ rfl
      rcases h c hc name hname hnone with htext | ⟨honly, -⟩
      · rcases h c' hc' name hname' hnone with htext' | ⟨honly, -⟩
        · -- both names are text, so the path names both files
          have hsame := (mountsAt_of_text htext hname).unique (mountsAt_of_text htext' hname')
          exact hne (List.inj_on_of_nodup_map hpaths hc hc' hsame.symm)
        · exact hne (honly c hc hname)
      · exact hne (honly c' hc' hname').symm
    · intro f hf hnone
      obtain ⟨c, hc, hname, hcontents⟩ := hplaced.exists_candidate hf
      rcases h c hc _ hname hnone with htext | ⟨-, contents, hcontents', hbytes⟩
      · exact (mountsAt_of_text htext hname).localBytes (hwalked c hc) hcontents
      · rw [hcontents, Option.some.injEq] at hcontents'
        rwa [hcontents']

/-- **Names that are not text decide whether the upload is a function of the path.** It is
for the closure collector iff what is first at a path, unless a file made in memory takes the
path, has a name that is text or the bytes of the file that the path names; and for the
collector of a whole directory iff, moreover, no second file is placed at the path of one
whose name is not text. -/
theorem mountFunction_collected_iff (fs : FileSystem) (root : OsPath)
    (patterns : List IgnorePattern) (remotePath : Text) (extraInlineFiles : List (Text × Bytes)) :
    (∀ crateDirs extraFiles files,
      collectFilesForDirs fs root crateDirs extraFiles extraInlineFiles remotePath patterns =
        .ok files →
      (MountFunction fs root (normalizeRemotePrefix remotePath) extraInlineFiles files ↔
        ∀ name c, firstAt root (normalizeRemotePrefix remotePath)
            (closureCandidates fs root patterns crateDirs extraFiles) name = some c →
          lastInline (normalizeRemotePrefix remotePath) extraInlineFiles name = none →
          TextBelow root c.1 ∨ SameBytes fs root (normalizeRemotePrefix remotePath) name c)) ∧
    ∀ files, collectFiles fs root remotePath patterns extraInlineFiles = .ok files →
      (MountFunction fs root (normalizeRemotePrefix remotePath) extraInlineFiles files ↔
        ∀ c ∈ walkedFiles fs root patterns root, ∀ name,
          nameOf root (normalizeRemotePrefix remotePath) c.1 = some name →
          lastInline (normalizeRemotePrefix remotePath) extraInlineFiles name = none →
          TextBelow root c.1 ∨
            (∀ c' ∈ walkedFiles fs root patterns root,
              nameOf root (normalizeRemotePrefix remotePath) c'.1 = some name → c' = c) ∧
            SameBytes fs root (normalizeRemotePrefix remotePath) name c) := by
  constructor
  · intro crateDirs extraFiles files hrun
    obtain ⟨placed, rfl, hplaced⟩ := collectFilesForDirs_placed hrun
    exact mountFunction_of_placed_iff (fun _ => nodeAt_of_mem_closureCandidates) hplaced
  · intro files hrun
    obtain ⟨placed, rfl, hplaced⟩ := collectFiles_placed hrun
    exact mountFunction_of_placedAll_iff (fun _ => nodeAt_of_mem_walkedFiles)
      (nodup_walkedFiles fs root patterns root) hplaced

/-- A second name that is not valid text. -/
def nameRaw' : RawName := ⟨[.inr 254], ⟨254, List.mem_cons_self⟩⟩

/-- A directory with two files whose names are not text. -/
def twoRaw : FileTree OsName FileData :=
  .dir [(.utf8 nameWs, .dir [(.raw nameRaw, exampleFile [1]), (.raw nameRaw', exampleFile [2])])]

/-- The file system with these two files. -/
def twoRawFs : FileSystem where
  root := twoRaw
  distinct := .dir _ (List.nodup_singleton _) (List.forall_mem_singleton.mpr
    (.dir _ (by decide) (List.forall_mem_cons.mpr
      ⟨.file _, List.forall_mem_singleton.mpr (.file _)⟩)))

/-- Two files at one path in the mount, and a manifest with the bytes of another file. -/
theorem mountFunction_fails :
    (collectFiles twoRawFs (toOs wsDir) "/src".toList defaultMatcher [] =
        .ok [⟨"/src/".toList, [1], some 0o644⟩, ⟨"/src/".toList, [2], some 0o644⟩] ∧
      ¬ MountFunction twoRawFs (toOs wsDir) "/src".toList []
        [⟨"/src/".toList, [1], some 0o644⟩, ⟨"/src/".toList, [2], some 0o644⟩]) ∧
    collectFilesForDirs rawFs (toOs wsDir) [toOs (wsDir.join nameA)] [] [] "/src".toList
        defaultMatcher = .ok [⟨"/src/a/Cargo.toml".toList, [4], some 0o644⟩] ∧
      ¬ MountFunction rawFs (toOs wsDir) "/src".toList []
        [⟨"/src/a/Cargo.toml".toList, [4], some 0o644⟩] := by
  refine ⟨⟨rfl, fun h => absurd h.nodup (by decide)⟩, rfl, fun h => ?_⟩
  obtain ⟨path, data, hpath, hnode, hcontents⟩ := h.localFile _ (List.mem_singleton_self _) rfl
  have hmanifest : toOs ((wsDir.join nameA).join cargoToml) = path :=
    (hpath _).mp ⟨⟨false, [.normal nameA, .normal cargoToml]⟩, rfl, by decide⟩
  subst hmanifest
  have hfile : rawFs.nodeAt (toOs ((wsDir.join nameA).join cargoToml)) = some (exampleFile [1]) :=
    rfl
  rw [hfile, Option.some.injEq] at hnode
  cases hnode
  cases hcontents

end ModalRust.Upload
