import ModalRust.Fallible
import ModalRust.FileTreeEdit
import ModalRust.OsString
import ModalRust.Scope.Closure

/-!
# Planning a volume upload

`plan_upload` expands a local file or directory into the files of an upload with their remote
paths. Names are converted lossily for directories, so two files may get one remote path; apart
from that the plan has every regular file once.
-/

namespace ModalRust.Sdk.VolumePlan

open Scope

/-- A local path. -/
abbrev LocalPath := Path RawFileName

/-- What `plan_upload` finds: regular files with their permission bits, where they can be read. A
symbolic link in a directory is `other`. -/
abbrev Node := FileTree RawFileName (Option ℕ)

/-- `PlannedFile`. -/
structure PlannedFile where
  /-- The local path. -/
  localPath : LocalPath
  /-- The path in the volume. -/
  remote : Text
  /-- The permission bits. -/
  mode : ℕ
  deriving DecidableEq

/-- Why planning fails. -/
inductive PlanError
  /-- A remote path is empty or ends with a slash. -/
  | mustReferToFile (remote : Text)
  /-- A remote path has an empty, `.` or `..` component. -/
  | badComponent (remote : Text)
  /-- A path cannot be examined. -/
  | cannotStat (path : LocalPath)
  /-- A file has no name that is text. -/
  | noName (path : LocalPath)
  /-- A path is neither a file nor a directory. -/
  | notFileOrDir (path : LocalPath)
  /-- A directory cannot be read. -/
  | cannotReadDir (path : LocalPath)
  /-- A file is not below the root of the upload. -/
  | escaped (path : LocalPath)
  deriving DecidableEq

/-- A component that a remote path may not have. -/
def isBadComponent (component : Text) : Bool :=
  component.isEmpty || component == ['.'] || component == ['.', '.']

/-- `normalize_remote`. -/
def normalizeRemote (remote : Text) : Except PlanError Text :=
  let trimmed := remote.dropWhile (· == '/')
  if trimmed.isEmpty || trimmed.getLast? == some '/' then .error (.mustReferToFile remote)
  else if (trimmed.splitOn '/').any isBadComponent then .error (.badComponent remote)
  else .ok trimmed

/-- The file that is planned for a local one. -/
def plannedFile (root path : LocalPath) (pre : Text) (mode : ℕ) : Except PlanError PlannedFile :=
  match path.stripPrefix root with
  | none => .error (.escaped path)
  | some rel =>
    let relPosix := rel.toPosix fun name => some name.toStringLossy
    (normalizeRemote (if pre.isEmpty then relPosix else pre ++ '/' :: relPosix)).map fun remote =>
      ⟨path, remote, mode⟩

mutual

/-- The entries of a directory in `walk_dir`, in the order in which they are listed. -/
def walkDir (root : LocalPath) (pre : Text) (dir : LocalPath) :
    List (RawFileName × Node) → Except PlanError (List PlannedFile)
  | [] => .ok []
  | (name, node) :: entries =>
    (walkEntry root pre (dir.join name) node).bind fun here =>
      (walkDir root pre dir entries).map fun rest => here ++ rest

/-- One entry: directories are descended into, and what is no file is skipped. -/
def walkEntry (root : LocalPath) (pre : Text) (path : LocalPath) :
    Node → Except PlanError (List PlannedFile)
  | .dir entries => walkDir root pre path entries
  | .blocked => .error (.cannotReadDir path)
  | .file none => .error (.cannotStat path)
  | .file (some mode) => (plannedFile root path pre mode).map fun file => [file]
  | .other => .ok []

end

/-- The remote prefix of a directory. -/
def remotePrefix (remotePath : Text) : Text :=
  (remotePath.dropWhile (· == '/')).rdropWhile (· == '/')

/-- `plan_upload`, where the local path leads to a node or to nothing. -/
def planUpload (localPath : LocalPath) (node : Option Node) (remotePath : Text) :
    Except PlanError (List PlannedFile) :=
  match node with
  | none => .error (.cannotStat localPath)
  | some (.file none) => .error (.cannotStat localPath)
  | some (.file (some mode)) =>
    let remote : Except PlanError Text :=
      if remotePath.isEmpty || remotePath.getLast? == some '/' then
        match localPath.fileName.bind fun name => fromUtf8 name.bytes with
        | none => .error (.noName localPath)
        | some base => .ok (remotePath ++ base)
      else .ok remotePath
    (remote.bind normalizeRemote).map fun remote => [⟨localPath, remote, mode⟩]
  | some .other => .error (.notFileOrDir localPath)
  | some node =>
    (walkEntry localPath (remotePrefix remotePath) localPath node).map
      (sortByKey fun file => textKey file.remote)

/-! ### What the plan promises -/

/-- A local file or directory. -/
structure LocalTree where
  /-- The node. -/
  node : Node
  /-- The names in each directory are distinct. -/
  distinct : node.Distinct

/-- The regular file along some names. -/
def LocalTree.HasFile (tree : LocalTree) (names : List RawFileName) (mode : ℕ) : Prop :=
  tree.node.node names = some (.file (some mode))

/-- A plan is as promised. -/
structure Planned (localPath : LocalPath) (tree : LocalTree) (remotePath : Text)
    (out : List PlannedFile) : Prop where
  /-- No local file is planned twice. -/
  once : (out.map PlannedFile.localPath).Nodup
  /-- The regular files that are reached without following links are planned, and nothing else. -/
  exact : ∀ path mode, (∃ f ∈ out, f.localPath = path ∧ f.mode = mode) ↔
    ∃ names, tree.HasFile names mode ∧ path = localPath.joinAll names
  /-- The remote paths are distinct. -/
  distinct : (out.map PlannedFile.remote).Nodup
  /-- They are sorted. -/
  sorted : out.Pairwise fun a b => textKey a.remote ≤ textKey b.remote
  /-- They have no empty, `.` or `..` component; so they do not begin with a slash. -/
  relative : ∀ f ∈ out, ∀ component ∈ f.remote.splitOn '/', isBadComponent component = false
  /-- Those of a directory are under the prefix. -/
  below : tree.node.isDir = true → ∀ f ∈ out, remotePrefix remotePath ≠ [] →
    remotePrefix remotePath ++ ['/'] <+: f.remote
  /-- They are accepted as they are. -/
  accepted : ∀ f ∈ out, normalizeRemote f.remote = .ok f.remote

/-- No two regular files have the same names after the lossy conversion. -/
def LocalTree.NoClash (tree : LocalTree) : Prop :=
  ∀ names names' mode mode', tree.HasFile names mode → tree.HasFile names' mode' →
    names.map RawFileName.toStringLossy = names'.map RawFileName.toStringLossy → names = names'

/-- What is accepted has no slash in front and no bad component. -/
theorem normalizeRemote_ok {remote r : Text} (hok : normalizeRemote remote = .ok r) :
    r = remote.dropWhile (· == '/') ∧
      (∀ component ∈ r.splitOn '/', isBadComponent component = false) ∧
      normalizeRemote r = .ok r := by
  unfold normalizeRemote at hok
  dsimp only at hok
  split_ifs at hok with hend hbad
  cases hok
  refine ⟨rfl, fun component hcomponent => ?_, ?_⟩
  · by_contra hcontra
    exact hbad (List.any_eq_true.mpr ⟨component, hcomponent, by simpa using hcontra⟩)
  · have hagain : (remote.dropWhile (· == '/')).dropWhile (· == '/') =
        remote.dropWhile (· == '/') := List.dropWhile_idempotent _ _
    unfold normalizeRemote
    dsimp only
    rw [hagain, if_neg hend, if_neg hbad]

/-- The remote path of the file along some names. -/
def remoteOf (pre : Text) (names : List RawFileName) : Text :=
  (if pre.isEmpty then [] else pre ++ ['/']) ++
    ['/'].intercalate (names.map RawFileName.toStringLossy)

/-- The prefix does not begin with a slash. -/
theorem head?_remotePrefix (remotePath : Text) : (remotePrefix remotePath).head? ≠ some '/' := by
  intro hhead
  have hbegins : remotePrefix remotePath <+: remotePath.dropWhile (· == '/') :=
    List.rdropWhile_prefix _ _
  obtain ⟨rest, hrest⟩ := hbegins
  have hdrop : (remotePath.dropWhile (· == '/')).head? = some '/' := by
    rw [← hrest, List.head?_append, hhead]
    rfl
  have hnot := List.head?_dropWhile_not (· == '/') remotePath
  rw [hdrop] at hnot
  exact absurd hnot (by decide)

/-- A remote path does not begin with a slash. -/
theorem head?_remoteOf {pre : Text} (hpre : pre.head? ≠ some '/') {names : List RawFileName} :
    (remoteOf pre names).head? ≠ some '/' := by
  unfold remoteOf
  cases pre with
  | cons c pre =>
    intro hhead
    exact hpre hhead
  | nil =>
    cases names with
    | nil => simp
    | cons name names =>
      obtain ⟨c, rest, hcons⟩ := List.exists_cons_of_ne_nil name.toStringLossy_ne_nil
      have hc : c ≠ '/' := by
        rintro rfl
        exact name.slash_notMem (by rw [hcons]; exact List.mem_cons_self)
      rw [List.map_cons, hcons]
      cases names with
      | nil => simpa using hc
      | cons name' names => simpa using hc

/-- A text that does not begin with a slash loses none. -/
theorem dropWhile_slash {t : Text} (ht : t.head? ≠ some '/') : t.dropWhile (· == '/') = t := by
  cases t with
  | nil => rfl
  | cons c t =>
    have hc : c ≠ '/' := fun h => ht (congrArg some h)
    rw [List.dropWhile_cons_of_neg (by simpa using hc)]

/-- What is planned for the file along some names. -/
theorem plannedFile_ok {root : LocalPath} {pre : Text} {mode : ℕ} {names : List RawFileName}
    (hpre : pre.head? ≠ some '/') {f : PlannedFile}
    (hok : plannedFile root (root.joinAll names) pre mode = .ok f) :
    f = ⟨root.joinAll names, remoteOf pre names, mode⟩ ∧
      normalizeRemote (remoteOf pre names) = .ok (remoteOf pre names) := by
  have hself : root.stripPrefix root = some .empty := by
    unfold Path.stripPrefix
    rw [if_pos rfl, List.isPrefixOf?_eq_some_iff_append_eq.mpr (List.append_nil _)]
    rfl
  have hposix : (Path.empty.joinAll names).toPosix (fun name => some name.toStringLossy) =
      ['/'].intercalate (names.map RawFileName.toStringLossy) := by
    unfold Path.toPosix Path.components Path.joinAll Path.empty
    simp
  unfold plannedFile at hok
  rw [Path.stripPrefix_joinAll names hself] at hok
  dsimp only at hok
  rw [hposix] at hok
  obtain ⟨r, hr, rfl⟩ := exists_of_map_ok hok
  have hremote : normalizeRemote (remoteOf pre names) = .ok r := by
    rw [← hr]
    unfold remoteOf
    cases pre with
    | nil => rfl
    | cons c pre => simp
  obtain ⟨hdrop, -, hagain⟩ := normalizeRemote_ok hremote
  rw [dropWhile_slash (head?_remoteOf hpre)] at hdrop
  rw [hdrop] at hagain ⊢
  exact ⟨rfl, hagain⟩

/-- A planned file is the local one. -/
theorem plannedFile_path {root path : LocalPath} {pre : Text} {mode : ℕ} {f : PlannedFile}
    (hok : plannedFile root path pre mode = .ok f) : f.localPath = path ∧ f.mode = mode := by
  unfold plannedFile at hok
  cases hrel : path.stripPrefix root with
  | none =>
    rw [hrel] at hok
    cases hok
  | some rel =>
    rw [hrel] at hok
    obtain ⟨r, -, rfl⟩ := exists_of_map_ok hok
    exact ⟨rfl, rfl⟩

/-- What a walk plans, file by file. -/
theorem walkEntry_ok {root : LocalPath} {pre : Text} {t : Node} (ht : t.Distinct)
    {path : LocalPath} {out : List PlannedFile} (hok : walkEntry root pre path t = .ok out) :
    FileTree.walk (fun _ _ => true) path t =
        out.map (fun f => Visit.file f.localPath (some f.mode)) ∧
      ∀ f ∈ out, plannedFile root f.localPath pre f.mode = .ok f := by
  induction ht generalizing path out with
  | blocked => cases hok
  | other =>
    cases hok
    exact ⟨rfl, nofun⟩
  | file data =>
    cases data with
    | none => cases hok
    | some mode =>
      obtain ⟨f, hf, rfl⟩ := exists_of_map_ok hok
      obtain ⟨hpath, hmode⟩ := plannedFile_path hf
      rw [List.forall_mem_singleton, List.map_singleton, hpath, hmode]
      exact ⟨rfl, hf⟩
  | dir entries hnodup hentries ih =>
    rw [FileTree.walk, if_pos rfl]
    change walkDir root pre path entries = .ok out at hok
    clear hnodup hentries
    induction entries generalizing out with
    | nil =>
      cases hok
      exact ⟨rfl, nofun⟩
    | cons entry entries ihentries =>
      obtain ⟨name, node⟩ := entry
      obtain ⟨here, hhere, hmore⟩ := exists_of_bind_ok hok
      obtain ⟨rest, hrest, rfl⟩ := exists_of_map_ok hmore
      obtain ⟨hwalk, hplanned⟩ := ih (name, node) List.mem_cons_self hhere
      obtain ⟨hwalks, hplanneds⟩ :=
        ihentries (fun e he => ih e (List.mem_cons_of_mem _ he)) hrest
      rw [FileTree.walkEntries, hwalk, hwalks, List.map_append]
      refine ⟨rfl, fun f hf => ?_⟩
      rcases List.mem_append.mp hf with hf | hf
      · exact hplanned f hf
      · exact hplanneds f hf

/-- A plan has the files along the names below the local path, each under its remote path. -/
structure Lists (localPath : LocalPath) (pre : Text) (tree : LocalTree)
    (out : List PlannedFile) : Prop where
  /-- No local file is planned twice. -/
  once : (out.map PlannedFile.localPath).Nodup
  /-- Every file is along some names. -/
  sound : ∀ f ∈ out, ∃ names, tree.HasFile names f.mode ∧
    f = ⟨localPath.joinAll names, remoteOf pre names, f.mode⟩ ∧
      normalizeRemote (remoteOf pre names) = .ok (remoteOf pre names)
  /-- Every file is planned. -/
  complete : ∀ names mode, tree.HasFile names mode →
    ⟨localPath.joinAll names, remoteOf pre names, mode⟩ ∈ out

/-- Different names lead to different paths. -/
theorem joinAll_injective (path : LocalPath) : Function.Injective path.joinAll := by
  intro names names' heq
  have hparts : path.parts ++ names.map Part.normal = path.parts ++ names'.map Part.normal :=
    congrArg Path.parts heq
  exact List.map_injective_iff.mpr (fun _ _ h => by injection h) (List.append_cancel_left hparts)

/-- The walk of a directory makes such a plan. -/
theorem lists_of_walkEntry {localPath : LocalPath} {pre : Text} {tree : LocalTree}
    (hpre : pre.head? ≠ some '/') {out : List PlannedFile}
    (hok : walkEntry localPath pre localPath tree.node = .ok out) :
    Lists localPath pre tree out := by
  obtain ⟨hwalk, hplanned⟩ := walkEntry_ok tree.distinct hok
  have hmem (path : LocalPath) (mode : ℕ) :
      Visit.file path (some mode) ∈ FileTree.walk (fun _ _ => true) localPath tree.node ↔
        ∃ names, tree.HasFile names mode ∧ path = localPath.joinAll names := by
    rw [FileTree.mem_walk tree.distinct]
    simp [LocalTree.HasFile]
  have hsound : ∀ f ∈ out, ∃ names, tree.HasFile names f.mode ∧
      f = ⟨localPath.joinAll names, remoteOf pre names, f.mode⟩ ∧
        normalizeRemote (remoteOf pre names) = .ok (remoteOf pre names) := by
    intro f hf
    have hvisit : Visit.file f.localPath (some f.mode) ∈
        FileTree.walk (fun _ _ => true) localPath tree.node := by
      rw [hwalk]
      exact List.mem_map.mpr ⟨f, hf, rfl⟩
    obtain ⟨names, hfile, hpath⟩ := (hmem _ _).mp hvisit
    have hok := hplanned f hf
    rw [hpath] at hok
    obtain ⟨heq, hremote⟩ := plannedFile_ok hpre hok
    exact ⟨names, hfile, heq, hremote⟩
  refine ⟨?_, hsound, fun names mode hfile => ?_⟩
  · have hnodup : ((FileTree.walk (fun _ _ => true) localPath tree.node).map Visit.path).Nodup :=
      FileTree.nodup_walk tree.distinct
    rw [hwalk, List.map_map] at hnodup
    exact hnodup
  · have hvisit := (hmem (localPath.joinAll names) mode).mpr ⟨names, hfile, rfl⟩
    rw [hwalk] at hvisit
    obtain ⟨f, hf, heq⟩ := List.mem_map.mp hvisit
    injection heq with hpath hmode
    obtain ⟨names', -, hplan, -⟩ := hsound f hf
    have hnames : names' = names := by
      rw [hplan] at hpath
      exact joinAll_injective localPath hpath
    rw [hnames, Option.some.inj hmode] at hplan
    rw [← hplan]
    exact hf

/-- Different names lead to different remote paths, as far as the conversion keeps them apart. -/
theorem remoteOf_inj {pre : Text} {names names' : List RawFileName} (hne : names ≠ [])
    (hne' : names' ≠ []) (heq : remoteOf pre names = remoteOf pre names') :
    names.map RawFileName.toStringLossy = names'.map RawFileName.toStringLossy := by
  have hslash (l : List RawFileName) : ∀ t ∈ l.map RawFileName.toStringLossy, '/' ∉ t := by
    intro t ht
    obtain ⟨name, -, rfl⟩ := List.mem_map.mp ht
    exact name.slash_notMem
  have hjoined := List.append_cancel_left heq
  rw [← List.splitOn_intercalate '/' (hslash names) (by simpa using hne), hjoined,
    List.splitOn_intercalate '/' (hslash names') (by simpa using hne')]

/-- The files of a plan have distinct remote paths exactly if no names clash. -/
theorem Lists.nodup_remote_iff {localPath : LocalPath} {pre : Text} {tree : LocalTree}
    {out : List PlannedFile} (hlists : Lists localPath pre tree out)
    (hdir : tree.node.isDir = true) :
    (out.map PlannedFile.remote).Nodup ↔ tree.NoClash := by
  have hbelow {names : List RawFileName} {mode : ℕ} (hfile : tree.HasFile names mode) :
      names ≠ [] := by
    rintro rfl
    unfold LocalTree.HasFile FileTree.node at hfile
    rw [Option.some.inj hfile] at hdir
    cases hdir
  rw [List.nodup_map_iff_inj_on (List.Nodup.of_map _ hlists.once)]
  constructor
  · intro hinj names names' mode mode' hfile hfile' hlossy
    have heq := hinj _ (hlists.complete names mode hfile) _ (hlists.complete names' mode' hfile')
      (by unfold remoteOf; rw [hlossy])
    injection heq with hpath
    exact joinAll_injective localPath hpath
  · intro hclash f hf g hg hremote
    obtain ⟨names, hfile, hf', -⟩ := hlists.sound f hf
    obtain ⟨names', hfile', hg', -⟩ := hlists.sound g hg
    rw [hf', hg'] at hremote
    have hnames := hclash names names' _ _ hfile hfile'
      (remoteOf_inj (hbelow hfile) (hbelow hfile') hremote)
    rw [hnames] at hfile hf'
    have hmode : f.mode = g.mode := by
      unfold LocalTree.HasFile at hfile hfile'
      rw [hfile] at hfile'
      injection hfile' with h
      injection h with h
      exact Option.some.inj h
    rw [hf', hg', hmode]

/-- A plan is the same in another order. -/
theorem Lists.perm {localPath : LocalPath} {pre : Text} {tree : LocalTree}
    {out out' : List PlannedFile} (hlists : Lists localPath pre tree out) (hperm : out'.Perm out) :
    Lists localPath pre tree out' where
  once := (hperm.map _).nodup_iff.mpr hlists.once
  sound f hf := hlists.sound f (hperm.mem_iff.mp hf)
  complete names mode hfile := hperm.mem_iff.mpr (hlists.complete names mode hfile)

/-- The plan of a directory is as promised exactly if no names clash. -/
theorem planned_dir_iff {localPath : LocalPath} {tree : LocalTree} {remotePath : Text}
    {out : List PlannedFile} (hdir : tree.node.isDir = true)
    (hok : (walkEntry localPath (remotePrefix remotePath) localPath tree.node).map
      (sortByKey fun file => textKey file.remote) = .ok out) :
    Planned localPath tree remotePath out ↔ tree.NoClash := by
  obtain ⟨walked, hwalked, rfl⟩ := exists_of_map_ok hok
  have hlists := (lists_of_walkEntry (head?_remotePrefix remotePath) hwalked).perm
    (perm_sortByKey (fun file => textKey file.remote) walked)
  rw [← hlists.nodup_remote_iff hdir]
  refine ⟨Planned.distinct, fun hdistinct => ?_⟩
  refine ⟨hlists.once, fun path mode => ⟨?_, ?_⟩, hdistinct, pairwise_sortByKey _ _,
    fun f hf => ?_, fun _ f hf hpre => ?_, fun f hf => ?_⟩
  · rintro ⟨f, hf, rfl, rfl⟩
    obtain ⟨names, hfile, hplan, -⟩ := hlists.sound f hf
    exact ⟨names, hfile, congrArg PlannedFile.localPath hplan⟩
  · rintro ⟨names, hfile, rfl⟩
    exact ⟨_, hlists.complete names mode hfile, rfl, rfl⟩
  · obtain ⟨names, -, hplan, hremote⟩ := hlists.sound f hf
    rw [hplan]
    exact (normalizeRemote_ok hremote).2.1
  · obtain ⟨names, -, hplan, -⟩ := hlists.sound f hf
    rw [hplan]
    unfold remoteOf
    rw [if_neg (by simpa using hpre)]
    exact List.prefix_append _ _
  · obtain ⟨names, -, hplan, hremote⟩ := hlists.sound f hf
    rw [hplan]
    exact hremote

/-- The plan of a file is as promised. -/
theorem planned_file {localPath : LocalPath} {tree : LocalTree} {mode : ℕ}
    (hfile : tree.node = .file (some mode)) (remotePath : Text) {remote r : Text}
    (hremote : normalizeRemote remote = .ok r) :
    Planned localPath tree remotePath [⟨localPath, r, mode⟩] := by
  obtain ⟨-, hcomponents, hagain⟩ := normalizeRemote_ok hremote
  refine ⟨List.nodup_singleton _, fun path mode' => ⟨?_, ?_⟩, List.nodup_singleton _,
    List.pairwise_singleton _ _, ?_, fun hdir => ?_, ?_⟩
  · rintro ⟨f, hf, rfl, rfl⟩
    rw [List.mem_singleton.mp hf]
    exact ⟨[], by unfold LocalTree.HasFile; rw [hfile]; rfl, (Path.joinAll_nil _).symm⟩
  · rintro ⟨names, hnames, rfl⟩
    unfold LocalTree.HasFile at hnames
    rw [hfile] at hnames
    cases names with
    | nil =>
      injection Option.some.inj hnames with hmode
      exact ⟨_, List.mem_singleton_self _, (Path.joinAll_nil _).symm, Option.some.inj hmode⟩
    | cons name names => cases hnames
  · rw [List.forall_mem_singleton]
    exact hcomponents
  · rw [hfile] at hdir
    cases hdir
  · rw [List.forall_mem_singleton]
    exact hagain

/-- **A plan that is made is as promised exactly if no two files have the same names after the
lossy conversion.** -/
theorem planned_iff_noClash (localPath : LocalPath) (tree : LocalTree) (remotePath : Text)
    (out : List PlannedFile) (hok : planUpload localPath (some tree.node) remotePath = .ok out) :
    Planned localPath tree remotePath out ↔ tree.NoClash := by
  unfold planUpload at hok
  cases hnode : tree.node with
  | blocked =>
    rw [hnode] at hok
    cases hok
  | other =>
    rw [hnode] at hok
    cases hok
  | dir entries =>
    have hdir : tree.node.isDir = true := by
      rw [hnode]
      rfl
    rw [hnode] at hok
    exact planned_dir_iff hdir (by rw [hnode]; exact hok)
  | file data =>
    rw [hnode] at hok
    cases data with
    | none => cases hok
    | some mode =>
      obtain ⟨r, hr, rfl⟩ := exists_of_map_ok hok
      obtain ⟨remote, -, hremote⟩ := exists_of_bind_ok hr
      refine iff_of_true (planned_file hnode remotePath hremote) ?_
      intro names names' mode mode' hfile hfile' _
      unfold LocalTree.HasFile at hfile hfile'
      rw [hnode] at hfile hfile'
      cases names with
      | cons name names => cases hfile
      | nil =>
        cases names' with
        | cons name names => cases hfile'
        | nil => rfl

/-- A name of one byte that is no text. -/
def oddName (byte : UInt8) (hbyte : 128 ≤ byte) : RawFileName where
  bytes := [byte]
  ne_nil := List.cons_ne_nil _ _
  no_slash := by
    rw [List.mem_singleton]
    rintro rfl
    exact absurd hbyte (by decide)
  no_nul := by
    rw [List.mem_singleton]
    rintro rfl
    exact absurd hbyte (by decide)
  no_dots := by
    constructor
    · rintro h
      rw [List.singleton_inj.mp h] at hbyte
      exact absurd hbyte (by decide)
    · rintro h
      cases h

/-- A directory with one or two such files. -/
def oddTree (names : List RawFileName) (hnames : names.Nodup) : LocalTree where
  node := .dir (names.map fun name => (name, .file (some 0o644)))
  distinct := by
    refine .dir _ ?_ fun entry hentry => ?_
    · rw [List.map_map]
      exact (List.map_id names).symm ▸ hnames
    · obtain ⟨name, -, rfl⟩ := List.mem_map.mp hentry
      exact .file _

/-- The path `data`. -/
def dataDir : LocalPath :=
  ⟨false, [.normal ⟨[100, 97, 116, 97], by decide, by decide, by decide, by decide⟩]⟩

/-- The name `a`. -/
def rawA : RawFileName := ⟨[97], by decide, by decide, by decide, by decide⟩

/-- The name `b`. -/
def rawB : RawFileName := ⟨[98], by decide, by decide, by decide, by decide⟩

/-- A directory below another one, and a file beside it; one file has a name that is no text. -/
def nestedTree : LocalTree where
  node := .dir [(rawA, .dir [(oddName 0xFF (by decide), .file (some 0o644)),
    (rawB, .file (some 0o755))]), (rawB, .file (some 0o644))]
  distinct := by
    refine .dir _ (by decide) fun entry hentry => ?_
    rcases List.mem_cons.mp hentry with rfl | hentry
    · refine .dir _ (by decide) fun entry hentry => ?_
      rcases List.mem_cons.mp hentry with rfl | hentry
      · exact .file _
      · rw [List.mem_singleton.mp hentry]
        exact .file _
    · rw [List.mem_singleton.mp hentry]
      exact .file _

/-- Its files. -/
theorem hasFile_nestedTree {names : List RawFileName} {mode : ℕ}
    (hfile : nestedTree.HasFile names mode) :
    names ∈ [[rawA, oddName 0xFF (by decide)], [rawA, rawB], [rawB]] := by
  have hfileNode {m : ℕ} {rest : List RawFileName}
      (h : (FileTree.file (some m)).node rest = some (.file (some mode))) : rest = [] := by
    cases rest with
    | nil => rfl
    | cons name rest => cases h
  cases names with
  | nil => cases hfile
  | cons name rest =>
    obtain ⟨t, ht, hrest⟩ := (FileTree.node_dir (by decide)).mp hfile
    rcases List.mem_cons.mp ht with h | ht
    · cases h
      cases rest with
      | nil => cases hrest
      | cons name rest =>
        obtain ⟨t, ht, hrest⟩ := (FileTree.node_dir (by decide)).mp hrest
        rcases List.mem_cons.mp ht with h | ht
        · cases h
          rw [hfileNode hrest]
          exact List.mem_cons_self
        · cases List.mem_singleton.mp ht
          rw [hfileNode hrest]
          exact List.mem_cons_of_mem _ List.mem_cons_self
    · cases List.mem_singleton.mp ht
      rw [hfileNode hrest]
      exact List.mem_cons_of_mem _ (List.mem_cons_of_mem _ List.mem_cons_self)

/-- A nested directory is planned as promised, though one of its names is no text. -/
theorem planned_iff_noClash_nested :
    ∃ out, Planned dataDir nestedTree "up/".toList out := by
  have hok : planUpload dataDir (some nestedTree.node) "up/".toList = .ok
      [⟨(dataDir.join rawA).join rawB, "up/a/b".toList, 0o755⟩,
        ⟨(dataDir.join rawA).join (oddName 0xFF (by decide)), "up/a/".toList ++ [replacement],
          0o644⟩,
        ⟨dataDir.join rawB, "up/b".toList, 0o644⟩] := by
    decide +kernel
  refine ⟨_, (planned_iff_noClash _ _ _ _ hok).mpr ?_⟩
  intro names names' mode mode' hfile hfile' hsame
  have hall : ∀ names ∈ [[rawA, oddName 0xFF (by decide)], [rawA, rawB], [rawB]],
      ∀ names' ∈ [[rawA, oddName 0xFF (by decide)], [rawA, rawB], [rawB]],
        names.map RawFileName.toStringLossy = names'.map RawFileName.toStringLossy →
          names = names' := by
    decide +kernel
  exact hall names (hasFile_nestedTree hfile) names' (hasFile_nestedTree hfile') hsame

/-- Two files get the same remote path. -/
theorem odd_names_clash :
    ¬ ∀ localPath tree remotePath out, planUpload localPath (some tree.node) remotePath = .ok out →
      Planned localPath tree remotePath out := by
  intro hclaim
  have hplanned := hclaim dataDir
    (oddTree [oddName 0xFF (by decide), oddName 0xFE (by decide)] (by decide)) "up/".toList
    [⟨dataDir.join (oddName 0xFF (by decide)), "up/".toList ++ [replacement], 0o644⟩,
      ⟨dataDir.join (oddName 0xFE (by decide)), "up/".toList ++ [replacement], 0o644⟩]
    (by decide +kernel)
  exact absurd hplanned.distinct (by decide)

end ModalRust.Sdk.VolumePlan
