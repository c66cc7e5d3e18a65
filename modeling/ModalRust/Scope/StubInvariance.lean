import ModalRust.Scope.Closure
import ModalRust.Scope.StubComplete

/-!
# What a stub depends on

The layer that prebuilds dependencies is cached by the content of its stub, so the stub must not
change when a source is edited, nor when cargo reports packages, dependencies or targets in another
order. A stub reads manifests only, and sorts what it makes; but of several targets with one source
path the first one decides, so these must have the same stub.
-/

namespace ModalRust.Scope

/-- The same package with its dependencies and targets in another order. -/
def Package.Shuffled (p p' : Package) : Prop :=
  ∃ dependencies targets, p.dependencies.Perm dependencies ∧ p.targets.Perm targets ∧
    p' = { p with dependencies, targets }

/-- The same report with packages, dependencies and targets in another order. -/
def Metadata.Shuffled (m m' : Metadata) : Prop :=
  ∃ packages, m.packages.Perm packages ∧ List.Forall₂ Package.Shuffled packages m'.packages ∧
    m'.workspaceMembers = m.workspaceMembers ∧ m'.workspaceRoot = m.workspaceRoot

/-- Two disks with the same manifests and lock files. -/
structure Disk.SameManifests (m : Metadata) (disk disk' : Disk) : Prop where
  /-- The texts of manifests. -/
  manifest : ∀ dir : FilePath,
    disk.readToString (dir.join cargoToml) = disk'.readToString (dir.join cargoToml)
  /-- The texts of the manifests in the report. -/
  manifestPath : ∀ p ∈ m.packages,
    disk.readToString p.manifestPath = disk'.readToString p.manifestPath
  /-- Which manifests there are. -/
  isFile : ∀ dir : FilePath, disk.isFile (dir.join cargoToml) = disk'.isFile (dir.join cargoToml)
  /-- Which lock files there are. -/
  lock : ∀ dir : FilePath, disk.isFile (dir.join cargoLock) = disk'.isFile (dir.join cargoLock)

/-- Stub sources of the packages of a closure that have one path have one body. -/
def Metadata.OneBody (m : Metadata) (dirs : List FilePath) : Prop :=
  ∀ p ∈ stubPackages m dirs, ∀ q ∈ stubPackages m dirs, ∀ path body body',
    (path, body) ∈ stubSources m.workspaceRoot p → (path, body') ∈ stubSources m.workspaceRoot q →
      body = body'

/-- The library targets of a package have one name. -/
def Package.OneLibrary (p : Package) : Prop :=
  ∀ t ∈ p.targets, ∀ t' ∈ p.targets, "lib".toList ∈ t.kind → "lib".toList ∈ t'.kind →
    t.name = t'.name

section Bare

/-- A package without its targets. -/
def Package.bare (p : Package) : Package := { p with targets := [] }

/-- A report without targets. -/
def Metadata.bare (m : Metadata) : Metadata := { m with packages := m.packages.map Package.bare }

variable {m m' : Metadata}

/-- The members are the same. -/
theorem Metadata.bare_members : m.bare.members = m.members.map Package.bare := by
  unfold Metadata.members Metadata.bare
  rw [List.filter_map]
  rfl

/-- Their directories are the same. -/
theorem Metadata.bare_memberDirs : m.bare.memberDirs = m.memberDirs := by
  unfold Metadata.memberDirs
  rw [Metadata.bare_members, List.map_map]
  rfl

/-- The index is the same. -/
theorem Metadata.bare_byDir (dir : FilePath) :
    m.bare.byDir dir = (m.byDir dir).map Package.bare := by
  unfold Metadata.byDir
  rw [Metadata.bare_members, ← List.map_reverse, List.find?_map]
  rfl

/-- The dependencies are the same. -/
theorem Metadata.bare_normalDeps (dir : FilePath) : m.bare.normalDeps dir = m.normalDeps dir := by
  unfold Metadata.normalDeps
  rw [Metadata.bare_byDir]
  cases m.byDir dir <;> rfl

/-- The target package is the same. -/
theorem Metadata.bare_target (package : Text) :
    m.bare.target package = (m.target package).map Package.bare := by
  unfold Metadata.target
  change (m.packages.map Package.bare).find? _ = _
  rw [List.find?_map]
  rfl

/-- A closure does not depend on targets. -/
theorem closureFromMetadata_bare (package : Text) :
    closureFromMetadata m.bare package = closureFromMetadata m package := by
  have hnext : m.bare.next = m.next := by
    funext dir
    unfold Metadata.next
    rw [Metadata.bare_normalDeps, Metadata.bare_memberDirs]
  have hvisit : m.bare.visit = m.visit := by
    funext escaped dir
    unfold Metadata.visit
    rw [Metadata.bare_normalDeps, Metadata.bare_memberDirs]
  unfold closureFromMetadata
  rw [Metadata.bare_target, hnext, hvisit, Metadata.bare_memberDirs]
  cases m.target package <;> rfl

/-- Without targets, shuffling is reordering. -/
theorem Metadata.Shuffled.bare (h : m.Shuffled m') : m.bare.Reordered m'.bare := by
  obtain ⟨packages, hperm, hpackages, hmembers, hroot⟩ := h
  refine ⟨packages.map Package.bare, hperm.map _, ?_, hmembers, hroot⟩
  change List.Forall₂ _ _ (m'.packages.map Package.bare)
  rw [List.forall₂_map_left_iff, List.forall₂_map_right_iff]
  refine hpackages.imp fun p p' hp => ?_
  obtain ⟨dependencies, targets, hdependencies, -, rfl⟩ := hp
  exact ⟨dependencies, hdependencies, rfl⟩

/-- A reordered report has the same closures. -/
theorem closureFromMetadata_of_reordered (h : m.Reordered m') (hdirs : m.memberDirs.Nodup)
    {package : Text}
    (hname : ∀ p ∈ m.members, ∀ q ∈ m.members, p.name = package → q.name = package → p = q) :
    closureFromMetadata m' package = closureFromMetadata m package := by
  cases htarget : m.target package with
  | some target =>
    obtain ⟨target', htarget', hsame⟩ := h.target hname htarget
    obtain ⟨r, hr, hsel⟩ := closureFromMetadata_selects hdirs htarget
    obtain ⟨r', hr', hsel'⟩ :=
      closureFromMetadata_selects (h.memberDirs.nodup_iff.mp hdirs) htarget'
    rw [hr, hr', hsel.eq_of_reordered hsel' h hsame]
  | none =>
    have hnone := Metadata.target_eq_none.mp htarget
    have hnone' : ∀ p' ∈ m'.members, p'.name ≠ package := fun p' hp' heq => by
      obtain ⟨p, hp, hsame⟩ := h.symm.exists_member hp'
      exact hnone p hp (hsame.same.2.1.symm.trans heq)
    rw [closureFromMetadata_eq_none.mpr hnone, closureFromMetadata_eq_none.mpr hnone']

end Bare

section Shuffled

variable {m m' : Metadata}

/-- Shuffling can be undone. -/
theorem Package.Shuffled.symm {p p' : Package} (h : p.Shuffled p') : p'.Shuffled p := by
  obtain ⟨dependencies, targets, hdependencies, htargets, rfl⟩ := h
  exact ⟨p.dependencies, p.targets, hdependencies.symm, htargets.symm, rfl⟩

/-- Shuffling a report can be undone. -/
theorem Metadata.Shuffled.symm (h : m.Shuffled m') : m'.Shuffled m := by
  obtain ⟨packages, hperm, hpackages, hmembers, hroot⟩ := h
  obtain ⟨packages', hpackages', hperm'⟩ := List.perm_comp_forall₂ hperm hpackages
  refine ⟨packages', hperm'.symm, ?_, hmembers.symm, hroot.symm⟩
  exact List.Forall₂.flip (hpackages'.imp fun _ _ h => h.symm)

/-- A member of the report is a member of the shuffled one. -/
theorem Metadata.Shuffled.exists_member (h : m.Shuffled m') {p : Package} (hp : p ∈ m.members) :
    ∃ p' ∈ m'.members, p.Shuffled p' := by
  obtain ⟨packages, hperm, hpackages, hmembers, -⟩ := h
  obtain ⟨hpackage, hid⟩ := List.mem_filter.mp hp
  obtain ⟨p', hp', hsame⟩ := exists_of_forall₂ hpackages (hperm.mem_iff.mp hpackage)
  refine ⟨p', List.mem_filter.mpr ⟨hp', ?_⟩, hsame⟩
  obtain ⟨_, _, -, -, rfl⟩ := hsame
  rw [hmembers]
  exact hid

/-- The first member with the name is the same one, if there is no other with this name. -/
theorem Metadata.Shuffled.target (h : m.Shuffled m') {package : Text}
    (hname : ∀ p ∈ m.members, ∀ q ∈ m.members, p.name = package → q.name = package → p = q) :
    m.target package = none ∧ m'.target package = none ∨
      ∃ p p', m.target package = some p ∧ m'.target package = some p' ∧ p.Shuffled p' := by
  cases htarget : m.target package with
  | none =>
    have hnone := Metadata.target_eq_none.mp htarget
    refine .inl ⟨rfl, Metadata.target_eq_none.mpr fun p' hp' heq => ?_⟩
    obtain ⟨p, hp, _, _, -, -, rfl⟩ := h.symm.exists_member hp'
    exact hnone _ hp heq
  | some p =>
    obtain ⟨hmem, hpackage⟩ := Metadata.mem_of_target htarget
    cases htarget' : m'.target package with
    | none =>
      obtain ⟨p', hp', _, _, -, -, rfl⟩ := h.exists_member hmem
      have hother := Metadata.target_eq_none.mp htarget' _ hp'
      exact absurd hpackage hother
    | some p' =>
      obtain ⟨hmem', hpackage'⟩ := Metadata.mem_of_target htarget'
      obtain ⟨q, hq, hsame⟩ := h.symm.exists_member hmem'
      have hqname : q.name = package := by
        obtain ⟨_, _, -, -, rfl⟩ := hsame
        exact hpackage'
      obtain rfl := hname p hmem q hq hpackage hqname
      exact .inr ⟨p, p', rfl, rfl, hsame.symm⟩

/-- The closures are the same. -/
theorem Metadata.Shuffled.closure (h : m.Shuffled m') (hdirs : m.memberDirs.Nodup)
    {package : Text}
    (hname : ∀ p ∈ m.members, ∀ q ∈ m.members, p.name = package → q.name = package → p = q) :
    closureFromMetadata m' package = closureFromMetadata m package := by
  rw [← closureFromMetadata_bare, ← closureFromMetadata_bare (m := m)]
  refine closureFromMetadata_of_reordered h.bare ?_ ?_
  · rw [Metadata.bare_memberDirs]
    exact hdirs
  · rw [Metadata.bare_members]
    intro _ hbare _ hbare' hpname hqname
    obtain ⟨p, hp, rfl⟩ := List.mem_map.mp hbare
    obtain ⟨q, hq, rfl⟩ := List.mem_map.mp hbare'
    rw [hname p hp q hq hpname hqname]

/-- A package that gets stub sources gets them in the shuffled report. -/
theorem Metadata.Shuffled.exists_stubPackage (h : m.Shuffled m') {dirs : List FilePath}
    {p : Package} (hp : p ∈ stubPackages m dirs) :
    ∃ p' ∈ stubPackages m' dirs, p.Shuffled p' := by
  obtain ⟨hmem, hdir⟩ := List.mem_filter.mp ((List.mem_insertionSort _).mp hp)
  obtain ⟨p', hp', hsame⟩ := h.exists_member hmem
  refine ⟨p', (List.mem_insertionSort _).mpr (List.mem_filter.mpr ⟨hp', ?_⟩), hsame⟩
  obtain ⟨_, _, -, -, rfl⟩ := hsame
  exact hdir

/-- A package has the same stub sources in another order. -/
theorem Package.Shuffled.mem_stubSources {p p' : Package} (h : p.Shuffled p') {root : FilePath}
    {file : Text × Text} : file ∈ stubSources root p ↔ file ∈ stubSources root p' := by
  obtain ⟨dependencies, targets, -, htargets, rfl⟩ := h
  have hempty : p.targets.isEmpty = targets.isEmpty := htargets.isEmpty_eq
  unfold stubSources
  rw [List.mem_append, List.mem_append, (htargets.filterMap _).mem_iff, hempty]
  rfl

end Shuffled

section Stub

variable {m m' : Metadata}

/-- The stub sources of a report, in the order in which they are added. -/
def stubSourceList (m : Metadata) (dirs : List FilePath) : List (Text × Text) :=
  (stubPackages m dirs).flatMap (stubSources m.workspaceRoot)

/-- Where each path has one body, a source that is listed is the one that is found. -/
theorem lookup_stubSourceList {dirs : List FilePath} (hbody : m.OneBody dirs) {path body : Text} :
    (stubSourceList m dirs).lookup path = some body ↔ (path, body) ∈ stubSourceList m dirs := by
  refine ⟨mem_of_lookup, fun hmem => ?_⟩
  cases hlookup : (stubSourceList m dirs).lookup path with
  | none =>
    have hne := List.lookup_eq_none_iff.mp hlookup _ hmem
    exact absurd rfl (bne_iff_ne.mp hne)
  | some body' =>
    obtain ⟨p, hp, hpath⟩ := List.mem_flatMap.mp hmem
    obtain ⟨q, hq, hpath'⟩ := List.mem_flatMap.mp (mem_of_lookup hlookup)
    rw [hbody p hp q hq path body body' hpath hpath']

/-- What is added to the files of a closure: each path once, none that they have. -/
theorem foldl_pushAbsent (files sources : List (Text × Text)) :
    ∃ added, sources.foldl pushAbsent files = files ++ added ∧ (added.map Prod.fst).Nodup ∧
      ∀ path body, (path, body) ∈ added ↔
        path ∉ files.map Prod.fst ∧ sources.lookup path = some body := by
  have hprefix : ∃ added, sources.foldl pushAbsent files = files ++ added ∧
      (added.map Prod.fst).Nodup ∧ ∀ path ∈ added.map Prod.fst, path ∉ files.map Prod.fst := by
    induction sources generalizing files with
    | nil => exact ⟨[], (List.append_nil _).symm, List.nodup_nil, nofun⟩
    | cons source sources ih =>
      rw [List.foldl_cons, pushAbsent]
      by_cases hold : source.1 ∈ files.map Prod.fst
      · rw [if_pos hold]
        exact ih files
      · rw [if_neg hold]
        obtain ⟨added, heq, hnodup, hfree⟩ := ih (files ++ [source])
        refine ⟨source :: added, ?_, List.nodup_cons.mpr ⟨fun hmem => ?_, hnodup⟩, ?_⟩
        · rw [heq, List.append_assoc]
          rfl
        · refine hfree _ hmem ?_
          rw [List.map_append]
          exact List.mem_append_right _ (List.mem_singleton.mpr rfl)
        · intro path hpath
          rcases List.mem_cons.mp hpath with rfl | hpath
          · exact hold
          · intro hmem
            refine hfree path hpath ?_
            rw [List.map_append]
            exact List.mem_append_left _ hmem
  obtain ⟨added, heq, hnodup, hfree⟩ := hprefix
  refine ⟨added, heq, hnodup, fun path body => ?_⟩
  have hmem : (path, body) ∈ sources.foldl pushAbsent files ↔ _ := mem_foldl_pushAbsent
  rw [heq, List.mem_append] at hmem
  constructor
  · intro hadded
    have hnew := hfree path (List.mem_map_of_mem hadded)
    exact (hmem.mp (.inr hadded)).resolve_left fun hold => hnew (List.mem_map_of_mem hold)
  · rintro ⟨hnew, hlookup⟩
    exact (hmem.mpr (.inr ⟨hnew, hlookup⟩)).resolve_left fun hold => hnew (List.mem_map_of_mem hold)

/-- Sources with the same first choices make the same sorted files. -/
theorem sortByKey_pushAbsent_congr (files : List (Text × Text))
    {sources sources' : List (Text × Text)}
    (hsame : ∀ path, sources.lookup path = sources'.lookup path) :
    sortByKey (fun file => textKey file.1) (sources.foldl pushAbsent files) =
      sortByKey (fun file => textKey file.1) (sources'.foldl pushAbsent files) := by
  obtain ⟨added, heq, hnodup, hadded⟩ := foldl_pushAbsent files sources
  obtain ⟨added', heq', hnodup', hadded'⟩ := foldl_pushAbsent files sources'
  have hperm : added.Perm added' := by
    refine (List.perm_ext_iff_of_nodup (hnodup.of_map _) (hnodup'.of_map _)).mpr ?_
    rintro ⟨path, body⟩
    rw [hadded, hadded', hsame]
  have hkeys : (added.map fun file => textKey file.1).Nodup := by
    have hmapped := hnodup.map textKey_injective
    rwa [List.map_map] at hmapped
  rw [heq, heq']
  refine sortByKey_congr _ fun k => ?_
  unfold withKey
  rw [List.filter_append, List.filter_append]
  exact congrArg _ (withKey_perm (fun file : Text × Text => textKey file.1) hkeys hperm k)

/-- The stub of a closure is the same in any order of the report. -/
theorem Metadata.Shuffled.stubUpload (h : m.Shuffled m') (package : Text) {closure : ClosureUpload}
    (hbody : m.OneBody closure.dirs) :
    stubUploadFromClosure m' package closure = stubUploadFromClosure m package closure := by
  have hroot : m'.workspaceRoot = m.workspaceRoot := h.choose_spec.2.2.2
  have hlisted : ∀ {n n' : Metadata}, n.Shuffled n' → ∀ file,
      file ∈ stubSourceList n closure.dirs → file ∈ stubSourceList n' closure.dirs := by
    intro n n' hn file hfile
    obtain ⟨p, hp, hsource⟩ := List.mem_flatMap.mp hfile
    obtain ⟨p', hp', hsame⟩ := hn.exists_stubPackage hp
    refine List.mem_flatMap.mpr ⟨p', hp', ?_⟩
    rw [hn.choose_spec.2.2.2]
    exact hsame.mem_stubSources.mp hsource
  have hbody' : m'.OneBody closure.dirs := by
    intro p' hp' q' hq' path body body' hpath hpath'
    obtain ⟨p, hp, hsame⟩ := h.symm.exists_stubPackage hp'
    obtain ⟨q, hq, hsame'⟩ := h.symm.exists_stubPackage hq'
    rw [hroot] at hpath hpath'
    exact hbody p hp q hq path body body' (hsame.mem_stubSources.mp hpath)
      (hsame'.mem_stubSources.mp hpath')
  have hlookup : ∀ path, (stubSourceList m' closure.dirs).lookup path =
      (stubSourceList m closure.dirs).lookup path := by
    intro path
    refine Option.ext fun body => ?_
    rw [lookup_stubSourceList hbody, lookup_stubSourceList hbody']
    exact ⟨hlisted h.symm _, hlisted h _⟩
  have hfiles := sortByKey_pushAbsent_congr closure.inlineFiles hlookup
  exact congrArg (StubUpload.mk closure.extraFiles) hfiles

end Stub

section Disk

variable {m m' : Metadata} {disk disk' : Disk}

/-- The library is found whatever the order of the targets. -/
theorem Package.Shuffled.libIdentOf {p p' : Package} (h : p.Shuffled p') (hlib : p.OneLibrary) :
    Scope.libIdentOf p' = Scope.libIdentOf p := by
  obtain ⟨dependencies, targets, -, htargets, rfl⟩ := h
  unfold Scope.libIdentOf
  dsimp only
  cases hfind : p.targets.find? fun t => "lib".toList ∈ t.kind with
  | none =>
    have hnone : targets.find? (fun t => "lib".toList ∈ t.kind) = none := by
      rw [List.find?_eq_none] at hfind ⊢
      exact fun t ht => hfind t (htargets.mem_iff.mpr ht)
    rw [hnone]
  | some t =>
    have hkind := List.find?_some hfind
    have hsome : (targets.find? fun t => "lib".toList ∈ t.kind).isSome :=
      List.find?_isSome.mpr ⟨t, htargets.mem_iff.mp (List.mem_of_find?_eq_some hfind), hkind⟩
    obtain ⟨t', hfind'⟩ := Option.isSome_iff_exists.mp hsome
    have hkind' := List.find?_some hfind'
    rw [hfind']
    exact hlib t' (htargets.mem_iff.mpr (List.mem_of_find?_eq_some hfind')) t
      (List.mem_of_find?_eq_some hfind) (of_decide_eq_true hkind') (of_decide_eq_true hkind)

/-- The injected runner is the same. -/
theorem injectedRunner_eq (toml : TomlEdit) (h : m.Shuffled m')
    (hdisk : Disk.SameManifests m disk disk')
    {package : Text}
    (hname : ∀ p ∈ m.members, ∀ q ∈ m.members, p.name = package → q.name = package → p = q)
    (hlib : ∀ p ∈ m.members, p.name = package → p.OneLibrary) :
    injectedRunnerFileFromMetadata toml disk' m' package =
      injectedRunnerFileFromMetadata toml disk m package := by
  have hroot : m'.workspaceRoot = m.workspaceRoot := h.choose_spec.2.2.2
  unfold injectedRunnerFileFromMetadata resolveFromMetadata
  rcases h.target hname with ⟨hnone, hnone'⟩ | ⟨p, p', hp, hp', hsame⟩
  · rw [hnone, hnone']
    rfl
  · obtain ⟨hmem, hpackage⟩ := Metadata.mem_of_target hp
    have hident := hsame.libIdentOf (hlib p hmem hpackage)
    have hread := hdisk.manifestPath p (List.mem_filter.mp hmem).1
    obtain ⟨dependencies, targets, -, htargets, rfl⟩ := hsame
    have hown : hasModalRunnerBin { p with dependencies, targets } = hasModalRunnerBin p :=
      htargets.symm.any_eq
    rw [hp, hp', Option.map_some, Option.map_some, Option.bind_some, Option.bind_some, hident, hown,
      hroot, hread]
    rfl

/-- The upload of a closure is the same. -/
theorem buildClosureUpload_eq (toml : TomlEdit) (h : m.Shuffled m')
    (hdisk : Disk.SameManifests m disk disk') {package : Text} (dirs : List FilePath)
    (hname : ∀ p ∈ m.members, ∀ q ∈ m.members, p.name = package → q.name = package → p = q)
    (hlib : ∀ p ∈ m.members, p.name = package → p.OneLibrary) :
    buildClosureUpload toml disk' m' package dirs =
      buildClosureUpload toml disk m package dirs := by
  have hroot : m'.workspaceRoot = m.workspaceRoot := h.choose_spec.2.2.2
  have hoverride : memberOverride toml disk' m.workspaceRoot =
      memberOverride toml disk m.workspaceRoot := by
    funext dir
    unfold memberOverride
    rw [hdisk.manifest]
  unfold buildClosureUpload
  rw [injectedRunner_eq toml h hdisk hname hlib, hroot, ← hdisk.manifest, hoverride]
  have hlock := hdisk.lock m.workspaceRoot
  have hextra : [m.workspaceRoot.join cargoLock].filter disk'.isFile =
      [m.workspaceRoot.join cargoLock].filter disk.isFile := by
    rw [List.filter_cons, List.filter_cons, hlock]
    rfl
  rw [hextra]

/-- **A stub depends on manifests only.** Where the members have distinct directories, the package
has one name and one library, and targets with one source path have one stub, the stub is the same
for every workspace with the same manifests and lock file, whatever its sources, and whatever the
order of the packages, dependencies and targets in the report. -/
theorem stub_ignores_sources_and_order (toml : TomlEdit) (h : m.Shuffled m')
    (hdisk : Disk.SameManifests m disk disk') {workspaceRoot : FilePath} {package : Text}
    {cargoMetadata cargoMetadata' : FilePath → Option Metadata}
    (hreport : cargoMetadata (workspaceRoot.join cargoToml) = some m)
    (hreport' : cargoMetadata' (workspaceRoot.join cargoToml) = some m')
    (hdirs : m.memberDirs.Nodup)
    (hname : ∀ p ∈ m.members, ∀ q ∈ m.members, p.name = package → q.name = package → p = q)
    (hlib : ∀ p ∈ m.members, p.name = package → p.OneLibrary)
    (hbody : ∀ r, closureFromMetadata m package = some r → m.OneBody r.dirs) :
    workspaceClosureStub toml disk' cargoMetadata' workspaceRoot package =
      workspaceClosureStub toml disk cargoMetadata workspaceRoot package := by
  unfold workspaceClosureStub resolveClosure
  dsimp only
  rw [← hdisk.isFile, hreport, hreport']
  dsimp only
  rw [h.closure hdirs hname]
  cases disk.isFile (workspaceRoot.join cargoToml) with
  | false => rfl
  | true =>
    cases hclosure : closureFromMetadata m package with
    | none => rfl
    | some r =>
      by_cases hout : r.outOfWorkspace = []
      · simp only [hout, Bool.not_true, Bool.false_eq_true, if_false, if_true]
        change Except.ok _ = Except.ok _
        dsimp only
        rw [Option.bind_some, Option.bind_some, buildClosureUpload_eq toml h hdisk _ hname hlib]
        cases hbuild : buildClosureUpload toml disk m package r.dirs with
        | none => rfl
        | some closure =>
          obtain ⟨_, _, -, -, hsame, -⟩ := buildClosureUpload_spec hbuild
          rw [Option.map_some, Option.map_some, h.stubUpload package]
          rw [hsame]
          exact hbody r hclosure
      · simp only [hout, Bool.not_true, Bool.false_eq_true, if_false]
        rfl

/-- The root source of a binary. -/
def nameMain : FileName := ⟨"main.rs".toList, by decide, by decide, by decide⟩

/-- A package with a library and a binary. -/
def bothTargets (targets : List Target → List Target) : Metadata where
  workspaceMembers := ["a".toList]
  workspaceRoot := wsDir
  packages :=
    [{ id := "a".toList
       name := "a".toList
       manifestPath := (wsDir.join nameA).join cargoToml
       dependencies := []
       targets := targets
        [⟨["lib".toList], "a".toList, ((wsDir.join nameA).join nameSrc).join nameLib⟩,
          ⟨["bin".toList], "a".toList, ((wsDir.join nameA).join nameSrc).join nameMain⟩] }]

/-- The disk of the examples with a source. -/
def sourceDisk (source : Text) : Disk where
  readToString path :=
    if path = (((wsDir.join nameA).join nameSrc).join nameLib) then some source
    else (exampleDisk devMember).readToString path
  isFile path := path = wsDir.join cargoToml

/-- Editing the library and reporting its targets in another order does not change the stub. -/
theorem stub_ignores_sources_and_order_both :
    workspaceClosureStub exampleToml (sourceDisk "pub fn f() {}".toList)
        (fun _ => some (bothTargets List.reverse)) wsDir "a".toList =
      workspaceClosureStub exampleToml (sourceDisk []) (fun _ => some (bothTargets id)) wsDir
        "a".toList := by
  have hmember : ∀ p ∈ (bothTargets id).members, p ∈ (bothTargets id).packages :=
    fun p hp => (List.mem_filter.mp hp).1
  refine stub_ignores_sources_and_order exampleToml ?_ ?_ rfl rfl (by decide) ?_ ?_ ?_
  · refine ⟨(bothTargets id).packages, .refl _, .cons ⟨[], _, .refl _, ?_, rfl⟩ .nil, rfl, rfl⟩
    exact (List.reverse_perm _).symm
  · -- a manifest is not the edited source
    have hsame : ∀ dir : FilePath, (sourceDisk []).readToString (dir.join cargoToml) =
        (sourceDisk "pub fn f() {}".toList).readToString (dir.join cargoToml) := by
      intro dir
      have hne : dir.join cargoToml ≠ ((wsDir.join nameA).join nameSrc).join nameLib := by
        intro heq
        have hlast := congrArg (fun p : FilePath => p.parts.getLast?) heq
        simp only [Path.join, List.getLast?_concat] at hlast
        exact absurd hlast (by decide)
      unfold sourceDisk
      dsimp only
      rw [if_neg hne, if_neg hne]
    refine ⟨hsame, fun p hp => ?_, fun _ => rfl, fun _ => rfl⟩
    rw [List.mem_singleton.mp hp]
    exact hsame (wsDir.join nameA)
  · intro p hp q hq _ _
    rw [List.mem_singleton.mp (hmember p hp), List.mem_singleton.mp (hmember q hq)]
  · intro p hp _ t ht t' ht' _ _
    rw [List.mem_singleton.mp (hmember p hp)] at ht ht'
    simp only [id, List.mem_cons, List.not_mem_nil, or_false] at ht ht'
    rcases ht with rfl | rfl <;> rcases ht' with rfl | rfl <;> rfl
  · intro r _ p hp q hq path body body' hpath hpath'
    have hp := hmember p (List.mem_filter.mp ((List.mem_insertionSort _).mp hp)).1
    have hq := hmember q (List.mem_filter.mp ((List.mem_insertionSort _).mp hq)).1
    rw [List.mem_singleton.mp hp] at hpath
    rw [List.mem_singleton.mp hq] at hpath'
    have hsources : stubSources (bothTargets id).workspaceRoot ((bothTargets id).packages.head
        (by decide)) = [("a/src/lib.rs".toList, []),
          ("a/src/main.rs".toList, "fn main() {}\n".toList)] := by decide +kernel
    change (path, body) ∈ stubSources _ ((bothTargets id).packages.head (by decide)) at hpath
    change (path, body') ∈ stubSources _ ((bothTargets id).packages.head (by decide)) at hpath'
    rw [hsources] at hpath hpath'
    simp only [List.mem_cons, List.not_mem_nil, or_false, Prod.mk.injEq] at hpath hpath'
    rcases hpath with ⟨rfl, rfl⟩ | ⟨rfl, rfl⟩ <;> rcases hpath' with ⟨heq, rfl⟩ | ⟨heq, rfl⟩
    · rfl
    · exact absurd heq (by decide)
    · exact absurd heq (by decide)
    · rfl

end Disk

end ModalRust.Scope
