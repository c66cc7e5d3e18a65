import Mathlib.Data.List.Lex
import ModalRust.Path
import ModalRust.Worklist

/-!
# The dependency closure of a package

What `cargo metadata` reports about a workspace, and the walk that selects the crate
directories to upload: from the target package along normal path dependencies between
workspace members. The walk ends and selects exactly the directories that can be
reached in that way.
-/

namespace ModalRust.Scope

/-- Paths in `cargo metadata` are JSON texts. -/
abbrev FilePath := Path FileName

/-- Paths are compared part by part. -/
instance lawfulBEqFilePath : LawfulBEq FilePath := inferInstance

/-- One build target of a package. -/
structure Target where
  /-- The target kinds, for instance `bin` or `lib`. -/
  kind : List Text
  /-- The target name. -/
  name : Text
  /-- The root source file, empty if cargo omits it. -/
  srcPath : FilePath

/-- One declared dependency of a package. -/
structure Dependency where
  /-- The name of the dependency package. -/
  name : Text
  /-- Absent for a normal dependency, else `dev` or `build`. -/
  kind : Option Text
  /-- The directory of a path dependency. -/
  path : Option FilePath

/-- One package. -/
structure Package where
  /-- The package id. -/
  id : Text
  /-- The package name. -/
  name : Text
  /-- The path of the package's `Cargo.toml`. -/
  manifestPath : FilePath
  /-- The declared dependencies. -/
  dependencies : List Dependency
  /-- The build targets. -/
  targets : List Target

/-- The output of `cargo metadata`. -/
structure Metadata where
  /-- The ids of the workspace members. -/
  workspaceMembers : List Text
  /-- The workspace root. -/
  workspaceRoot : FilePath
  /-- The packages. -/
  packages : List Package

/-- A normal path dependency on a directory that is not a workspace member. -/
structure OutOfWorkspaceDep where
  /-- The name of the dependency package. -/
  name : Text
  /-- The directory. -/
  path : FilePath
  deriving DecidableEq

/-- The result of the closure walk. -/
structure ClosureResult where
  /-- The crate directories of the closure. -/
  dirs : List FilePath
  /-- The normal path dependencies that escape the workspace. -/
  outOfWorkspace : List OutOfWorkspaceDep

/-- The crate directory of a package. -/
def dirOf (p : Package) : FilePath := p.manifestPath.parent.getD .empty

/-- The packages that are workspace members. -/
def Metadata.members (m : Metadata) : List Package :=
  m.packages.filter fun p => p.id ∈ m.workspaceMembers

/-- The crate directories of the members. -/
def Metadata.memberDirs (m : Metadata) : List FilePath := m.members.map dirOf

/-- The member in a directory; of several, the last one is in the index. -/
def Metadata.byDir (m : Metadata) (dir : FilePath) : Option Package :=
  m.members.reverse.find? fun p => dirOf p = dir

/-- The directory of a normal path dependency. -/
def Dependency.followed (d : Dependency) : Option FilePath :=
  if d.kind.isSome then none else d.path

/-- The directories of the normal path dependencies of the crate in a directory. -/
def Metadata.normalDeps (m : Metadata) (dir : FilePath) : List Dependency :=
  match m.byDir dir with
  | none => []
  | some pkg => pkg.dependencies.filter fun d => d.followed.isSome

/-- The member directories that the walk pushes when it visits a directory. -/
def Metadata.next (m : Metadata) (dir : FilePath) : List FilePath :=
  (m.normalDeps dir).filterMap fun d =>
    d.followed.filter fun path => path ∈ m.memberDirs

/-- The escaping dependencies after the visit of a directory. -/
def Metadata.visit (m : Metadata) (escaped : List OutOfWorkspaceDep) (dir : FilePath) :
    List OutOfWorkspaceDep :=
  (m.normalDeps dir).foldl (fun escaped d =>
    match d.followed with
    | none => escaped
    | some path =>
      if path ∈ m.memberDirs ∨ ⟨d.name, path⟩ ∈ escaped then escaped
      else escaped ++ [⟨d.name, path⟩]) escaped

/-- The scoping target: the first member with the package name. -/
def Metadata.target (m : Metadata) (package : Text) : Option Package :=
  m.packages.find? fun p => p.name = package ∧ p.id ∈ m.workspaceMembers

/-- Texts compare by their code points. -/
def textKey (t : Text) : List ℕ := t.map Char.toNat

/-- Paths compare component by component. -/
def pathKey (p : FilePath) : List (List ℕ) := p.key FileName.toBytes

/-- `closure_from_metadata`: the walk from the target package. The fuel is one step for
the start and one for each push. -/
def closureFromMetadata (m : Metadata) (package : Text) : Option ClosureResult :=
  match m.target package with
  | none => none
  | some target =>
    (Worklist.explore m.next m.visit (1 + Worklist.unseen m.next [] m.memberDirs) [] []
      [dirOf target]).map fun (escaped, closure) =>
        { dirs := closure.insertionSort fun a b => pathKey a ≤ pathKey b
          outOfWorkspace := escaped.insertionSort fun a b =>
            textKey a.name :: pathKey a.path ≤ textKey b.name :: pathKey b.path }

/-- The member that is indexed under a directory is in it. -/
theorem Metadata.byDir_eq_some {m : Metadata} {dir : FilePath} {pkg : Package}
    (h : m.byDir dir = some pkg) : pkg ∈ m.members ∧ dirOf pkg = dir := by
  have hmem := List.mem_of_find?_eq_some h
  exact ⟨List.mem_reverse.mp hmem, by simpa using List.find?_some h⟩

/-- Every member directory has a member in the index. -/
theorem Metadata.exists_byDir {m : Metadata} {dir : FilePath} (h : dir ∈ m.memberDirs) :
    ∃ pkg, m.byDir dir = some pkg := by
  obtain ⟨p, hp, rfl⟩ := List.mem_map.mp h
  refine Option.isSome_iff_exists.mp ?_
  rw [Metadata.byDir, List.find?_isSome]
  exact ⟨p, List.mem_reverse.mpr hp, by simp⟩

/-- What the walk pushes: the normal path dependencies on members. -/
theorem Metadata.mem_next {m : Metadata} {dir path : FilePath} :
    path ∈ m.next dir ↔ path ∈ m.memberDirs ∧ ∃ pkg, m.byDir dir = some pkg ∧
      ∃ d ∈ pkg.dependencies, d.kind = none ∧ d.path = some path := by
  unfold Metadata.next Metadata.normalDeps
  cases hdir : m.byDir dir with
  | none => simp
  | some pkg =>
    simp only [List.mem_filterMap, List.mem_filter, Option.filter_eq_some_iff,
      decide_eq_true_eq, Option.some.injEq, exists_eq_left']
    constructor
    · rintro ⟨d, ⟨hd, -⟩, hfollowed, hmem⟩
      unfold Dependency.followed at hfollowed
      cases hkind : d.kind with
      | none => exact ⟨hmem, d, hd, hkind, by simpa [hkind] using hfollowed⟩
      | some kind => simp [hkind] at hfollowed
    · rintro ⟨hmem, d, hd, hkind, hpath⟩
      have hfollowed : d.followed = some path := by simp [Dependency.followed, hkind, hpath]
      exact ⟨d, ⟨hd, by simp [hfollowed]⟩, hfollowed, hmem⟩

/-- Only member directories have successors. -/
theorem Metadata.mem_memberDirs_of_next {m : Metadata} {dir : FilePath}
    (h : m.next dir ≠ []) : dir ∈ m.memberDirs := by
  obtain ⟨path, hpath⟩ := List.exists_mem_of_ne_nil _ h
  obtain ⟨-, pkg, hpkg, -⟩ := Metadata.mem_next.mp hpath
  obtain ⟨hmem, hdir⟩ := Metadata.byDir_eq_some hpkg
  exact List.mem_map.mpr ⟨pkg, hmem, hdir⟩

/-- The target is a member. -/
theorem Metadata.target_mem {m : Metadata} {package : Text} {target : Package}
    (h : m.target package = some target) : dirOf target ∈ m.memberDirs := by
  unfold Metadata.target at h
  have hprop := List.find?_some h
  rw [decide_eq_true_eq] at hprop
  have hmem : target ∈ m.members :=
    List.mem_filter.mpr ⟨List.mem_of_find?_eq_some h, decide_eq_true hprop.2⟩
  exact List.mem_map.mpr ⟨target, hmem, rfl⟩

/-- Only member directories are reached. -/
theorem Metadata.mem_memberDirs_of_reaches {m : Metadata} {start dir : FilePath}
    (hstart : start ∈ m.memberDirs) (h : Worklist.Reaches m.next start dir) :
    dir ∈ m.memberDirs := by
  induction h with
  | refl => exact hstart
  | tail _ hnext _ => exact (Metadata.mem_next.mp hnext).1

/-- The spec of `closure_from_metadata`: it succeeds for every member, and selects the
directories that are reached from the target along normal path dependencies between
members. -/
theorem closureFromMetadata_spec {m : Metadata} {package : Text} {target : Package}
    (htarget : m.target package = some target) :
    ∃ r, closureFromMetadata m package = some r ∧
      ∀ dir, dir ∈ r.dirs ↔ Worklist.Reaches m.next (dirOf target) dir := by
  have hsome : (Worklist.explore m.next m.visit (1 + Worklist.unseen m.next [] m.memberDirs) [] []
      [dirOf target]).isSome :=
    Worklist.explore_isSome (fun _ => Metadata.mem_memberDirs_of_next) (Nat.le_refl _)
  obtain ⟨⟨escaped, closure⟩, hrun⟩ := Option.isSome_iff_exists.mp hsome
  simp only [closureFromMetadata, htarget, hrun, Option.map_some, Option.some.injEq,
    exists_eq_left', List.mem_insertionSort]
  intro dir
  rw [Worklist.mem_explore (by simp) hrun]
  simp

end ModalRust.Scope
