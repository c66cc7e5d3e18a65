import Mathlib.Data.List.Nodup
import ModalRust.Path

/-!
# File trees

Directory trees with their files, the file at a path, and a depth-first walk that skips
the entries that a filter rejects, together with everything below them. The walk visits
exactly the files none of whose directories is rejected. Nothing in this file refers to
a particular program.
-/

namespace ModalRust

/-- A node of a file system, with names `ν` and the data of files `δ`. -/
inductive FileTree (ν δ : Type*)
  /-- A regular file. -/
  | file (data : δ)
  /-- A directory with its entries. -/
  | dir (entries : List (ν × FileTree ν δ))
  /-- A directory that cannot be listed. -/
  | blocked
  /-- Anything else. -/
  | other

/-- A step of a walk: a file, or a directory that could not be listed. -/
inductive Visit (ν δ : Type*)
  /-- A regular file. -/
  | file (path : Path ν) (data : δ)
  /-- A directory that cannot be listed. -/
  | error (path : Path ν)

/-- The name of a component that is one. -/
def Part.name {ν : Type*} : Part ν → Option ν
  | .parentDir => none
  | .normal name => some name

namespace Path

variable {ν : Type*}

/-- The path below a directory along some names. -/
def joinAll (p : Path ν) (names : List ν) : Path ν := ⟨p.absolute, p.parts ++ names.map .normal⟩

/-- Joining no name. -/
@[simp] theorem joinAll_nil (p : Path ν) : p.joinAll [] = p := by simp [joinAll]

/-- Joining the first name first. -/
theorem joinAll_cons (p : Path ν) (name : ν) (names : List ν) :
    p.joinAll (name :: names) = (p.join name).joinAll names := by
  simp [joinAll, join]

/-- The names of a path without `..`. -/
def names (p : Path ν) : Option (List ν) := p.parts.mapM Part.name

/-- The names below a directory. -/
theorem names_joinAll (p : Path ν) (below : List ν) :
    (p.joinAll below).names = p.names.map (· ++ below) := by
  have hbelow : (below.map Part.normal).mapM Part.name = some below := by
    induction below with
    | nil => rfl
    | cons name below ih => simp [ih, Part.name]
  unfold names joinAll
  rw [List.mapM_append, hbelow]
  cases p.parts.mapM Part.name <;> rfl

/-- Stripping a prefix of a directory strips it of everything below. -/
theorem stripPrefix_joinAll [DecidableEq ν] {p base rest : Path ν} (names : List ν)
    (h : p.stripPrefix base = some rest) :
    (p.joinAll names).stripPrefix base = some (rest.joinAll names) := by
  obtain ⟨pabs, pparts⟩ := p
  by_cases hbase : base = empty
  · rw [hbase] at h ⊢
    cases pabs
    · simp only [stripPrefix, empty, List.isPrefixOf?, if_true, Option.map_some,
        Option.some.injEq] at h
      rw [← h]
      simp [stripPrefix, empty, List.isPrefixOf?, joinAll]
    · simp only [stripPrefix, empty, Bool.false_eq_true, if_false, if_true,
        Option.some.injEq] at h
      rw [← h]
      simp [stripPrefix, empty, joinAll]
  · obtain ⟨habs, hp⟩ := (stripPrefix_eq_some hbase).mp h
    rw [hp, stripPrefix_eq_some hbase]
    exact ⟨habs, by simp [joinAll]⟩

end Path

namespace FileTree

variable {ν δ : Type*}

/-- The node along some names. -/
def node [DecidableEq ν] (t : FileTree ν δ) : List ν → Option (FileTree ν δ)
  | [] => some t
  | name :: names =>
    match t with
    | .dir entries => (entries.lookup name).bind (·.node names)
    | _ => none

/-- `is_file`. -/
def isFile : FileTree ν δ → Bool
  | .file _ => true
  | _ => false

/-- `is_dir`. -/
def isDir : FileTree ν δ → Bool
  | .dir _ => true
  | .blocked => true
  | _ => false

/-- The names in each directory are distinct. -/
inductive Distinct : FileTree ν δ → Prop
  /-- A file. -/
  | file (data : δ) : Distinct (.file data)
  /-- A directory. -/
  | dir (entries : List (ν × FileTree ν δ)) (hnodup : (entries.map Prod.fst).Nodup)
    (hentries : ∀ entry ∈ entries, Distinct entry.2) : Distinct (.dir entries)
  /-- A directory that cannot be listed. -/
  | blocked : Distinct .blocked
  /-- Anything else. -/
  | other : Distinct .other

mutual

/-- The walk of a node at a path. The filter gets the path and whether it is a
directory. -/
def walk (keep : Path ν → Bool → Bool) (path : Path ν) : FileTree ν δ → List (Visit ν δ)
  | .file data => if keep path false then [.file path data] else []
  | .dir entries => if keep path true then walkEntries keep path entries else []
  | .blocked => if keep path true then [.error path] else []
  | .other => []

/-- The walk of the entries of a directory. -/
def walkEntries (keep : Path ν → Bool → Bool) (path : Path ν) :
    List (ν × FileTree ν δ) → List (Visit ν δ)
  | [] => []
  | (name, t) :: entries => walk keep (path.join name) t ++ walkEntries keep path entries

end

/-- The walk of a directory's entries is the walk of each of them. -/
theorem mem_walkEntries {keep : Path ν → Bool → Bool} {path : Path ν}
    {entries : List (ν × FileTree ν δ)} {visit : Visit ν δ} :
    visit ∈ walkEntries keep path entries ↔
      ∃ entry ∈ entries, visit ∈ walk keep (path.join entry.1) entry.2 := by
  induction entries with
  | nil => simp [walkEntries]
  | cons entry entries ih =>
    obtain ⟨name, t⟩ := entry
    simp [walkEntries, ih]

variable [DecidableEq ν]

/-- An entry is looked up iff it is there, where names are distinct. -/
theorem lookup_eq_some_iff_mem {entries : List (ν × FileTree ν δ)}
    (hnodup : (entries.map Prod.fst).Nodup) {name : ν} {t : FileTree ν δ} :
    entries.lookup name = some t ↔ (name, t) ∈ entries := by
  induction entries with
  | nil => simp
  | cons entry entries ih =>
    obtain ⟨name', t'⟩ := entry
    obtain ⟨hnotin, hnodup⟩ := List.nodup_cons.mp hnodup
    rw [List.lookup_cons]
    by_cases hname : name = name'
    · subst hname
      have hfresh : (name, t) ∉ entries := fun hmem => hnotin (List.mem_map.mpr ⟨_, hmem, rfl⟩)
      simp [hfresh, eq_comm]
    · simp [beq_false_of_ne hname, ih hnodup, hname]

/-- Nodes below distinct directories are distinct. -/
theorem Distinct.node {t s : FileTree ν δ} {names : List ν} (ht : t.Distinct)
    (h : t.node names = some s) : s.Distinct := by
  induction names generalizing t with
  | nil =>
    cases h
    exact ht
  | cons name names ih =>
    cases ht with
    | dir entries hnodup hentries =>
      obtain ⟨child, hchild, hbelow⟩ := Option.bind_eq_some_iff.mp h
      exact ih (hentries _ ((lookup_eq_some_iff_mem hnodup).mp hchild)) hbelow
    | file => cases h
    | blocked => cases h
    | other => cases h

/-- The nodes along an appended list of names. -/
theorem node_append (t : FileTree ν δ) (names below : List ν) :
    t.node (names ++ below) = (t.node names).bind fun s => s.node below := by
  induction names generalizing t with
  | nil => rfl
  | cons name names ih =>
    cases t with
    | dir entries =>
      simp only [List.cons_append, node]
      cases entries.lookup name with
      | none => rfl
      | some child => exact ih child
    | file => rfl
    | blocked => rfl
    | other => rfl

/-- The nodes of a directory are those of its entries. -/
theorem node_dir {entries : List (ν × FileTree ν δ)} (hnodup : (entries.map Prod.fst).Nodup)
    {name : ν} {names : List ν} {s : FileTree ν δ} :
    (FileTree.dir entries).node (name :: names) = some s ↔
      ∃ t, (name, t) ∈ entries ∧ t.node names = some s := by
  simp only [node, Option.bind_eq_some_iff, lookup_eq_some_iff_mem hnodup]

/-- **The walk visits the files that the filter keeps, below directories that it keeps.** -/
theorem mem_walk {keep : Path ν → Bool → Bool} {path p : Path ν} {t : FileTree ν δ} {data : δ}
    (ht : t.Distinct) :
    .file p data ∈ walk keep path t ↔ ∃ names, t.node names = some (.file data) ∧
      p = path.joinAll names ∧ keep p false = true ∧
      ∀ above, above <+: names → above ≠ names → keep (path.joinAll above) true = true := by
  induction ht generalizing path with
  | file data' =>
    have hnode {names : List ν} :
        (FileTree.file data').node names = some (.file data) ↔ names = [] ∧ data' = data := by
      cases names <;> simp [node]
    simp only [walk, hnode]
    constructor
    · intro h
      split at h
      · rename_i hkeep
        cases List.mem_singleton.mp h
        exact ⟨[], ⟨rfl, rfl⟩, by simp, hkeep, fun above habove hne => absurd
          (List.prefix_nil.mp habove) hne⟩
      · cases h
    · rintro ⟨names, ⟨rfl, rfl⟩, rfl, hkeep, -⟩
      simpa using hkeep
  | dir entries hnodup hentries ih =>
    simp only [walk]
    constructor
    · intro h
      split at h
      · rename_i hkeep
        obtain ⟨entry, hentry, hvisit⟩ := mem_walkEntries.mp h
        obtain ⟨names, hnode, hp, hkeepFile, hkeepAbove⟩ := (ih entry hentry).mp hvisit
        refine ⟨entry.1 :: names, (node_dir hnodup).mpr ⟨entry.2, hentry, hnode⟩, ?_, hkeepFile,
          fun above habove hne => ?_⟩
        · rw [Path.joinAll_cons]
          exact hp
        · cases above with
          | nil => simpa using hkeep
          | cons name above =>
            obtain ⟨rfl, hbelow⟩ := List.cons_prefix_cons.mp habove
            rw [Path.joinAll_cons]
            exact hkeepAbove above hbelow fun heq => hne (by rw [heq])
      · cases h
    · rintro ⟨names, hnode, hp, hkeepFile, hkeepAbove⟩
      cases names with
      | nil => simp [node] at hnode
      | cons name names =>
        obtain ⟨child, hentry, hbelow⟩ := (node_dir hnodup).mp hnode
        have hkeep := hkeepAbove [] List.nil_prefix (by simp)
        rw [Path.joinAll_nil] at hkeep
        rw [if_pos hkeep, mem_walkEntries]
        refine ⟨_, hentry, (ih _ hentry).mpr ⟨names, hbelow, ?_, hkeepFile,
          fun above habove hne => ?_⟩⟩
        · rw [← Path.joinAll_cons]
          exact hp
        · rw [← Path.joinAll_cons]
          exact hkeepAbove _ (List.cons_prefix_cons.mpr ⟨rfl, habove⟩) (by simpa using hne)
  | blocked =>
    have hnode {names : List ν} :
        (FileTree.blocked : FileTree ν δ).node names ≠ some (.file data) := by
      cases names <;> simp [node]
    simp only [walk, hnode, false_and, exists_false, iff_false]
    split <;> simp
  | other =>
    have hnode {names : List ν} :
        (FileTree.other : FileTree ν δ).node names ≠ some (.file data) := by
      cases names <;> simp [node]
    simp [walk, hnode]

/-- Where a walk reports an error there is a directory that cannot be listed. -/
theorem blocked_of_mem_walk {keep : Path ν → Bool → Bool} {path p : Path ν} {t : FileTree ν δ}
    (ht : t.Distinct) (h : .error p ∈ walk keep path t) :
    ∃ names, t.node names = some .blocked := by
  induction ht generalizing path with
  | file data' =>
    simp only [walk] at h
    split at h <;> simp at h
  | dir entries hnodup hentries ih =>
    simp only [walk] at h
    split at h
    · obtain ⟨entry, hentry, hvisit⟩ := mem_walkEntries.mp h
      obtain ⟨names, hnode⟩ := ih entry hentry hvisit
      exact ⟨entry.1 :: names, (node_dir hnodup).mpr ⟨entry.2, hentry, hnode⟩⟩
    · cases h
  | blocked => exact ⟨[], rfl⟩
  | other => cases h

end FileTree

end ModalRust
