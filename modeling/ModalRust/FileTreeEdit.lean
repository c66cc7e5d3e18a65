import Mathlib.Data.List.Perm.Basic
import ModalRust.FileTree

/-!
# Listing orders and edits of file trees

Two trees that differ only in the order in which directories are listed have walks that
differ only in their order, and each walk visits a path once. When the data of one file
changes, a walk changes at this file only. Nothing in this file refers to a particular
program.
-/

namespace ModalRust

/-- The path of a step of a walk. -/
def Visit.path {ν δ : Type*} : Visit ν δ → Path ν
  | .file path _ => path
  | .error path => path

/-- Joining is injective in the name. -/
theorem Path.join_inj {ν : Type*} {p : Path ν} {a b : ν} {as bs : List ν}
    (h : (p.join a).joinAll as = (p.join b).joinAll bs) : a = b ∧ as = bs := by
  simp only [Path.joinAll, Path.join, Path.mk.injEq, true_and, List.append_assoc,
    List.append_cancel_left_eq, List.singleton_append, List.cons.injEq, Part.normal.injEq] at h
  have hinjective : Function.Injective (Part.normal : ν → Part ν) := fun _ _ h => Part.normal.inj h
  exact ⟨h.1, List.map_injective_iff.mpr hinjective h.2⟩

/-- Joining some names gives another path. -/
theorem Path.joinAll_cons_ne {ν : Type*} {p : Path ν} {name : ν} {names : List ν} :
    p.joinAll (name :: names) ≠ p := by
  intro h
  have hparts := congrArg (fun q => q.parts.length) h
  simp [Path.joinAll] at hparts

namespace FileTree

variable {ν δ : Type*}

/-- What a node is, without the entries of a directory. -/
def stat : FileTree ν δ → FileTree ν δ
  | .dir _ => .dir []
  | t => t

/-- A walk stays below its path. -/
theorem path_of_mem_walk {keep : Path ν → Bool → Bool} {visit : Visit ν δ} (t : FileTree ν δ)
    (path : Path ν) (h : visit ∈ walk keep path t) : ∃ names, visit.path = path.joinAll names := by
  match t with
  | .file data =>
    simp only [walk] at h
    split at h
    · rw [List.mem_singleton.mp h]
      exact ⟨[], by simp [Visit.path]⟩
    · cases h
  | .dir entries =>
    simp only [walk] at h
    split at h
    · obtain ⟨entry, hentry, hvisit⟩ := mem_walkEntries.mp h
      obtain ⟨names, hnames⟩ := path_of_mem_walk entry.2 (path.join entry.1) hvisit
      exact ⟨entry.1 :: names, by rw [hnames, Path.joinAll_cons]⟩
    · cases h
  | .blocked =>
    simp only [walk] at h
    split at h
    · rw [List.mem_singleton.mp h]
      exact ⟨[], by simp [Visit.path]⟩
    · cases h
  | .other => cases h
termination_by sizeOf t
decreasing_by
  have := List.sizeOf_lt_of_mem hentry
  have : sizeOf entry = 1 + sizeOf entry.1 + sizeOf entry.2 := by cases entry; rfl
  simp only [FileTree.dir.sizeOf_spec]
  omega

/-- A walk of the entries of a directory stays below one of them. -/
theorem path_of_mem_walkEntries {keep : Path ν → Bool → Bool} {visit : Visit ν δ} {path : Path ν}
    {entries : List (ν × FileTree ν δ)} (h : visit ∈ walkEntries keep path entries) :
    ∃ entry ∈ entries, ∃ names, visit.path = (path.join entry.1).joinAll names := by
  obtain ⟨entry, hentry, hvisit⟩ := mem_walkEntries.mp h
  obtain ⟨names, hnames⟩ := path_of_mem_walk entry.2 (path.join entry.1) hvisit
  exact ⟨entry, hentry, names, hnames⟩

/-- A walk visits a path once. -/
theorem nodup_walk {keep : Path ν → Bool → Bool} {path : Path ν} {t : FileTree ν δ}
    (ht : t.Distinct) : ((walk keep path t).map Visit.path).Nodup := by
  induction ht generalizing path with
  | file data =>
    simp only [walk]
    split <;> simp
  | dir entries hnodup hentries ih =>
    simp only [walk]
    split
    · clear hentries
      induction entries with
      | nil => simp [walkEntries]
      | cons entry entries ihentries =>
        obtain ⟨hfresh, hnodup⟩ := List.nodup_cons.mp hnodup
        rw [walkEntries, List.map_append, List.nodup_append']
        refine ⟨ih entry List.mem_cons_self, ihentries hnodup fun e he =>
          ih e (List.mem_cons_of_mem _ he), ?_⟩
        intro p hp hp'
        obtain ⟨visit, hvisit, rfl⟩ := List.mem_map.mp hp
        obtain ⟨visit', hvisit', hpath⟩ := List.mem_map.mp hp'
        obtain ⟨names, hnames⟩ := path_of_mem_walk entry.2 (path.join entry.1) hvisit
        obtain ⟨other, hother, names', hnames'⟩ := path_of_mem_walkEntries hvisit'
        rw [hnames, hnames'] at hpath
        exact hfresh (List.mem_map.mpr ⟨other, hother, (Path.join_inj hpath).1⟩)
    · simp
  | blocked =>
    simp only [walk]
    split <;> simp
  | other => simp [walk]

variable [DecidableEq ν]

/-- Two trees with the same files and directories, however these are listed. -/
def SameFiles (t u : FileTree ν δ) : Prop :=
  ∀ names, (t.node names).map stat = (u.node names).map stat

/-- The walk of a directory by the names of its entries. -/
theorem walkEntries_eq_flatMap {keep : Path ν → Bool → Bool} {path : Path ν}
    {entries : List (ν × FileTree ν δ)} (hnodup : (entries.map Prod.fst).Nodup) :
    walkEntries keep path entries = (entries.map Prod.fst).flatMap fun name =>
      (entries.lookup name).elim [] (walk keep (path.join name)) := by
  have hmem : walkEntries keep path entries =
      entries.flatMap fun entry => walk keep (path.join entry.1) entry.2 := by
    clear hnodup
    induction entries with
    | nil => rfl
    | cons entry entries ih => rw [walkEntries, List.flatMap_cons, ih]
  rw [hmem, List.flatMap_map]
  refine List.flatMap_congr fun entry hentry => ?_
  rw [(lookup_eq_some_iff_mem hnodup).mpr hentry, Option.elim_some]

/-- The names of a directory are those that are looked up. -/
theorem lookup_isSome_iff_mem {entries : List (ν × FileTree ν δ)} {name : ν} :
    (entries.lookup name).isSome ↔ name ∈ entries.map Prod.fst := by
  rw [List.lookup_isSome_iff, List.mem_map]
  constructor
  · rintro ⟨entry, hentry, hname⟩
    exact ⟨entry, hentry, (beq_iff_eq.mp hname).symm⟩
  · rintro ⟨entry, hentry, rfl⟩
    exact ⟨entry, hentry, beq_self_eq_true _⟩

/-- A directory, listed in another order. -/
theorem SameFiles.of_perm {entries entries' : List (ν × FileTree ν δ)}
    (h : entries.Perm entries') (hnodup : (entries.map Prod.fst).Nodup) :
    SameFiles (.dir entries) (.dir entries') := by
  intro names
  cases names with
  | nil => rfl
  | cons name below =>
    have hlookup : entries.lookup name = entries'.lookup name := by
      refine Option.ext fun t => ?_
      rw [lookup_eq_some_iff_mem hnodup, lookup_eq_some_iff_mem ((h.map _).nodup_iff.mp hnodup),
        h.mem_iff]
    rw [node, node, hlookup]

/-- Entries of directories with the same files. -/
theorem SameFiles.lookup {entries entries' : List (ν × FileTree ν δ)}
    (h : SameFiles (.dir entries) (.dir entries')) (name : ν) :
    (entries.lookup name = none ∧ entries'.lookup name = none) ∨
      ∃ t u, entries.lookup name = some t ∧ entries'.lookup name = some u ∧ SameFiles t u := by
  have hname := h [name]
  simp only [node] at hname
  cases ht : entries.lookup name with
  | none =>
    cases hu : entries'.lookup name with
    | none => exact .inl ⟨rfl, rfl⟩
    | some u => simp [ht, hu] at hname
  | some t =>
    cases hu : entries'.lookup name with
    | none => simp [ht, hu] at hname
    | some u =>
      refine .inr ⟨t, u, rfl, rfl, fun names => ?_⟩
      have hbelow := h (name :: names)
      simpa only [node, ht, hu, Option.bind_some] using hbelow

/-- **The order of listing only changes the order of a walk.** -/
theorem walk_perm {keep : Path ν → Bool → Bool} {path : Path ν} {t u : FileTree ν δ}
    (ht : t.Distinct) (hu : u.Distinct) (h : SameFiles t u) :
    (walk keep path t).Perm (walk keep path u) := by
  induction ht generalizing path u with
  | file data =>
    have hroot := h []
    cases u <;> simp [node, stat] at hroot
    subst hroot
    rfl
  | dir entries hnodup hentries ih =>
    have hroot := h []
    cases hu with
    | dir entries' hnodup' hentries' =>
      simp only [walk]
      split
      · have hkeys : (entries.map Prod.fst).Perm (entries'.map Prod.fst) := by
          rw [List.perm_ext_iff_of_nodup hnodup hnodup']
          intro name
          rw [← lookup_isSome_iff_mem, ← lookup_isSome_iff_mem]
          rcases h.lookup name with ⟨hnone, hnone'⟩ | ⟨t, u, hsome, hsome', -⟩
          · rw [hnone, hnone']
          · simp [hsome, hsome']
        rw [walkEntries_eq_flatMap hnodup, walkEntries_eq_flatMap hnodup']
        refine (hkeys.flatMap_right _).trans (List.Perm.flatMap_left _ fun name _ => ?_)
        rcases h.lookup name with ⟨hnone, hnone'⟩ | ⟨t, u, hsome, hsome', hsame⟩
        · rw [hnone, hnone']
        · rw [hsome, hsome', Option.elim_some, Option.elim_some]
          have hmem := (lookup_eq_some_iff_mem hnodup).mp hsome
          have hmem' := (lookup_eq_some_iff_mem hnodup').mp hsome'
          exact ih _ hmem (hentries' _ hmem') hsame
      · exact .refl _
    | file data => simp [node, stat] at hroot
    | blocked => simp [node, stat] at hroot
    | other => simp [node, stat] at hroot
  | blocked =>
    have hroot := h []
    cases u <;> simp [node, stat] at hroot
    rfl
  | other =>
    have hroot := h []
    cases u <;> simp [node, stat] at hroot
    rfl

/-- The tree with other data in the file along some names, if there is one. -/
def setData (data : δ) : List ν → FileTree ν δ → FileTree ν δ
  | [], .file _ => .file data
  | name :: names, .dir entries => .dir (entries.map fun entry =>
      (entry.1, if entry.1 = name then setData data names entry.2 else entry.2))
  | _, t => t

/-- A step of a walk with the data of one file set. -/
def setVisit (data : δ) (path : Path ν) : Visit ν δ → Visit ν δ
  | .file p old => .file p (if p = path then data else old)
  | .error p => .error p

/-- Steps at other paths stay. -/
theorem setVisit_of_ne {data : δ} {path : Path ν} {visit : Visit ν δ} (h : visit.path ≠ path) :
    setVisit data path visit = visit := by
  cases visit with
  | file p old => rw [setVisit, if_neg (show p ≠ path from h)]
  | error p => rfl

/-- A walk none of whose steps is at the path stays. -/
theorem map_setVisit_of_ne {data : δ} {path : Path ν} {visits : List (Visit ν δ)}
    (h : ∀ visit ∈ visits, visit.path ≠ path) : visits.map (setVisit data path) = visits := by
  conv_rhs => rw [← List.map_id visits]
  exact List.map_congr_left fun visit hvisit => setVisit_of_ne (h visit hvisit)

/-- A walk that does not come to a file at the path stays. -/
theorem map_setVisit_of_not_mem {data : δ} {path : Path ν} {visits : List (Visit ν δ)}
    (h : ∀ old, .file path old ∉ visits) : visits.map (setVisit data path) = visits := by
  conv_rhs => rw [← List.map_id visits]
  refine List.map_congr_left fun visit hvisit => ?_
  cases visit with
  | file p old =>
    have hne : p ≠ path := by
      rintro rfl
      exact h old hvisit
    rw [setVisit, if_neg hne]
    rfl
  | error p => rfl

/-- Setting data keeps the names of the entries distinct. -/
theorem Distinct.setData {data : δ} {t : FileTree ν δ} (ht : t.Distinct) (names : List ν) :
    (t.setData data names).Distinct := by
  induction names generalizing t with
  | nil =>
    cases ht with
    | file old => exact .file data
    | dir entries hnodup hentries => exact .dir entries hnodup hentries
    | blocked => exact .blocked
    | other => exact .other
  | cons name names ih =>
    cases ht with
    | dir entries hnodup hentries =>
      refine .dir _ ?_ fun entry hentry => ?_
      · rw [List.map_map]
        exact hnodup
      · obtain ⟨old, hold, rfl⟩ := List.mem_map.mp hentry
        dsimp only
        split
        · exact ih (hentries old hold)
        · exact hentries old hold
    | file old => exact .file old
    | blocked => exact .blocked
    | other => exact .other

/-- Looking up an entry after the nodes have been mapped. -/
theorem lookup_map_snd {entries : List (ν × FileTree ν δ)} {f : ν → FileTree ν δ → FileTree ν δ}
    {name : ν} : (entries.map fun entry => (entry.1, f entry.1 entry.2)).lookup name =
      (entries.lookup name).map (f name) := by
  induction entries with
  | nil => rfl
  | cons entry entries ih =>
    rw [List.map_cons, List.lookup_cons, List.lookup_cons, ih]
    by_cases hname : name = entry.1
    · subst hname
      simp
    · simp [beq_false_of_ne hname]

/-- Only a file becomes a file. -/
theorem file_of_setData {data new : δ} {t : FileTree ν δ} {names : List ν}
    (h : t.setData data names = .file new) : ∃ old, t = .file old := by
  cases t with
  | file old => exact ⟨old, rfl⟩
  | dir entries => cases names <;> cases h
  | blocked => cases names <;> cases h
  | other => cases names <;> cases h

/-- The nodes after data was set: those on the way to the file have it set below them. -/
theorem node_setData {data : δ} {t : FileTree ν δ} {names other : List ν} :
    (t.setData data names).node other = (t.node other).map fun s =>
      if other <+: names then s.setData data (names.drop other.length) else s := by
  induction other generalizing t names with
  | nil => simp [node]
  | cons name other ih =>
    cases names with
    | nil => cases t <;> simp [setData, node]
    | cons first names =>
      cases t with
      | dir entries =>
        simp only [setData, node]
        rw [lookup_map_snd (f := fun n t => if n = first then t.setData data names else t)]
        cases hchild : entries.lookup name with
        | none => rfl
        | some child =>
          simp only [Option.map_some, Option.bind_some]
          by_cases hname : name = first
          · subst hname
            simp [ih, List.cons_prefix_cons]
          · simp [hname, List.cons_prefix_cons]
      | file => rfl
      | blocked => rfl
      | other => rfl

/-- **Other data in one file changes a walk at this file only.** -/
theorem walk_setData {keep : Path ν → Bool → Bool} {data : δ} {path : Path ν} {t : FileTree ν δ}
    {names : List ν} :
    walk keep path (t.setData data names) =
      (walk keep path t).map (setVisit data (path.joinAll names)) := by
  induction names generalizing path t with
  | nil =>
    cases t with
    | file old =>
      simp only [setData, walk]
      split <;> simp [setVisit]
    | dir entries =>
      simp only [setData, walk]
      split
      · refine (map_setVisit_of_ne fun visit hvisit => ?_).symm
        obtain ⟨entry, -, names, hnames⟩ := path_of_mem_walkEntries hvisit
        rw [hnames, ← Path.joinAll_cons, Path.joinAll_nil]
        exact Path.joinAll_cons_ne
      · rfl
    | blocked =>
      simp only [setData, walk]
      split <;> rfl
    | other => rfl
  | cons name names ih =>
    cases t with
    | dir entries =>
      simp only [setData, walk]
      split
      · induction entries with
        | nil => rfl
        | cons entry entries ihentries =>
          rw [List.map_cons, walkEntries, walkEntries, List.map_append, ihentries]
          congr 1
          by_cases hname : entry.1 = name
          · rw [if_pos hname, ih, Path.joinAll_cons, hname]
          · rw [if_neg hname]
            refine (map_setVisit_of_ne fun visit hvisit hpath => ?_).symm
            obtain ⟨names', hnames'⟩ := path_of_mem_walk entry.2 _ hvisit
            rw [hnames', Path.joinAll_cons] at hpath
            exact hname (Path.join_inj hpath).1
      · rfl
    | file old =>
      simp only [setData, walk]
      refine (map_setVisit_of_ne fun visit hvisit hpath => ?_).symm
      split at hvisit
      · rw [List.mem_singleton.mp hvisit] at hpath
        exact Path.joinAll_cons_ne hpath.symm
      · cases hvisit
    | blocked =>
      simp only [setData, walk]
      split <;> rfl
    | other => rfl

end FileTree

end ModalRust
