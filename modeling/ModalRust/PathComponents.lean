import Mathlib.Logic.Relation
import ModalRust.Path

/-!
# Cancelling path components

The components of an absolute path may be simplified: a `.` is dropped, a `..` cancels the name
before it, and a `..` at the root is dropped. Each absolute path has exactly one simplest form,
the names that lead to the place that the path leads to. Nothing in this file refers to a
particular program.
-/

namespace ModalRust

/-- A path component, as `components` yields it. -/
inductive Component (ν : Type*)
  /-- The root. -/
  | rootDir
  /-- `.`. -/
  | curDir
  /-- `..`. -/
  | parentDir
  /-- A file name. -/
  | normal (name : ν)
  deriving DecidableEq

namespace Component

variable {ν : Type*}

/-- The components of an absolute path: the root comes first, and only there. -/
def Absolute (components : List (Component ν)) : Prop :=
  ∃ rest, components = .rootDir :: rest ∧ .rootDir ∉ rest

/-- One simplification. -/
inductive Cancels : List (Component ν) → List (Component ν) → Prop
  /-- A `.` is dropped. -/
  | dot (before after : List (Component ν)) :
    Cancels (before ++ .curDir :: after) (before ++ after)
  /-- A `..` cancels the name before it. -/
  | name (before after : List (Component ν)) (name : ν) :
    Cancels (before ++ .normal name :: .parentDir :: after) (before ++ after)
  /-- A `..` at the root is dropped. -/
  | root (after : List (Component ν)) :
    Cancels (.rootDir :: .parentDir :: after) (.rootDir :: after)

/-- Any number of simplifications. -/
def Simplifies : List (Component ν) → List (Component ν) → Prop := Relation.ReflTransGen Cancels

/-- One step of a walk from directory to directory. -/
def follow (place : List ν) : Component ν → List ν
  | .rootDir => []
  | .curDir => place
  | .parentDir => place.dropLast
  | .normal name => place ++ [name]

/-- The place that components lead to from the root, when they are followed left to right. -/
def destination (components : List (Component ν)) : List ν := components.foldl follow []

/-- Components that are followed after others. -/
theorem destination_append (before after : List (Component ν)) :
    destination (before ++ after) = after.foldl follow (destination before) := List.foldl_append

/-- A simplification leads to the same place. -/
theorem Cancels.destination_eq {c d : List (Component ν)} (h : Cancels c d) :
    destination d = destination c := by
  cases h with
  | dot before after => rw [destination_append, destination_append, List.foldl_cons, follow]
  | name before after name =>
    rw [destination_append, destination_append, List.foldl_cons, List.foldl_cons, follow, follow,
      List.dropLast_concat]
  | root after => rfl

/-- **Simplifying leads to the same place.** -/
theorem Simplifies.destination_eq {c d : List (Component ν)} (h : Simplifies c d) :
    destination d = destination c := by
  induction h with
  | refl => rfl
  | tail _ hstep ih => exact hstep.destination_eq.trans ih

/-- A simplification may be made with more components behind. -/
theorem Cancels.append {c d : List (Component ν)} (h : Cancels c d) (after : List (Component ν)) :
    Cancels (c ++ after) (d ++ after) := by
  cases h with
  | dot before rest =>
    rw [List.append_assoc, List.append_assoc]
    exact .dot before (rest ++ after)
  | name before rest name =>
    rw [List.append_assoc, List.append_assoc]
    exact .name before (rest ++ after) name
  | root rest => exact .root (rest ++ after)

/-- Simplifying with more components behind. -/
theorem Simplifies.append {c d : List (Component ν)} (h : Simplifies c d)
    (after : List (Component ν)) : Simplifies (c ++ after) (d ++ after) :=
  h.lift (· ++ after) fun _ _ hstep => hstep.append after

/-- The names from the root. -/
def fromRoot (names : List ν) : List (Component ν) := .rootDir :: names.map .normal

/-- **The simplest form**: the names that lead to the same place. -/
theorem simplifies_fromRoot {c : List (Component ν)} (hc : Absolute c) :
    Simplifies c (fromRoot (destination c)) := by
  obtain ⟨rest, rfl, hrest⟩ := hc
  induction rest using List.reverseRecOn with
  | nil => exact .refl
  | append_singleton rest last ih =>
    rw [List.mem_append, List.mem_singleton, not_or] at hrest
    have hbefore := (ih hrest.1).append [last]
    have hplace : destination (.rootDir :: (rest ++ [last])) =
        follow (destination (.rootDir :: rest)) last := by
      rw [← List.cons_append, destination_append]
      rfl
    rw [List.cons_append] at hbefore
    rw [hplace]
    refine hbefore.trans ?_
    generalize destination (.rootDir :: rest) = place
    cases last with
    | rootDir => exact absurd rfl hrest.2
    | curDir =>
      refine .single ?_
      simpa [follow] using Cancels.dot (fromRoot place) []
    | normal name =>
      have hsame : fromRoot place ++ [.normal name] = fromRoot (place ++ [name]) := by
        unfold fromRoot
        rw [List.map_append, List.cons_append]
        rfl
      rw [hsame]
      exact .refl
    | parentDir =>
      refine .single ?_
      rcases List.eq_nil_or_concat place with rfl | ⟨place, name, rfl⟩
      · exact Cancels.root []
      · simpa [fromRoot, follow] using Cancels.name (fromRoot place) [] name

/-- A simplified path is absolute. -/
theorem Cancels.absolute {c d : List (Component ν)} (h : Cancels c d) (hc : Absolute c) :
    Absolute d := by
  obtain ⟨rest, hrest, hroot⟩ := hc
  cases h with
  | dot before after =>
    cases before with
    | nil => cases hrest
    | cons first before =>
      obtain ⟨rfl, rfl⟩ := List.cons.inj hrest
      exact ⟨before ++ after, rfl, fun h => hroot (by simpa using h)⟩
  | name before after name =>
    cases before with
    | nil => cases hrest
    | cons first before =>
      obtain ⟨rfl, rfl⟩ := List.cons.inj hrest
      exact ⟨before ++ after, rfl, fun h => hroot (by simpa using h)⟩
  | root after =>
    obtain ⟨-, rfl⟩ := List.cons.inj hrest
    exact ⟨after, rfl, fun h => hroot (List.mem_cons_of_mem _ h)⟩

/-- A path that was simplified is absolute. -/
theorem Simplifies.absolute {c d : List (Component ν)} (h : Simplifies c d) (hc : Absolute c) :
    Absolute d := by
  induction h with
  | refl => exact hc
  | tail _ hstep ih => exact hstep.absolute ih

/-- The names from the root cannot be simplified. -/
theorem not_cancels_fromRoot (names : List ν) (e : List (Component ν)) :
    ¬ Cancels (fromRoot names) e := by
  have hplain {c : Component ν} (hmem : c ∈ fromRoot names) : c ≠ .curDir ∧ c ≠ .parentDir := by
    rcases List.mem_cons.mp hmem with rfl | hname
    · exact ⟨nofun, nofun⟩
    · obtain ⟨name, -, rfl⟩ := List.mem_map.mp hname
      exact ⟨nofun, nofun⟩
  intro h
  generalize hpath : fromRoot names = path at h
  cases h with
  | dot before after => exact (hplain (c := .curDir) (by simp [hpath])).1 rfl
  | name before after name => exact (hplain (c := .parentDir) (by simp [hpath])).2 rfl
  | root after => exact (hplain (c := .parentDir) (by simp [hpath])).2 rfl

/-- **The simplest form is unique**: what cannot be simplified further is the names from the
root. -/
theorem Simplifies.eq_fromRoot {c d : List (Component ν)} (h : Simplifies c d) (hc : Absolute c)
    (hd : ∀ e, ¬ Cancels d e) : d = fromRoot (destination c) := by
  have hlast := simplifies_fromRoot (h.absolute hc)
  rw [h.destination_eq] at hlast
  rcases Relation.ReflTransGen.cases_head hlast with heq | ⟨e, hstep, -⟩
  · exact heq
  · exact absurd hstep (hd e)

/-- A name leads one directory down from the root. -/
theorem destination_fromRoot (names : List ν) : destination (fromRoot names) = names := by
  induction names using List.reverseRecOn with
  | nil => rfl
  | append_singleton names name ih =>
    have hsplit : fromRoot (names ++ [name]) = fromRoot names ++ [.normal name] := by
      unfold fromRoot
      rw [List.map_append, List.cons_append]
      rfl
    rw [hsplit, destination_append, ih]
    rfl

end Component

end ModalRust
