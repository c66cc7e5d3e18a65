import ModalRust.PathComponents

/-!
# Lexical normalization

The path that a path dependency is rewritten to, when its directory does not exist: the components
are pushed one by one, and a `..` pops the last one. On absolute paths this gives the simplest
form of the path.
-/

namespace ModalRust.Scope

open Component

variable {ν : Type*}

/-- One turn of the loop of `lexically_normalize`. -/
def pushComponent (out : Path ν) : Component ν → Path ν
  | .curDir => out
  | .parentDir =>
    -- `pop` takes away the last component, also a `..`, and fails on the root and on nothing
    match out.parent with
    | some out => out
    | none => if out.absolute then out else ⟨false, out.parts ++ [.parentDir]⟩
  | .rootDir => ⟨true, []⟩
  | .normal name => out.join name

/-- `lexically_normalize`, on the components of a path. -/
def lexicallyNormalize (components : List (Component ν)) : Path ν :=
  components.foldl pushComponent .empty

/-- The components of a path. -/
def componentsOf (p : Path ν) : List (Component ν) :=
  (if p.absolute then [.rootDir] else []) ++ p.parts.map fun part =>
    match part with
    | .parentDir => .parentDir
    | .normal name => .normal name

/-- The absolute path with given names. -/
def absolutePath (names : List ν) : Path ν := ⟨true, names.map .normal⟩

/-- The components of an absolute path with given names. -/
theorem componentsOf_absolutePath (names : List ν) :
    componentsOf (absolutePath names) = fromRoot names := by
  unfold componentsOf absolutePath fromRoot
  simp

/-- A turn of the loop follows the component. -/
theorem pushComponent_absolutePath (names : List ν) (c : Component ν) :
    pushComponent (absolutePath names) c = absolutePath (follow names c) := by
  unfold absolutePath
  cases c with
  | rootDir => rfl
  | curDir => rfl
  | normal name =>
    unfold pushComponent follow Path.join
    rw [List.map_append]
    rfl
  | parentDir =>
    unfold pushComponent follow Path.parent
    dsimp only
    rcases List.eq_nil_or_concat names with rfl | ⟨names, name, rfl⟩
    · rfl
    · simp

/-- The loop follows the components. -/
theorem foldl_pushComponent (components : List (Component ν)) (names : List ν) :
    components.foldl pushComponent (absolutePath names) =
      absolutePath (components.foldl follow names) := by
  induction components generalizing names with
  | nil => rfl
  | cons c components ih =>
    rw [List.foldl_cons, List.foldl_cons, pushComponent_absolutePath, ih]

/-- **What an absolute path is normalized to**: the names that lead to the same place. -/
theorem lexicallyNormalize_eq {components : List (Component ν)} (hroot : Absolute components) :
    lexicallyNormalize components = absolutePath (destination components) := by
  obtain ⟨rest, rfl, -⟩ := hroot
  exact foldl_pushComponent rest []

/-- What is read of a normalized path is absolute. -/
theorem absolute_fromRoot (names : List ν) : Absolute (fromRoot names) :=
  ⟨names.map .normal, rfl, by simp⟩

/-- A normalized path. -/
structure Normalized (components : List (Component ν)) (result : Path ν) : Prop where
  /-- It is absolute and has no `..`. -/
  plain : ∃ names, result = absolutePath names
  /-- Normalizing it again changes nothing. -/
  again : lexicallyNormalize (componentsOf result) = result
  /-- It is reached from the path by dropping `.`, cancelling `..` with the name before it, and
  dropping `..` at the root. -/
  reached : Simplifies components (componentsOf result)
  /-- It cannot be simplified. -/
  final : ∀ next, ¬ Cancels (componentsOf result) next
  /-- It is the only such path. -/
  simplest : ∀ other, Simplifies components other →
    (∀ next, ¬ Cancels other next) → other = componentsOf result
  /-- Its names are where the components lead from the root, followed left to right. -/
  place : result.parts = (destination components).map .normal

/-- **Lexical normalization is right on every absolute path.** -/
theorem normalized_lexicallyNormalize {components : List (Component ν)}
    (hroot : Absolute components) : Normalized components (lexicallyNormalize components) := by
  rw [lexicallyNormalize_eq hroot]
  refine ⟨⟨_, rfl⟩, ?_, ?_, ?_, ?_, rfl⟩
  · rw [componentsOf_absolutePath, lexicallyNormalize_eq (absolute_fromRoot _),
      destination_fromRoot]
  · rw [componentsOf_absolutePath]
    exact simplifies_fromRoot hroot
  · rw [componentsOf_absolutePath]
    exact not_cancels_fromRoot _
  · intro other hother hlast
    rw [componentsOf_absolutePath]
    exact hother.eq_fromRoot hroot hlast

/-- `/a/./../../b` is normalized to `/b`. -/
theorem normalized_past_the_root :
    Normalized [.rootDir, .normal 'a', .curDir, .parentDir, .parentDir, .normal 'b']
      (lexicallyNormalize
        [.rootDir, .normal 'a', .curDir, .parentDir, .parentDir, .normal 'b']) :=
  normalized_lexicallyNormalize ⟨_, rfl, by decide⟩

end ModalRust.Scope
