import Mathlib.Data.List.Infix
import ModalRust.FileTree

/-!
# The ignore matcher

Gitignore patterns as the matcher of an upload applies them: to the path relative to the
workspace root and to each of its parents, where the last pattern that matches decides.
The built-in patterns select names at any depth, so a path is ignored by them iff one of
its directories is named `target`, `.git` or `tests` or some component ends in `.rlib`.
-/

namespace ModalRust.Upload

/-- A file name that is not valid text: its characters, and the bytes that are none. -/
structure RawName where
  /-- The characters and bytes. -/
  units : List (Char ⊕ UInt8)
  /-- Some byte is not part of a character. -/
  invalid : ∃ byte, .inr byte ∈ units
  deriving DecidableEq

/-- A file name of the operating system. -/
inductive OsName
  /-- A name that is valid text. -/
  | utf8 (name : FileName)
  /-- A name that is not. -/
  | raw (name : RawName)
  deriving DecidableEq

/-- `to_str`. -/
def OsName.toStr : OsName → Option Text
  | .utf8 name => some name.text
  | .raw _ => none

/-- The characters and bytes of a name. -/
def OsName.units : OsName → List (Char ⊕ UInt8)
  | .utf8 name => name.text.map .inl
  | .raw name => name.units

/-- Paths of the operating system. -/
abbrev OsPath := Path OsName

/-- A path whose names are texts. -/
def toOs (p : Path FileName) : OsPath := p.map .utf8

/-- Matching one name against a glob with the wildcard `*`. -/
def globMatches : Text → List (Char ⊕ UInt8) → Bool
  | [], units => units.isEmpty
  | c :: glob, units =>
    if c = '*' then units.tails.any fun rest => globMatches glob rest
    else units.head? = some (.inl c) && globMatches glob units.tail

/-- One line of an ignore file. -/
structure IgnorePattern where
  /-- Whether the line re-includes what it selects. -/
  negated : Bool
  /-- Whether the line selects directories only. -/
  dirOnly : Bool
  /-- The paths, relative to the matcher's root, that the line selects. -/
  selects : OsPath → Bool

/-- The glob of a line whose slashes are a leading `**/` and a trailing `/`. -/
def componentGlob (line : Text) : Text :=
  ("**/".toList.isPrefixOf? line).getD line |>.rdropWhile (· = '/')

/-- Such a line selects by the last component of a path, at any depth. -/
def unanchored (line : Text) : IgnorePattern where
  negated := false
  dirOnly := line.getLast? = some '/'
  selects rel :=
    match rel.fileName with
    | some name => globMatches (componentGlob line) name.units
    | none => false

/-- `DEFAULT_IGNORE_PATTERNS`. -/
def defaultIgnorePatterns : List Text :=
  ["target/".toList, ".git/".toList, "**/*.rlib".toList, "tests/".toList]

/-- `matched`: the last line that matches decides. -/
def matched (patterns : List IgnorePattern) (rel : OsPath) (isDir : Bool) : Option Bool :=
  (patterns.reverse.find? fun p => (isDir || !p.dirOnly) && p.selects rel).map fun p => !p.negated

/-- `matched_path_or_any_parents`: the path itself, then its parents. -/
def matchedPathOrAnyParents (patterns : List IgnorePattern) (rel : OsPath) (isDir : Bool) :
    Option Bool :=
  (matched patterns rel isDir).or
    (rel.parts.inits.reverse.tail.findSome? fun parts =>
      matched patterns ⟨rel.absolute, parts⟩ true)

/-- `is_ignored`. -/
def isIgnored (patterns : List IgnorePattern) (rel : OsPath) (isDir : Bool) : Bool :=
  if rel.isEmpty then false else matchedPathOrAnyParents patterns rel isDir = some true

/-- The built-in patterns. -/
def defaultMatcher : List IgnorePattern := defaultIgnorePatterns.map unanchored

/-- The names of directories that the built-in patterns select. -/
def ignoredDirs : List Text := ["target".toList, ".git".toList, "tests".toList]

/-- A name that a built-in pattern selects. -/
def IgnoredName (name : OsName) : Prop :=
  (∃ dir ∈ ignoredDirs, name.units = dir.map .inl) ∨ ".rlib".toList.map .inl <:+ name.units

/-- A glob without wildcards matches one name. -/
theorem globMatches_literal {literal : Text} (hliteral : '*' ∉ literal)
    {units : List (Char ⊕ UInt8)} :
    globMatches literal units = true ↔ units = literal.map .inl := by
  induction literal generalizing units with
  | nil => simp [globMatches]
  | cons c literal ih =>
    rw [List.mem_cons, not_or] at hliteral
    rw [globMatches, if_neg (Ne.symm hliteral.1), Bool.and_eq_true, decide_eq_true_eq,
      ih hliteral.2]
    cases units <;> simp

/-- A glob `*` with a literal matches the names with that ending. -/
theorem globMatches_star {literal : Text} (hliteral : '*' ∉ literal)
    {units : List (Char ⊕ UInt8)} :
    globMatches ('*' :: literal) units = true ↔ literal.map .inl <:+ units := by
  rw [globMatches, if_pos rfl, List.any_eq_true]
  constructor
  · rintro ⟨rest, hrest, hmatch⟩
    rw [globMatches_literal hliteral] at hmatch
    exact hmatch ▸ (List.mem_tails _ _).mp hrest
  · intro hsuffix
    exact ⟨_, (List.mem_tails _ _).mpr hsuffix, (globMatches_literal hliteral).mpr rfl⟩

/-- What the built-in patterns select. -/
theorem ignoredName_of_selects {p : IgnorePattern} (hp : p ∈ defaultMatcher) {rel : OsPath}
    (h : p.selects rel = true) : ∃ name, rel.fileName = some name ∧ IgnoredName name := by
  have htarget : '*' ∉ "target".toList := by decide
  have hgit : '*' ∉ ".git".toList := by decide
  have hrlib : '*' ∉ ".rlib".toList := by decide
  have htests : '*' ∉ "tests".toList := by decide
  obtain ⟨line, hline, rfl⟩ := List.mem_map.mp hp
  unfold unanchored at h
  dsimp only at h
  split at h
  · rename_i name hname
    refine ⟨name, hname, ?_⟩
    simp only [defaultIgnorePatterns, List.mem_cons, List.not_mem_nil, or_false] at hline
    rcases hline with rfl | rfl | rfl | rfl
    · exact .inl ⟨_, by simp [ignoredDirs], (globMatches_literal htarget).mp h⟩
    · exact .inl ⟨_, by simp [ignoredDirs], (globMatches_literal hgit).mp h⟩
    · exact .inr ((globMatches_star hrlib).mp h)
    · exact .inl ⟨_, by simp [ignoredDirs], (globMatches_literal htests).mp h⟩
  · cases h

/-- The built-in patterns decide nothing about a path unless they select its name. -/
theorem matched_default {rel : OsPath} {isDir : Bool}
    (h : ∀ name, rel.fileName = some name → ¬ IgnoredName name) :
    matched defaultMatcher rel isDir = none := by
  unfold matched
  rw [Option.map_eq_none_iff, List.find?_eq_none]
  intro p hp hselects
  obtain ⟨name, hname, hignored⟩ :=
    ignoredName_of_selects (List.mem_reverse.mp hp) (Bool.and_eq_true_iff.mp hselects).2
  exact h name hname hignored

/-- **A path none of whose names is selected by a built-in pattern is not ignored.** -/
theorem isIgnored_default {rel : OsPath} (h : ∀ name, .normal name ∈ rel.parts → ¬ IgnoredName name)
    (isDir : Bool) : isIgnored defaultMatcher rel isDir = false := by
  have hnone (parts : List (Part OsName)) (hparts : parts <+: rel.parts) (b : Bool) :
      matched defaultMatcher ⟨rel.absolute, parts⟩ b = none := by
    refine matched_default fun name hname => ?_
    unfold Path.fileName at hname
    split at hname
    · rename_i name' hlast
      cases hname
      exact h name (hparts.subset (List.mem_of_getLast? hlast))
    · cases hname
  unfold isIgnored matchedPathOrAnyParents
  split
  · rfl
  · have hself : matched defaultMatcher rel isDir = none := hnone rel.parts List.prefix_rfl isDir
    rw [hself, Option.none_or, List.findSome?_eq_none_iff.mpr]
    · simp
    · intro parts hparts
      refine hnone parts ?_ true
      exact (List.mem_inits _ _).mp (List.mem_reverse.mp (List.mem_of_mem_tail hparts))

end ModalRust.Upload
