import Mathlib.Data.List.Basic
import Mathlib.Data.List.Sort
import ModalRust.Text

/-!
# Paths

Paths as their components, with the operations of `std::path` that work component by
component, and the joining of components by `/`. Component names may come from the
operating system, so joining takes a conversion to text that may fail; for names that
are texts, joining is injective. Nothing in this file refers to a particular program.
-/

namespace ModalRust

/-- A file name that is valid text. -/
structure FileName where
  /-- The name. -/
  text : Text
  /-- A name is not empty. -/
  ne_nil : text ≠ []
  /-- A name does not contain the separator. -/
  no_slash : '/' ∉ text
  /-- The entries `.` and `..` are not names. -/
  no_dots : text ≠ ['.'] ∧ text ≠ ['.', '.']
  deriving DecidableEq

/-- A text can be a file name. -/
structure IsFileName (t : Text) : Prop where
  /-- It is not empty. -/
  ne_nil : t ≠ []
  /-- It does not contain the separator. -/
  no_slash : '/' ∉ t
  /-- It is neither `.` nor `..`. -/
  no_dots : t ≠ ['.'] ∧ t ≠ ['.', '.']

/-- The file name that a text is. -/
def IsFileName.name {t : Text} (ht : IsFileName t) : FileName :=
  ⟨t, ht.ne_nil, ht.no_slash, ht.no_dots⟩

/-- A path component below the root. -/
inductive Part (ν : Type*)
  /-- `..`. -/
  | parentDir
  /-- A file name. -/
  | normal (name : ν)
  deriving DecidableEq

/-- A path. The empty path is relative and has no parts. -/
structure Path (ν : Type*) where
  /-- Whether the path starts at the root. -/
  absolute : Bool
  /-- The components, without the root. -/
  parts : List (Part ν)
  deriving DecidableEq

namespace Path

variable {ν : Type*}

/-- The empty path. -/
def empty : Path ν := ⟨false, []⟩

/-- `join` with one file name. -/
def join (p : Path ν) (name : ν) : Path ν := ⟨p.absolute, p.parts ++ [.normal name]⟩

/-- `parent`: the path without its last component. -/
def parent (p : Path ν) : Option (Path ν) :=
  if p.parts.isEmpty then none else some ⟨p.absolute, p.parts.dropLast⟩

/-- `file_name`: the last component, if it is a name. -/
def fileName (p : Path ν) : Option ν :=
  match p.parts.getLast? with
  | some (.normal name) => some name
  | _ => none

/-- `as_os_str().is_empty()`. -/
def isEmpty (p : Path ν) : Bool := !p.absolute && p.parts.isEmpty

/-- The text of each component, where it is valid text. -/
def components (toStr : ν → Option Text) (p : Path ν) : List Text :=
  (if p.absolute then [['/']] else []) ++ p.parts.filterMap fun part =>
    match part with
    | .parentDir => some ['.', '.']
    | .normal name => toStr name

/-- The components that are valid text, joined by `/`. -/
def toPosix (toStr : ν → Option Text) (p : Path ν) : Text :=
  ['/'].intercalate (p.components toStr)

/-- A key whose lexicographic order is the order of paths. -/
def key (toBytes : ν → List ℕ) (p : Path ν) : List (List ℕ) :=
  (if p.absolute then [[0]] else []) ++ p.parts.map fun part =>
    match part with
    | .parentDir => [1]
    | .normal name => 2 :: toBytes name

/-- The key identifies the path, if names are identified by their bytes. -/
theorem key_injective {toBytes : ν → List ℕ} (h : Function.Injective toBytes) :
    Function.Injective (key toBytes) := by
  have hpart : Function.Injective fun part : Part ν =>
      match part with
      | .parentDir => [1]
      | .normal name => 2 :: toBytes name := by
    intro a b hab
    cases a <;> cases b <;> simp at hab ⊢
    exact h hab
  have hroot (parts : List (Part ν)) (part : Part ν) :
      (match part with
      | .parentDir => [1]
      | .normal name => 2 :: toBytes name) ≠ [0] := by
    cases part <;> simp
  rintro ⟨pabs, pparts⟩ ⟨qabs, qparts⟩ hpq
  cases pabs <;> cases qabs <;>
    simp only [key, if_true, Bool.false_eq_true, if_false, List.nil_append, List.singleton_append,
      List.cons.injEq, true_and, Path.mk.injEq] at hpq ⊢
  · exact hpart.list_map hpq
  · cases pparts with
    | nil => cases hpq
    | cons part parts => exact absurd (List.cons.inj hpq).1 (hroot parts part)
  · cases qparts with
    | nil => cases hpq
    | cons part parts => exact absurd (List.cons.inj hpq).1.symm (hroot parts part)
  · exact hpart.list_map hpq

/-- The parent of a joined path. -/
@[simp] theorem parent_join (p : Path ν) (name : ν) : (p.join name).parent = some p := by
  simp [parent, join]

variable [DecidableEq ν]

/-- `strip_prefix`: the rest of a path below a base. -/
def stripPrefix (p base : Path ν) : Option (Path ν) :=
  if base.absolute = p.absolute then (base.parts.isPrefixOf? p.parts).map fun rest => ⟨false, rest⟩
  else if base = empty then some p
  else none

/-- `strip_prefix` inverts appending to a base that is not empty. -/
theorem stripPrefix_eq_some {p base rest : Path ν} (hbase : base ≠ empty) :
    p.stripPrefix base = some rest ↔
      rest.absolute = false ∧ p = ⟨base.absolute, base.parts ++ rest.parts⟩ := by
  obtain ⟨pabs, pparts⟩ := p
  obtain ⟨rabs, rparts⟩ := rest
  unfold stripPrefix
  by_cases habs : base.absolute = pabs
  · simp only [habs, if_true, Option.map_eq_some_iff, List.isPrefixOf?_eq_some_iff_append_eq,
      Path.mk.injEq, true_and]
    constructor
    · rintro ⟨rest, hparts, hfalse, rfl⟩
      exact ⟨hfalse.symm, hparts.symm⟩
    · rintro ⟨hfalse, hparts⟩
      exact ⟨rparts, hparts.symm, hfalse.symm, rfl⟩
  · simp [habs, hbase, Ne.symm habs]

/-- Two paths with the same rest below one base are the same. -/
theorem stripPrefix_inj {p q base rest : Path ν} (hp : p.stripPrefix base = some rest)
    (hq : q.stripPrefix base = some rest) : p = q := by
  by_cases hbase : base = empty
  · have hself (r : Path ν) : r.stripPrefix empty = some r := by
      obtain ⟨rabs, rparts⟩ := r
      cases rabs <;> simp [stripPrefix, empty, List.isPrefixOf?]
    rw [hbase, hself] at hp hq
    exact Option.some.inj (hp.trans hq.symm)
  · rw [stripPrefix_eq_some hbase] at hp hq
    rw [hp.2, hq.2]

end Path

/-- A component with its name mapped. -/
def Part.map {ν μ : Type*} (f : ν → μ) : Part ν → Part μ
  | .parentDir => .parentDir
  | .normal name => .normal (f name)

/-- A path with its names mapped. -/
def Path.map {ν μ : Type*} (f : ν → μ) (p : Path ν) : Path μ :=
  ⟨p.absolute, p.parts.map (Part.map f)⟩

/-- Stripping a prefix below mapped names. -/
theorem Path.stripPrefix_map {ν μ : Type*} [DecidableEq ν] [DecidableEq μ] (f : ν → μ)
    {p base rest : Path ν} (h : p.stripPrefix base = some rest) :
    (p.map f).stripPrefix (base.map f) = some (rest.map f) := by
  by_cases hbase : base = empty
  · rw [hbase] at h ⊢
    obtain ⟨pabs, pparts⟩ := p
    cases pabs
    · simp only [stripPrefix, empty, List.isPrefixOf?, if_true, Option.map_some,
        Option.some.injEq] at h
      rw [← h]
      simp [stripPrefix, map, empty, List.isPrefixOf?]
    · simp only [stripPrefix, empty, Bool.false_eq_true, if_false, if_true,
        Option.some.injEq] at h
      rw [← h]
      simp [stripPrefix, map, empty]
  · have hbase' : base.map f ≠ empty := by
      intro hempty
      obtain ⟨babs, bparts⟩ := base
      simp only [map, empty, Path.mk.injEq, List.map_eq_nil_iff] at hempty
      exact hbase (by rw [hempty.1, hempty.2]; rfl)
    obtain ⟨habs, rfl⟩ := (stripPrefix_eq_some hbase).mp h
    rw [stripPrefix_eq_some hbase']
    exact ⟨habs, by simp [map]⟩

/-- The text of a file name. -/
def FileName.toStr (name : FileName) : Option Text := some name.text

/-- Names compare by their code points. -/
def FileName.toBytes (name : FileName) : List ℕ := name.text.map Char.toNat

/-- The code points identify the name. -/
theorem FileName.toBytes_injective : Function.Injective FileName.toBytes := by
  rintro ⟨t, _, _, _⟩ ⟨u, _, _, _⟩ h
  have htext : t = u := List.map_injective_iff.mpr (fun _ _ => Char.toNat_inj.mp) h
  cases htext
  rfl

/-- The text of a path component. -/
def Part.text : Part FileName → Text
  | .parentDir => ['.', '.']
  | .normal name => name.text

/-- A component's text is not empty. -/
theorem Part.text_ne_nil (part : Part FileName) : part.text ≠ [] := by
  cases part with
  | parentDir => simp [Part.text]
  | normal name => exact name.ne_nil

/-- A component's text does not contain the separator. -/
theorem Part.no_slash (part : Part FileName) : '/' ∉ part.text := by
  cases part with
  | parentDir => simp [Part.text]
  | normal name => exact name.no_slash

/-- Components with the same text are the same. -/
theorem Part.text_inj {a b : Part FileName} (h : a.text = b.text) : a = b := by
  cases a with
  | parentDir =>
    cases b with
    | parentDir => rfl
    | normal name => exact absurd h.symm name.no_dots.2
  | normal name =>
    cases b with
    | parentDir => exact absurd h name.no_dots.2
    | normal other =>
      obtain ⟨t, _, _, _⟩ := name
      obtain ⟨u, _, _, _⟩ := other
      cases (show t = u from h)
      rfl

namespace Path

/-- The components of a path whose names are texts. -/
theorem components_fileName (p : Path FileName) :
    p.components FileName.toStr =
      (if p.absolute then [['/']] else []) ++ p.parts.map Part.text := by
  unfold components
  congr 1
  rw [← List.filterMap_eq_map]
  refine List.filterMap_congr fun part _ => ?_
  cases part <;> rfl

/-- Joining component texts is injective. -/
theorem intercalate_inj {a b : List (Part FileName)}
    (h : ['/'].intercalate (a.map Part.text) = ['/'].intercalate (b.map Part.text)) : a = b := by
  have hslash (l : List (Part FileName)) : ∀ t ∈ l.map Part.text, '/' ∉ t := by
    intro t ht
    obtain ⟨part, -, rfl⟩ := List.mem_map.mp ht
    exact part.no_slash
  have hnil (l : List (Part FileName)) (hl : ['/'].intercalate (l.map Part.text) = []) :
      l = [] := by
    by_contra hne
    have hsplit := List.splitOn_intercalate '/' (hslash l) (by simpa using hne)
    obtain ⟨part, rest, rfl⟩ := List.exists_cons_of_ne_nil hne
    rw [hl] at hsplit
    exact part.text_ne_nil (List.cons.inj hsplit).1.symm
  by_cases ha : a = []
  · rw [ha] at h ⊢
    exact (hnil b h.symm).symm
  · by_cases hb : b = []
    · rw [hb] at h
      exact absurd (hnil a h) ha
    · have hsplit := List.splitOn_intercalate '/' (hslash a) (by simpa using ha)
      rw [h, List.splitOn_intercalate '/' (hslash b) (by simpa using hb)] at hsplit
      exact List.map_injective_iff.mpr (fun _ _ => Part.text_inj) hsplit.symm

/-- A relative path's text does not start with the separator. -/
theorem head_toPosix {p : Path FileName} (hp : p.absolute = false) :
    (p.toPosix FileName.toStr).head? ≠ some '/' := by
  unfold toPosix
  rw [components_fileName, hp]
  cases hparts : p.parts with
  | nil => simp
  | cons part rest =>
    obtain ⟨c, t, ht⟩ := List.exists_cons_of_ne_nil part.text_ne_nil
    have hc : c ≠ '/' := by
      rintro rfl
      exact part.no_slash (by simp [ht])
    cases rest <;> simp [ht, hc]

/-- Paths whose names are texts have different texts. -/
theorem toPosix_inj {p q : Path FileName}
    (h : p.toPosix FileName.toStr = q.toPosix FileName.toStr) : p = q := by
  have habsolute (r : Path FileName) (hr : r.absolute = true) :
      r.toPosix FileName.toStr =
        '/' :: if r.parts = [] then [] else '/' :: ['/'].intercalate (r.parts.map Part.text) := by
    unfold toPosix
    rw [components_fileName, hr]
    cases hparts : r.parts <;> simp
  obtain ⟨pabs, pparts⟩ := p
  obtain ⟨qabs, qparts⟩ := q
  cases pabs with
  | false =>
    cases qabs with
    | false =>
      have hparts : pparts = qparts := by
        apply intercalate_inj
        simpa [toPosix, components_fileName] using h
      rw [hparts]
    | true =>
      refine absurd ?_ (head_toPosix (p := ⟨false, pparts⟩) rfl)
      rw [h, habsolute _ rfl]
      rfl
  | true =>
    cases qabs with
    | false =>
      refine absurd ?_ (head_toPosix (p := ⟨false, qparts⟩) rfl)
      rw [← h, habsolute _ rfl]
      rfl
    | true =>
      rw [habsolute _ rfl, habsolute _ rfl] at h
      by_cases hpnil : pparts = [] <;> by_cases hqnil : qparts = []
      · rw [hpnil, hqnil]
      · simp [hpnil, hqnil] at h
      · simp [hpnil, hqnil] at h
      · simp only [hpnil, hqnil, if_false, List.cons.injEq, true_and] at h
        rw [intercalate_inj h]

/-- Only the empty path has no text. -/
theorem toPosix_eq_nil_iff {p : Path FileName} :
    p.toPosix FileName.toStr = [] ↔ p.isEmpty = true := by
  constructor
  · intro hnil
    have hempty : p = empty := toPosix_inj hnil
    rw [hempty]
    rfl
  · intro hempty
    obtain ⟨habs, hparts⟩ := p
    simp only [isEmpty, Bool.and_eq_true, Bool.not_eq_true', List.isEmpty_iff] at hempty
    rw [hempty.1, hempty.2]
    rfl

end Path

end ModalRust
