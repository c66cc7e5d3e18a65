import Mathlib.Data.List.Dedup
import ModalRust.Scope.Metadata

/-!
# Rewriting manifests

The two edits that are made to manifests before upload: dev-dependency tables are
removed from member manifests, and the member arrays of the workspace manifest are
cut down to the closure. Parsing and the format-preserving rendering are those of a
TOML editor, taken as a parameter; the edits act on the parsed tables.
-/

namespace ModalRust.Scope

/-- What is looked up is there. -/
theorem mem_of_lookup {κ α : Type*} [BEq κ] [LawfulBEq κ] {l : List (κ × α)} {key : κ} {value : α}
    (h : l.lookup key = some value) : (key, value) ∈ l := by
  obtain ⟨before, after, hsplit, -⟩ := List.lookup_eq_some_iff.mp h
  rw [hsplit]
  simp

/-- A TOML value. Inline tables and table sections are both tables. -/
inductive Toml
  /-- A string. -/
  | string (s : Text)
  /-- A boolean. -/
  | boolean (b : Bool)
  /-- A number or a date, by its text. -/
  | other (raw : Text)
  /-- An array, also an array of tables. -/
  | array (items : List Toml)
  /-- A table. -/
  | table (entries : List (Text × Toml))

/-- A table as its entries. -/
abbrev Table := List (Text × Toml)

/-- A format-preserving TOML editor. -/
structure TomlEdit where
  /-- Parse a document. -/
  parse : Text → Except Text Table
  /-- Render an edited document, given the text that it was parsed from. -/
  render : Text → Table → Text

/-- `as_table_like`. -/
def Toml.asTableLike : Toml → Option Table
  | .table entries => some entries
  | _ => none

/-- `as_str`. -/
def Toml.asStr : Toml → Option Text
  | .string s => some s
  | _ => none

namespace Table

/-- `get`. -/
def get (t : Table) (key : Text) : Option Toml := t.lookup key

/-- `contains_key`. -/
def containsKey (t : Table) (key : Text) : Bool := (t.get key).isSome

/-- `remove`. -/
def remove (t : Table) (key : Text) : Table := t.filter fun entry => entry.1 ≠ key

/-- `insert`: replace the entry in place, or append it. -/
def insert (t : Table) (key : Text) (value : Toml) : Table :=
  if t.containsKey key then
    t.map fun entry => if entry.1 = key then (key, value) else entry
  else t ++ [(key, value)]

/-- A key that is not removed is found as before. -/
theorem get_remove (t : Table) {key k : Text} (hk : k ≠ key) :
    (t.remove key).get k = t.get k := by
  induction t with
  | nil => rfl
  | cons entry t ih =>
    obtain ⟨k', v⟩ := entry
    unfold remove get at ih ⊢
    by_cases hkey : k' = key
    · have hne : (k == k') = false := beq_false_of_ne (hkey ▸ hk)
      simpa [List.filter_cons, hkey, List.lookup_cons, hkey ▸ hne] using ih
    · simp only [ne_eq, decide_not] at ih
      simp [hkey, List.lookup_cons, ih]

/-- A removed key is gone. -/
theorem get_remove_self (t : Table) (key : Text) : (t.remove key).get key = none := by
  unfold remove get
  rw [List.lookup_eq_none_iff]
  intro entry hentry
  have hne := (List.mem_filter.mp hentry).2
  simpa using fun h => of_decide_eq_true hne h.symm

/-- Another key is found as before an insertion. -/
theorem get_insert (t : Table) {key k : Text} (value : Toml) (hk : k ≠ key) :
    (t.insert key value).get k = t.get k := by
  unfold insert
  split
  · clear * - hk
    induction t with
    | nil => rfl
    | cons entry t ih =>
      obtain ⟨k', v⟩ := entry
      unfold get at ih ⊢
      by_cases hkey : k' = key
      · have hne : (k == key) = false := beq_false_of_ne hk
        simpa [hkey, List.lookup_cons, hne] using ih
      · simp [hkey, List.lookup_cons, ih]
  · unfold get
    rw [List.lookup_append]
    have hne : (k == key) = false := beq_false_of_ne hk
    simp [List.lookup_cons, hne]

/-- An inserted value is found. -/
theorem get_insert_self (t : Table) (key : Text) (value : Toml) :
    (t.insert key value).get key = some value := by
  unfold insert
  split
  · rename_i hcontains
    unfold containsKey at hcontains
    induction t with
    | nil => simp [get] at hcontains
    | cons entry t ih =>
      obtain ⟨k, v⟩ := entry
      unfold get at ih hcontains ⊢
      by_cases hkey : k = key
      · simp [hkey]
      · have hne : (key == k) = false := beq_false_of_ne (Ne.symm hkey)
        simp only [List.lookup_cons, hne] at hcontains
        simpa [hkey, List.lookup_cons, hne] using ih hcontains
  · rename_i hcontains
    have hnone : t.lookup key = none :=
      Option.not_isSome_iff_eq_none.mp (by simpa only [containsKey, get] using hcontains)
    simp [get, List.lookup_append, hnone]

end Table

/-- The dev-dependencies table, as this code spells it. -/
def devDependencies : Text := "dev-dependencies".toList

/-- One entry of the `target` table without its dev-dependencies. -/
def stripCfg (entry : Text × Toml) : Text × Toml :=
  match entry.2.asTableLike with
  | none => entry
  | some cfg => (entry.1, .table (cfg.remove devDependencies))

/-- Whether one entry of the `target` table has dev-dependencies. -/
def cfgHasDev (entry : Text × Toml) : Bool :=
  match entry.2.asTableLike with
  | none => false
  | some cfg => cfg.containsKey devDependencies

/-- A document without its dev-dependency tables. -/
def stripTable (doc : Table) : Table :=
  let doc := doc.remove devDependencies
  match (doc.get "target".toList).bind Toml.asTableLike with
  | none => doc
  | some target => doc.insert "target".toList (.table (target.map stripCfg))

/-- Whether a document has a dev-dependency table. -/
def hasDev (doc : Table) : Bool :=
  doc.containsKey devDependencies ||
    (((doc.get "target".toList).bind Toml.asTableLike).getD []).any cfgHasDev

/-- `strip_dev_dependencies`: `none` if there is nothing to strip. -/
def stripDevDependencies (toml : TomlEdit) (original : Text) : Except Text (Option Text) :=
  match toml.parse original with
  | .error e => .error ("parse Cargo.toml: ".toList ++ e)
  | .ok doc => .ok (if hasDev doc then some (toml.render original (stripTable doc)) else none)

/-- The workspace-relative name of a crate directory. -/
def crateName (workspaceRoot dir : FilePath) : Option Text :=
  (dir.stripPrefix workspaceRoot).map fun rel => rel.toPosix FileName.toStr

/-- The closure directories as workspace-relative texts, sorted and without repeats. -/
def memberList (workspaceRoot : FilePath) (dirs : List FilePath) : List Text :=
  ((dirs.filterMap (crateName workspaceRoot)).filter (· ≠ [])).dedup.insertionSort fun a b =>
    textKey a ≤ textKey b

/-- The `[workspace]` table with new member arrays. -/
def scopeWorkspace (members : List Text) (ws : Table) : Table :=
  let array : Toml := .array (members.map .string)
  let ws := ws.insert "members".toList array
  let ws := if ws.containsKey "default-members".toList then
    ws.insert "default-members".toList array else ws
  if ws.containsKey "exclude".toList then ws.insert "exclude".toList (.array []) else ws

/-- A document with scoped member arrays; `none` without a `[workspace]` table. -/
def scopeMembers (workspaceRoot : FilePath) (dirs : List FilePath) (doc : Table) : Option Table :=
  ((doc.get "workspace".toList).bind Toml.asTableLike).map fun ws =>
    doc.insert "workspace".toList (.table (scopeWorkspace (memberList workspaceRoot dirs) ws))

/-- The members that a root manifest lists. -/
def declaredMembers (doc : Table) : List Text :=
  match ((doc.get "workspace".toList).bind Toml.asTableLike).bind (·.get "members".toList) with
  | some (.array items) => items.filterMap Toml.asStr
  | _ => []

/-- `rewrite_workspace_members`: a manifest without a `[workspace]` table is kept. -/
def rewriteWorkspaceMembers (toml : TomlEdit) (original : Text) (workspaceRoot : FilePath)
    (dirs : List FilePath) : Except Text Text :=
  match toml.parse original with
  | .error e => .error ("parse Cargo.toml: ".toList ++ e)
  | .ok doc =>
    match scopeMembers workspaceRoot dirs doc with
    | none => .ok original
    | some doc' => .ok (toml.render original doc')

/-- The members after the edit of a `[workspace]` table. -/
theorem get_scopeWorkspace (members : List Text) (ws : Table) :
    (scopeWorkspace members ws).get "members".toList =
      some (.array (members.map .string)) := by
  have hdefault : "members".toList ≠ "default-members".toList := by decide
  have hexclude : "members".toList ≠ "exclude".toList := by decide
  unfold scopeWorkspace
  dsimp only
  split <;> split <;>
    simp only [Table.get_insert _ _ hdefault, Table.get_insert _ _ hexclude,
      Table.get_insert_self]

/-- A scoped root manifest lists the closure. -/
theorem declaredMembers_scopeMembers {workspaceRoot : FilePath} {dirs : List FilePath}
    {doc doc' : Table} (h : scopeMembers workspaceRoot dirs doc = some doc') :
    declaredMembers doc' = memberList workspaceRoot dirs := by
  obtain ⟨ws, -, rfl⟩ := Option.map_eq_some_iff.mp h
  unfold declaredMembers
  rw [Table.get_insert_self]
  simp only [Option.bind_some, Toml.asTableLike, get_scopeWorkspace, List.filterMap_map]
  exact List.filterMap_some

/-- Different directories have different names. -/
theorem crateName_inj {workspaceRoot a b : FilePath} {name : Text}
    (ha : crateName workspaceRoot a = some name) (hb : crateName workspaceRoot b = some name) :
    a = b := by
  obtain ⟨rel, hrel, rfl⟩ := Option.map_eq_some_iff.mp ha
  obtain ⟨rel', hrel', hname⟩ := Option.map_eq_some_iff.mp hb
  rw [Path.toPosix_inj hname] at hrel'
  exact Path.stripPrefix_inj hrel hrel'

/-- The closure directories below the root are listed by their names. -/
theorem mem_memberList {workspaceRoot : FilePath} {dirs : List FilePath} {name : Text} :
    name ∈ memberList workspaceRoot dirs ↔
      name ≠ [] ∧ ∃ dir ∈ dirs, crateName workspaceRoot dir = some name := by
  unfold memberList
  rw [List.mem_insertionSort, List.mem_dedup, List.mem_filter, List.mem_filterMap,
    decide_eq_true_eq, and_comm]

end ModalRust.Scope
