import ModalRust.Scope.Manifest

/-!
# The dependency tables of a manifest

What cargo reads as path dependencies, and what the two edits do to it. A manifest is
compared by its leaves, the values that are not tables: an edited text reads back with
the leaves of the edited document, although empty tables and the order of entries may
differ. Stripping removes the dev-dependency tables in the spelling that it knows,
everything else that is declared stays, and scoping changes no dependency at all.
-/

namespace ModalRust.Scope

/-- The value at a path of keys. -/
def Toml.at (v : Toml) : List Text → Option Toml
  | [] => some v
  | key :: keys =>
    match v.asTableLike.bind (·.get key) with
    | none => none
    | some v => v.at keys

/-- The value at a path of keys, unless it is a table. -/
def Table.leafAt (doc : Table) (keys : List Text) : Option Toml :=
  ((Toml.table doc).at keys).filter fun v => v.asTableLike.isNone

/-- The editor reads an edited text back with the leaves of the edited document. -/
def TomlEdit.ReadsBack (toml : TomlEdit) (text : Text) (edited : Table) : Prop :=
  ∃ doc, toml.parse (toml.render text edited) = .ok doc ∧
    ∀ keys, doc.leafAt keys = edited.leafAt keys

/-- A dependency table of a manifest. -/
structure DepTable where
  /-- The key of the table. -/
  key : Text
  /-- The platform, for a table below `target`. -/
  platform : Option Text

/-- The path of keys to a dependency table. -/
def DepTable.keys (t : DepTable) : List Text :=
  match t.platform with
  | none => [t.key]
  | some cfg => ["target".toList, cfg, t.key]

/-- The key of normal dependencies. -/
def normalKey : Text := "dependencies".toList

/-- The keys of dependency tables; cargo knows two spellings of some. -/
def dependencyKeys : List Text :=
  [normalKey, devDependencies, "dev_dependencies".toList, "build-dependencies".toList,
    "build_dependencies".toList]

/-- A dependency table declares a path dependency on a directory, itself or through the
`[workspace.dependencies]` of the root manifest. How paths are resolved is a parameter. -/
def Declares (resolve : FilePath → Text → FilePath) (workspaceRoot : FilePath) (rootDoc : Table)
    (dir : FilePath) (doc : Table) (t : DepTable) (dep : FilePath) : Prop :=
  ∃ name path,
    (doc.leafAt (t.keys ++ [name, "path".toList]) = some (.string path) ∧
      dep = resolve dir path) ∨
    (doc.leafAt (t.keys ++ [name, "workspace".toList]) = some (.boolean true) ∧
      rootDoc.leafAt ["workspace".toList, normalKey, name, "path".toList] = some (.string path) ∧
      dep = resolve workspaceRoot path)

/-- Two documents with the same leaves under a table and the same workspace
dependencies declare the same. -/
theorem Declares.congr {resolve : FilePath → Text → FilePath} {workspaceRoot dir dep : FilePath}
    {rootDoc rootDoc' doc doc' : Table} {t : DepTable}
    (hroot : ∀ rest, rootDoc'.leafAt ("workspace".toList :: normalKey :: rest) =
      rootDoc.leafAt ("workspace".toList :: normalKey :: rest))
    (hdoc : ∀ rest, doc'.leafAt (t.keys ++ rest) = doc.leafAt (t.keys ++ rest)) :
    Declares resolve workspaceRoot rootDoc' dir doc' t dep ↔
      Declares resolve workspaceRoot rootDoc dir doc t dep := by
  simp only [Declares, hdoc, hroot]

/-- A document without leaves under a table declares nothing there. -/
theorem not_declares {resolve : FilePath → Text → FilePath} {workspaceRoot dir dep : FilePath}
    {rootDoc doc : Table} {t : DepTable} (hdoc : ∀ rest, doc.leafAt (t.keys ++ rest) = none) :
    ¬ Declares resolve workspaceRoot rootDoc dir doc t dep := by
  simp [Declares, hdoc]

/-- Reading one key of a table. -/
theorem Toml.at_table (t : Table) (key : Text) (keys : List Text) :
    (Toml.table t).at (key :: keys) = (t.get key).bind fun v => v.at keys := by
  cases h : t.get key <;> simp [Toml.at, Toml.asTableLike, h]

/-- Only tables have entries. -/
theorem Toml.at_of_not_table {v : Toml} (h : v.asTableLike = none) (key : Text)
    (keys : List Text) : v.at (key :: keys) = none := by
  simp [Toml.at, h]

/-- A value that is read as a table is one. -/
theorem Toml.asTableLike_eq_some {v : Toml} {t : Table} (h : v.asTableLike = some t) :
    v = .table t := by
  cases v with
  | table t' => exact congrArg Toml.table (Option.some.inj h)
  | _ => cases h

/-- The leaves under a key are those of its value. -/
theorem Table.leafAt_congr {t t' : Table} {key : Text} {keys : List Text}
    (h : (t'.get key).bind (·.at keys) = (t.get key).bind (·.at keys)) :
    t'.leafAt (key :: keys) = t.leafAt (key :: keys) := by
  unfold Table.leafAt
  rw [Toml.at_table, Toml.at_table, h]

/-- There are no leaves under a key that is not there. -/
theorem Table.leafAt_eq_none {t : Table} {key : Text} {keys : List Text}
    (h : (t.get key).bind (·.at keys) = none) : t.leafAt (key :: keys) = none := by
  unfold Table.leafAt
  rw [Toml.at_table, h, Option.filter_none]

/-- Editing the entries of a table edits what is found in it. -/
theorem Table.get_map_stripCfg (t : Table) (cfg : Text) :
    Table.get (t.map stripCfg) cfg = (t.get cfg).map fun v => (stripCfg (cfg, v)).2 := by
  have hkey (entry : Text × Toml) : (stripCfg entry).1 = entry.1 := by
    unfold stripCfg
    split <;> rfl
  induction t with
  | nil => rfl
  | cons entry t ih =>
    obtain ⟨k, v⟩ := entry
    unfold Table.get at ih ⊢
    rw [List.map_cons, ← Prod.mk.eta (p := stripCfg (k, v)), hkey, List.lookup_cons,
      List.lookup_cons, ih]
    by_cases hcfg : cfg = k
    · simp [hcfg]
    · simp [beq_false_of_ne hcfg]

/-- What stripping does to the value of a platform. -/
theorem at_stripCfg (cfg : Text) (v : Toml) (key : Text) (keys : List Text) :
    (stripCfg (cfg, v)).2.at (key :: keys) =
      if key = devDependencies then none else v.at (key :: keys) := by
  unfold stripCfg
  split
  · rename_i htable
    rw [Toml.at_of_not_table htable, ite_self]
  · rename_i t htable
    have hv : v = .table t := Toml.asTableLike_eq_some htable
    change (Toml.table (t.remove devDependencies)).at (key :: keys) = _
    rw [hv, Toml.at_table, Toml.at_table]
    split
    · rename_i hdev
      rw [hdev, Table.get_remove_self, Option.bind_none]
    · rename_i hdev
      rw [Table.get_remove _ hdev]

/-- Stripping keeps the keys other than the dev-dependencies and `target`. -/
theorem get_stripTable (doc : Table) {key : Text} (hdev : key ≠ devDependencies)
    (htarget : key ≠ "target".toList) : (stripTable doc).get key = doc.get key := by
  unfold stripTable
  dsimp only
  split
  · exact Table.get_remove doc hdev
  · rw [Table.get_insert _ _ htarget, Table.get_remove doc hdev]

/-- Stripping removes the dev-dependencies. -/
theorem get_stripTable_dev (doc : Table) : (stripTable doc).get devDependencies = none := by
  have hne : devDependencies ≠ "target".toList := by decide
  unfold stripTable
  dsimp only
  split
  · exact Table.get_remove_self doc _
  · rw [Table.get_insert _ _ hne, Table.get_remove_self]

/-- Stripping below `target`. -/
theorem at_stripTable_target (doc : Table) (cfg key : Text) (keys : List Text) :
    ((stripTable doc).get "target".toList).bind (·.at (cfg :: key :: keys)) =
      if key = devDependencies then none
      else (doc.get "target".toList).bind (·.at (cfg :: key :: keys)) := by
  have hne : "target".toList ≠ devDependencies := by decide
  unfold stripTable
  dsimp only
  rw [Table.get_remove doc hne]
  split
  · rename_i htable
    have hnone : (doc.get "target".toList).bind (·.at (cfg :: key :: keys)) = none := by
      rw [Option.bind_eq_none_iff] at htable ⊢
      exact fun v hv => Toml.at_of_not_table (htable v hv) _ _
    rw [Table.get_remove doc hne, hnone, ite_self]
  · rename_i target htable
    obtain ⟨v, hv, htarget⟩ := Option.bind_eq_some_iff.mp htable
    rw [hv, Toml.asTableLike_eq_some htarget, Table.get_insert_self, Option.bind_some,
      Option.bind_some, Toml.at_table, Toml.at_table, Table.get_map_stripCfg]
    cases hcfg : Table.get target cfg with
    | none => simp
    | some v => simpa using at_stripCfg cfg v key keys

/-- What stripping leaves in a dependency table: nothing in the spelling that it knows,
and everything in any other table. -/
theorem leafAt_stripTable (doc : Table) {t : DepTable} (ht : t.key ∈ dependencyKeys)
    (rest : List Text) :
    (stripTable doc).leafAt (t.keys ++ rest) =
      if t.key = devDependencies then none else doc.leafAt (t.keys ++ rest) := by
  have htarget : t.key ≠ "target".toList := by
    intro heq
    rw [heq] at ht
    exact absurd ht (by decide)
  unfold DepTable.keys
  split
  · split
    · rename_i hdev
      refine Table.leafAt_eq_none ?_
      rw [hdev, get_stripTable_dev, Option.bind_none]
    · rename_i hdev
      refine Table.leafAt_congr ?_
      rw [get_stripTable doc hdev htarget]
  · rename_i cfg _
    have hat := at_stripTable_target doc cfg t.key rest
    split
    · rename_i hdev
      rw [if_pos hdev] at hat
      exact Table.leafAt_eq_none hat
    · rename_i hdev
      rw [if_neg hdev] at hat
      exact Table.leafAt_congr hat

/-- A document with nothing to strip has no leaves in the dev-dependency tables. -/
theorem leafAt_of_not_hasDev {doc : Table} (hdev : hasDev doc = false) {t : DepTable}
    (ht : t.key = devDependencies) (rest : List Text) :
    doc.leafAt (t.keys ++ rest) = none := by
  obtain ⟨hroot, hcfg⟩ := Bool.or_eq_false_iff.mp hdev
  have habsent {t : Table} (h : t.containsKey devDependencies = false) :
      t.get devDependencies = none := Option.not_isSome_iff_eq_none.mp (Bool.eq_false_iff.mp h)
  unfold DepTable.keys
  rw [ht]
  split <;> simp only [List.cons_append, List.nil_append]
  · refine Table.leafAt_eq_none ?_
    rw [habsent hroot, Option.bind_none]
  · rename_i cfg _
    refine Table.leafAt_eq_none ?_
    rw [Option.bind_eq_none_iff]
    intro v hv
    cases htable : v.asTableLike with
    | none => exact Toml.at_of_not_table htable _ _
    | some target =>
      rw [Toml.asTableLike_eq_some htable, Toml.at_table, Option.bind_eq_none_iff]
      intro w hw
      cases hwtable : w.asTableLike with
      | none => exact Toml.at_of_not_table hwtable _ _
      | some cfgTable =>
        rw [hv, Option.bind_some, htable, Option.getD_some] at hcfg
        have hentry := List.any_eq_false.mp hcfg _ (mem_of_lookup hw)
        have hno : cfgTable.containsKey devDependencies = false := by
          simpa [cfgHasDev, hwtable] using hentry
        rw [Toml.asTableLike_eq_some hwtable, Toml.at_table, habsent hno, Option.bind_none]

/-- Scoping changes nothing outside of the `[workspace]` table. -/
theorem leafAt_scopeMembers {workspaceRoot : FilePath} {dirs : List FilePath}
    {doc edited : Table} (h : scopeMembers workspaceRoot dirs doc = some edited) {key : Text}
    (hkey : key ≠ "workspace".toList) (rest : List Text) :
    edited.leafAt (key :: rest) = doc.leafAt (key :: rest) := by
  obtain ⟨ws, -, rfl⟩ := Option.map_eq_some_iff.mp h
  refine Table.leafAt_congr ?_
  rw [Table.get_insert _ _ hkey]

/-- Scoping keeps the dependency tables. -/
theorem leafAt_scopeMembers_depTable {workspaceRoot : FilePath} {dirs : List FilePath}
    {doc edited : Table} (h : scopeMembers workspaceRoot dirs doc = some edited) {t : DepTable}
    (ht : t.key ∈ dependencyKeys) (rest : List Text) :
    edited.leafAt (t.keys ++ rest) = doc.leafAt (t.keys ++ rest) := by
  have hkey : t.key ≠ "workspace".toList := by
    intro heq
    rw [heq] at ht
    exact absurd ht (by decide)
  have htarget : "target".toList ≠ "workspace".toList := by decide
  unfold DepTable.keys
  split
  · exact leafAt_scopeMembers h hkey rest
  · exact leafAt_scopeMembers h htarget _

/-- Scoping keeps the workspace dependencies. -/
theorem leafAt_scopeMembers_workspace {workspaceRoot : FilePath} {dirs : List FilePath}
    {doc edited : Table} (h : scopeMembers workspaceRoot dirs doc = some edited)
    (rest : List Text) :
    edited.leafAt ("workspace".toList :: normalKey :: rest) =
      doc.leafAt ("workspace".toList :: normalKey :: rest) := by
  obtain ⟨ws, hws, rfl⟩ := Option.map_eq_some_iff.mp h
  obtain ⟨v, hv, htable⟩ := Option.bind_eq_some_iff.mp hws
  have hmembers : normalKey ≠ "members".toList := by decide
  have hdefault : normalKey ≠ "default-members".toList := by decide
  have hexclude : normalKey ≠ "exclude".toList := by decide
  refine Table.leafAt_congr ?_
  rw [Table.get_insert_self, hv, Toml.asTableLike_eq_some htable, Option.bind_some,
    Option.bind_some, Toml.at_table, Toml.at_table]
  unfold scopeWorkspace
  dsimp only
  split <;> split <;> simp only [Table.get_insert _ _ hmembers, Table.get_insert _ _ hdefault,
    Table.get_insert _ _ hexclude]

end ModalRust.Scope
