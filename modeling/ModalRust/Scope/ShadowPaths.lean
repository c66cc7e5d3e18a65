import ModalRust.Scope.LexicallyNormalize
import ModalRust.Scope.MinimalEdits

/-!
# Path dependencies of a shadow

A shadow of a workspace holds copies of the closure crates at another place. A relative path
dependency in a copied manifest still leads to a copy if its crate is in the closure; one that
leaves the closure is rewritten to the absolute path of its crate. The edit goes through the
dependency tables; it changes the paths that it is about and nothing else, and a second run changes
nothing.
-/

namespace ModalRust.Scope

open Component (Absolute destination fromRoot)

/-- The sections that hold dependency tables. -/
def depSections : List Text :=
  ["dependencies".toList, "build-dependencies".toList, "dev-dependencies".toList]

/-- `path`. -/
def pathKeyName : Text := "path".toList

/-- `get_mut`, with an edit that reports whether it changes the value. -/
def Table.getMut (t : Table) (key : Text) (edit : Toml → Toml × Bool) : Table × Bool :=
  (t.map fun entry => if entry.1 = key then (entry.1, (edit entry.2).1) else entry,
    ((t.get key).map fun v => (edit v).2).getD false)

/-- An edit of every entry of a table. -/
def Table.each (t : Table) (edit : Toml → Toml × Bool) : Table × Bool :=
  (t.map fun entry => (entry.1, (edit entry.2).1), t.any fun entry => (edit entry.2).2)

/-- An edit of a value, if it is a table: `as_table_like_mut`. -/
def Toml.asTableMut (edit : Table → Table × Bool) (v : Toml) : Toml × Bool :=
  match v.asTableLike with
  | none => (v, false)
  | some t => (.table (edit t).1, (edit t).2)

/-- The body of the loop of `rewrite_dep_table`, for the paths that `moved` rewrites. -/
def rewriteDep (moved : Text → Option Text) (item : Toml) : Toml × Bool :=
  item.asTableMut fun dep =>
    match ((dep.get pathKeyName).bind Toml.asStr).bind moved with
    | none => (dep, false)
    | some abs => (dep.insert pathKeyName (.string abs), true)

/-- `rewrite_dep_table`. -/
def rewriteDepTable (moved : Text → Option Text) (tbl : Table) : Table × Bool :=
  tbl.each (rewriteDep moved)

/-- The loop over the sections in `rewrite_path_deps_to_absolute`. -/
def rewriteSections (moved : Text → Option Text) (t : Table) : Table × Bool :=
  depSections.foldl (fun (t, changed) key =>
    let r := t.getMut key (Toml.asTableMut (rewriteDepTable moved))
    (r.1, changed || r.2)) (t, false)

/-- The edit of `rewrite_path_deps_to_absolute`, and its flag `changed`. -/
def rewritePathDeps (moved : Text → Option Text) (doc : Table) : Table × Bool :=
  let top := rewriteSections moved doc
  let target := top.1.getMut "target".toList
    (Toml.asTableMut fun target => target.each (Toml.asTableMut (rewriteSections moved)))
  (target.1, top.2 || target.2)

/-- `Path::is_absolute`, of a text. -/
def isAbsolute (path : Text) : Bool := path.head? = some '/'

/-- One component of a path after the first, from the text between two separators. -/
def componentOf (piece : Text) : Option (Component FileName) :=
  if hdots : piece = ['.'] ∨ piece = ['.', '.'] then
    if piece = ['.'] then none else some .parentDir
  else if hname : piece ≠ [] ∧ '/' ∉ piece then
    some (.normal ⟨piece, hname.1, hname.2, not_or.mp hdots⟩)
  else none

/-- The components of a relative path that is joined to another one. -/
def joinedComponents (path : Text) : List (Component FileName) :=
  (path.splitOn '/').filterMap componentOf

/-- The components of an absolute path. -/
def absoluteComponents (path : Text) : List (Component FileName) :=
  .rootDir :: joinedComponents path

variable (canonicalize : List (Component FileName) → Option FilePath)

/-- Where a relative path leads from a crate: `canonicalize` of the joined path, or, if it does not
exist, its lexical normalization. -/
def resolvedDep (crateDir : FilePath) (path : Text) : FilePath :=
  let joined := componentsOf crateDir ++ joinedComponents path
  (canonicalize joined).getD (lexicallyNormalize joined)

/-- What a path is rewritten to, if it is. -/
def movedPath (crateDir : FilePath) (closureDirs : List FilePath) (path : Text) : Option Text :=
  if isAbsolute path then none
  else if resolvedDep canonicalize crateDir path ∈ closureDirs then none
  else some (displayPath (resolvedDep canonicalize crateDir path))

/-- `rewrite_path_deps_to_absolute`. -/
def rewritePathDepsToAbsolute (toml : TomlEdit) (manifest : Text) (crateDir : FilePath)
    (closureDirs : List FilePath) : Option Text :=
  match toml.parse manifest with
  | .error _ => none
  | .ok doc =>
    let r := rewritePathDeps (movedPath canonicalize crateDir closureDirs) doc
    if r.2 then some (toml.render manifest r.1) else none

/-! ### The edit by key paths -/

/-- The value at a path of keys below a value, unless it is a table. -/
def Toml.leafAt (v : Toml) (keys : List Text) : Option Toml :=
  (v.at keys).filter fun w => w.asTableLike.isNone

/-- A value that is moved. -/
def movedValue (moved : Text → Option Text) (v : Toml) : Toml :=
  match v.asStr.bind moved with
  | none => v
  | some abs => .string abs

/-- An edit that moves the values at some paths of keys, and nothing else. -/
structure Moves (moved : Text → Option Text) (P : List Text → Prop) (v : Toml) (r : Toml × Bool) :
    Prop where
  /-- The values at these paths are moved. -/
  inside : ∀ keys, P keys → r.1.leafAt keys = (v.leafAt keys).map (movedValue moved)
  /-- All other values stay. -/
  outside : ∀ keys, ¬ P keys → r.1.leafAt keys = v.leafAt keys
  /-- A change is reported exactly if there is a path to move. -/
  changed : r.2 = true ↔
    ∃ keys path, P keys ∧ v.leafAt keys = some (.string path) ∧ (moved path).isSome = true
  /-- Keys stay distinct. -/
  distinct : r.1.Distinct

section Moves

variable {moved : Text → Option Text}

/-- The values below a table. -/
theorem Toml.leafAt_table (t : Table) (key : Text) (keys : List Text) :
    (Toml.table t).leafAt (key :: keys) = (t.get key).bind fun v => v.leafAt keys := by
  unfold Toml.leafAt
  rw [Toml.at_table]
  cases t.get key <;> rfl

/-- A table is not a value. -/
theorem Toml.leafAt_table_nil (t : Table) : (Toml.table t).leafAt [] = none := rfl

/-- There is nothing below a value. -/
theorem Toml.leafAt_of_not_table {v : Toml} (h : v.asTableLike = none) (key : Text)
    (keys : List Text) : v.leafAt (key :: keys) = none := by
  unfold Toml.leafAt
  rw [Toml.at_of_not_table h]
  rfl

/-- An entry of an edited table. -/
theorem Table.get_map_snd (t : Table) (edit : Text → Toml → Toml) (key : Text) :
    Table.get (t.map fun entry => (entry.1, edit entry.1 entry.2)) key =
      (t.get key).map (edit key) := by
  unfold Table.get
  induction t with
  | nil => rfl
  | cons entry t ih =>
    rw [List.map_cons, List.lookup_cons, List.lookup_cons, ih]
    by_cases hkey : key = entry.1
    · rw [hkey, beq_self_eq_true]
      rfl
    · rw [beq_false_of_ne hkey]

/-- Editing the entries of a table keeps its keys distinct. -/
theorem Toml.Distinct.map {t : Table} (ht : (Toml.table t).Distinct) (edit : Text → Toml → Toml)
    (hedit : ∀ key v, t.get key = some v → (edit key v).Distinct) :
    (Toml.table (t.map fun entry => (entry.1, edit entry.1 entry.2))).Distinct := by
  refine .table _ ?_ fun entry hentry => ?_
  · rw [List.map_map]
    exact ht.nodup
  · obtain ⟨⟨key, v⟩, hmem, rfl⟩ := List.mem_map.mp hentry
    exact hedit key v (Table.get_of_mem ht.nodup hmem)

/-- The paths of keys that go through one key. -/
def Below (key : Text) (P : List Text → Prop) (keys : List Text) : Prop :=
  ∃ rest, keys = key :: rest ∧ P rest

/-- The paths of keys that go through any key. -/
def BelowAny (P : List Text → Prop) (keys : List Text) : Prop :=
  ∃ key rest, keys = key :: rest ∧ P rest

/-- Editing one entry of a table. -/
theorem Moves.getMut {P : List Text → Prop} {t : Table} (ht : (Toml.table t).Distinct) (key : Text)
    (edit : Toml → Toml × Bool) (hedit : ∀ v, v.Distinct → Moves moved P v (edit v)) :
    Moves moved (Below key P) (.table t) (.table (t.getMut key edit).1, (t.getMut key edit).2) := by
  have hmap : (t.getMut key edit).1 =
      t.map fun entry => (entry.1, if entry.1 = key then (edit entry.2).1 else entry.2) := by
    refine List.map_congr_left fun entry _ => ?_
    by_cases hkey : entry.1 = key
    · rw [if_pos hkey, if_pos hkey]
    · rw [if_neg hkey, if_neg hkey]
  have hget : ∀ k, (t.getMut key edit).1.get k =
      (t.get k).map fun v => if k = key then (edit v).1 else v := by
    intro k
    rw [hmap, Table.get_map_snd t fun k v => if k = key then (edit v).1 else v]
  refine ⟨?_, ?_, ?_, ?_⟩
  · rintro _ ⟨rest, rfl, hrest⟩
    rw [Toml.leafAt_table, Toml.leafAt_table, hget]
    cases hv : t.get key with
    | none => rfl
    | some v =>
      rw [Option.map_some, Option.bind_some, Option.bind_some, if_pos rfl]
      exact (hedit v (ht.get hv)).inside rest hrest
  · intro keys hkeys
    cases keys with
    | nil => rfl
    | cons k rest =>
      rw [Toml.leafAt_table, Toml.leafAt_table, hget]
      cases hv : t.get k with
      | none => rfl
      | some v =>
        rw [Option.map_some, Option.bind_some, Option.bind_some]
        by_cases hk : k = key
        · subst hk
          rw [if_pos rfl]
          exact (hedit v (ht.get hv)).outside rest fun hrest => hkeys ⟨rest, rfl, hrest⟩
        · rw [if_neg hk]
  · change ((t.get key).map fun v => (edit v).2).getD false = true ↔ _
    constructor
    · intro hchanged
      cases hv : t.get key with
      | none =>
        rw [hv] at hchanged
        cases hchanged
      | some v =>
        rw [hv] at hchanged
        obtain ⟨rest, path, hrest, hleaf, hmoved⟩ := (hedit v (ht.get hv)).changed.mp hchanged
        refine ⟨key :: rest, path, ⟨rest, rfl, hrest⟩, ?_, hmoved⟩
        rw [Toml.leafAt_table, hv]
        exact hleaf
    · rintro ⟨_, path, ⟨rest, rfl, hrest⟩, hleaf, hmoved⟩
      rw [Toml.leafAt_table] at hleaf
      obtain ⟨v, hv, hleaf⟩ := Option.bind_eq_some_iff.mp hleaf
      rw [hv]
      exact (hedit v (ht.get hv)).changed.mpr ⟨rest, path, hrest, hleaf, hmoved⟩
  · dsimp only
    rw [hmap]
    refine ht.map (fun k v => if k = key then (edit v).1 else v) fun k v hv => ?_
    by_cases hk : k = key
    · rw [if_pos hk]
      exact (hedit v (ht.get hv)).distinct
    · rw [if_neg hk]
      exact ht.get hv

/-- Editing every entry of a table. -/
theorem Moves.each {P : List Text → Prop} {t : Table} (ht : (Toml.table t).Distinct)
    {edit : Toml → Toml × Bool} (hedit : ∀ v, v.Distinct → Moves moved P v (edit v)) :
    Moves moved (BelowAny P) (.table t) (.table (t.each edit).1, (t.each edit).2) := by
  have hget : ∀ k, (t.each edit).1.get k = (t.get k).map fun v => (edit v).1 :=
    Table.get_map_snd t fun _ v => (edit v).1
  refine ⟨?_, ?_, ?_, ?_⟩
  · rintro _ ⟨key, rest, rfl, hrest⟩
    rw [Toml.leafAt_table, Toml.leafAt_table, hget]
    cases hv : t.get key with
    | none => rfl
    | some v => exact (hedit v (ht.get hv)).inside rest hrest
  · intro keys hkeys
    cases keys with
    | nil => rfl
    | cons key rest =>
      rw [Toml.leafAt_table, Toml.leafAt_table, hget]
      cases hv : t.get key with
      | none => rfl
      | some v =>
        exact (hedit v (ht.get hv)).outside rest fun hrest => hkeys ⟨key, rest, rfl, hrest⟩
  · change (t.any fun entry => (edit entry.2).2) = true ↔ _
    rw [List.any_eq_true]
    constructor
    · rintro ⟨⟨key, v⟩, hmem, hchanged⟩
      have hv := Table.get_of_mem ht.nodup hmem
      obtain ⟨rest, path, hrest, hleaf, hmoved⟩ := (hedit v (ht.get hv)).changed.mp hchanged
      refine ⟨key :: rest, path, ⟨key, rest, rfl, hrest⟩, ?_, hmoved⟩
      rw [Toml.leafAt_table, hv]
      exact hleaf
    · rintro ⟨_, path, ⟨key, rest, rfl, hrest⟩, hleaf, hmoved⟩
      rw [Toml.leafAt_table] at hleaf
      obtain ⟨v, hv, hleaf⟩ := Option.bind_eq_some_iff.mp hleaf
      exact ⟨(key, v), mem_of_lookup hv,
        (hedit v (ht.get hv)).changed.mpr ⟨rest, path, hrest, hleaf, hmoved⟩⟩
  · exact ht.map (fun _ v => (edit v).1) fun k v hv => (hedit v (ht.get hv)).distinct

/-- Editing a value if it is a table. -/
theorem Moves.asTableMut {P : List Text → Prop} (hnil : ¬ P []) {v : Toml} (hv : v.Distinct)
    {edit : Table → Table × Bool}
    (hedit : ∀ t : Table, (Toml.table t).Distinct →
      Moves moved P (.table t) (.table (edit t).1, (edit t).2)) :
    Moves moved P v (v.asTableMut edit) := by
  unfold Toml.asTableMut
  cases htable : v.asTableLike with
  | some t =>
    obtain rfl := Toml.asTableLike_eq_some htable
    exact hedit t hv
  | none =>
    refine ⟨fun keys hkeys => ?_, fun _ _ => rfl, ?_, hv⟩
    · cases keys with
      | nil => exact absurd hkeys hnil
      | cons key rest =>
        rw [Toml.leafAt_of_not_table htable]
        rfl
    · refine ⟨nofun, ?_⟩
      rintro ⟨keys, path, hkeys, hleaf, -⟩
      cases keys with
      | nil => exact absurd hkeys hnil
      | cons key rest =>
        rw [Toml.leafAt_of_not_table htable] at hleaf
        cases hleaf

/-- One edit after another, at other paths of keys. -/
theorem Moves.trans {P Q : List Text → Prop} {v : Toml} {r r' : Toml × Bool}
    (hfirst : Moves moved P v r) (hsecond : Moves moved Q r.1 r')
    (hdisjoint : ∀ keys, P keys → ¬ Q keys) :
    Moves moved (fun keys => P keys ∨ Q keys) v (r'.1, r.2 || r'.2) := by
  have hother : ∀ keys, Q keys → r.1.leafAt keys = v.leafAt keys :=
    fun keys hkeys => hfirst.outside keys fun hp => hdisjoint keys hp hkeys
  refine ⟨?_, ?_, ?_, hsecond.distinct⟩
  · rintro keys (hkeys | hkeys)
    · exact (hsecond.outside keys (hdisjoint keys hkeys)).trans (hfirst.inside keys hkeys)
    · dsimp only
      rw [hsecond.inside keys hkeys, hother keys hkeys]
  · intro keys hkeys
    obtain ⟨hp, hq⟩ := not_or.mp hkeys
    exact (hsecond.outside keys hq).trans (hfirst.outside keys hp)
  · rw [Bool.or_eq_true, hfirst.changed, hsecond.changed]
    constructor
    · rintro (⟨keys, path, hkeys, hleaf, hmoved⟩ | ⟨keys, path, hkeys, hleaf, hmoved⟩)
      · exact ⟨keys, path, .inl hkeys, hleaf, hmoved⟩
      · rw [hother keys hkeys] at hleaf
        exact ⟨keys, path, .inr hkeys, hleaf, hmoved⟩
    · rintro ⟨keys, path, hkeys | hkeys, hleaf, hmoved⟩
      · exact .inl ⟨keys, path, hkeys, hleaf, hmoved⟩
      · rw [← hother keys hkeys] at hleaf
        exact .inr ⟨keys, path, hkeys, hleaf, hmoved⟩

/-- The path of one dependency is moved. -/
theorem moves_rewriteDep {v : Toml} (hv : v.Distinct) :
    Moves moved (· = [pathKeyName]) v (rewriteDep moved v) := by
  refine Moves.asTableMut (by simp) hv fun t ht => ?_
  cases hpath : ((t.get pathKeyName).bind Toml.asStr).bind moved with
  | none =>
    -- there is no path, or it stays
    have hstay : ∀ w, (Toml.table t).leafAt [pathKeyName] = some w →
        w.asStr.bind moved = none := by
      intro w hw
      rw [Toml.leafAt_table] at hw
      obtain ⟨u, hu, hleaf⟩ := Option.bind_eq_some_iff.mp hw
      obtain ⟨hsame, -⟩ := Option.filter_eq_some_iff.mp hleaf
      cases hsame
      rwa [hu, Option.bind_some] at hpath
    refine ⟨?_, fun _ _ => rfl, ⟨nofun, ?_⟩, ht⟩
    · rintro _ rfl
      cases hleaf : (Toml.table t).leafAt [pathKeyName] with
      | none => rfl
      | some w =>
        rw [Option.map_some, movedValue, hstay w hleaf]
    · rintro ⟨_, path, rfl, hleaf, hmoved⟩
      have hnone : moved path = none := hstay _ hleaf
      rw [hnone] at hmoved
      cases hmoved
  | some abs =>
    obtain ⟨path, hstr, hmoved⟩ := Option.bind_eq_some_iff.mp hpath
    obtain ⟨w, hget, hw⟩ := Option.bind_eq_some_iff.mp hstr
    obtain rfl : w = .string path := by
      cases w with
      | string s => exact congrArg Toml.string (Option.some.inj hw)
      | _ => cases hw
    have hleaf : (Toml.table t).leafAt [pathKeyName] = some (.string path) := by
      rw [Toml.leafAt_table, hget]
      rfl
    refine ⟨?_, ?_, ⟨fun _ => ⟨_, path, rfl, hleaf, ?_⟩, fun _ => rfl⟩, ?_⟩
    · rintro _ rfl
      rw [hleaf, Toml.leafAt_table, Table.get_insert_self, Option.map_some, movedValue]
      change some (Toml.string abs) = some (match moved path with
        | none => .string path
        | some abs => .string abs)
      rw [hmoved]
    · intro keys hkeys
      cases keys with
      | nil => rfl
      | cons key rest =>
        rw [Toml.leafAt_table, Toml.leafAt_table]
        by_cases hkey : key = pathKeyName
        · subst hkey
          rw [Table.get_insert_self, hget, Option.bind_some, Option.bind_some]
          cases rest with
          | nil => exact absurd rfl hkeys
          | cons key rest => rfl
        · rw [Table.get_insert _ _ hkey]
    · rw [hmoved]
      rfl
    · have hmap : t.insert pathKeyName (.string abs) =
          t.map fun entry => (entry.1, if entry.1 = pathKeyName then .string abs else entry.2) := by
        unfold Table.insert Table.containsKey
        rw [hget, Option.isSome_some, if_pos rfl]
        refine List.map_congr_left fun entry _ => ?_
        by_cases hkey : entry.1 = pathKeyName
        · rw [if_pos hkey, if_pos hkey, hkey]
        · rw [if_neg hkey, if_neg hkey]
      dsimp only
      rw [hmap]
      refine ht.map (fun k v => if k = pathKeyName then .string abs else v) fun k v hk => ?_
      by_cases hkey : k = pathKeyName
      · rw [if_pos hkey]
        exact .value rfl
      · rw [if_neg hkey]
        exact ht.get hk

/-- The paths of keys of the path dependencies below a table with dependency sections. -/
def InSections (keys : List Text) : Prop :=
  ∃ key ∈ depSections, Below key (BelowAny (· = [pathKeyName])) keys

/-- One section is edited. -/
theorem moves_section (moved : Text → Option Text) {t : Table} (ht : (Toml.table t).Distinct)
    (key : Text) :
    Moves moved (Below key (BelowAny (· = [pathKeyName]))) (.table t)
      (.table (t.getMut key (Toml.asTableMut (rewriteDepTable moved))).1,
        (t.getMut key (Toml.asTableMut (rewriteDepTable moved))).2) := by
  have hnil : ¬ BelowAny (· = [pathKeyName]) [] := by
    rintro ⟨key, rest, hcons, -⟩
    cases hcons
  refine Moves.getMut ht key _ fun v hv => ?_
  exact Moves.asTableMut hnil hv fun t ht => Moves.each ht fun v hv => moves_rewriteDep hv

/-- The same edit at the same paths of keys. -/
theorem Moves.congr {P Q : List Text → Prop} {v : Toml} {r : Toml × Bool} (h : Moves moved P v r)
    (hsame : ∀ keys, P keys ↔ Q keys) : Moves moved Q v r := by
  obtain rfl : P = Q := funext fun keys => propext (hsame keys)
  exact h

/-- Paths of keys through different keys are different. -/
theorem Below.disjoint {key key' : Text} {P Q : List Text → Prop} (hne : key ≠ key')
    {keys : List Text} (h : Below key P keys) : ¬ Below key' Q keys := by
  rintro ⟨rest', hcons', -⟩
  obtain ⟨rest, rfl, -⟩ := h
  exact hne (List.cons.inj hcons').1

/-- All sections are edited. -/
theorem moves_rewriteSections (moved : Text → Option Text) {t : Table}
    (ht : (Toml.table t).Distinct) :
    Moves moved InSections (.table t)
      (.table (rewriteSections moved t).1, (rewriteSections moved t).2) := by
  have hfirst := moves_section moved ht "dependencies".toList
  have hsecond := moves_section moved hfirst.distinct "build-dependencies".toList
  have hthird := moves_section moved hsecond.distinct "dev-dependencies".toList
  refine ((hfirst.trans hsecond ?_).trans hthird ?_).congr ?_
  · exact fun keys hkeys => hkeys.disjoint (by decide)
  · rintro keys (hkeys | hkeys)
    · exact hkeys.disjoint (by decide)
    · exact hkeys.disjoint (by decide)
  · intro keys
    unfold InSections depSections
    simp only [List.mem_cons, List.not_mem_nil, or_false, exists_eq_or_imp, exists_eq_left,
      or_assoc]

/-- The path of keys of a path dependency. -/
def IsDepPath (keys : List Text) : Prop :=
  ∃ table : DepTable, table.key ∈ depSections ∧ ∃ name, keys = table.keys ++ [name, pathKeyName]

/-- The path dependencies of a manifest are in its sections or in those of a platform. -/
theorem isDepPath_iff {keys : List Text} :
    IsDepPath keys ↔ InSections keys ∨ Below "target".toList (BelowAny InSections) keys := by
  constructor
  · rintro ⟨⟨key, platform⟩, hkey, name, rfl⟩
    have hsection : InSections [key, name, pathKeyName] :=
      ⟨key, hkey, _, rfl, name, _, rfl, rfl⟩
    cases platform with
    | none => exact .inl hsection
    | some cfg => exact .inr ⟨_, rfl, cfg, _, rfl, hsection⟩
  · rintro (⟨key, hkey, _, rfl, name, _, rfl, rfl⟩ |
      ⟨_, rfl, cfg, _, rfl, key, hkey, _, rfl, name, _, rfl, rfl⟩)
    · exact ⟨⟨key, none⟩, hkey, name, rfl⟩
    · exact ⟨⟨key, some cfg⟩, hkey, name, rfl⟩

/-- **The edit moves the path dependencies and nothing else.** -/
theorem moves_rewritePathDeps (moved : Text → Option Text) {doc : Table}
    (hdoc : (Toml.table doc).Distinct) :
    Moves moved IsDepPath (.table doc)
      (.table (rewritePathDeps moved doc).1, (rewritePathDeps moved doc).2) := by
  have htop := moves_rewriteSections moved hdoc
  have hnil : ¬ InSections [] := by
    rintro ⟨key, -, rest, hcons, -⟩
    cases hcons
  have hnil' : ¬ BelowAny InSections [] := by
    rintro ⟨key, rest, hcons, -⟩
    cases hcons
  have htarget := Moves.getMut (P := BelowAny InSections) htop.distinct "target".toList
    (Toml.asTableMut fun target => target.each (Toml.asTableMut (rewriteSections moved)))
    fun v hv => Moves.asTableMut hnil' hv fun t ht =>
      Moves.each ht fun v hv => Moves.asTableMut hnil hv fun t ht => moves_rewriteSections moved ht
  refine (htop.trans htarget ?_).congr fun keys => isDepPath_iff.symm
  rintro keys ⟨key, hkey, hbelow⟩
  refine hbelow.disjoint ?_
  rintro rfl
  exact absurd hkey (by decide)

end Moves

/-! ### Where paths lead -/

/-- `canonicalize`: what exists has an absolute path without `..`, which leads to itself. -/
structure Canonical : Prop where
  /-- It is absolute and has no `..`. -/
  plain : ∀ components p, canonicalize components = some p → ∃ names, p = absolutePath names
  /-- It leads to itself. -/
  again : ∀ components p, canonicalize components = some p →
    canonicalize (componentsOf p) = some p

/-- A path that is read from a text that was displayed. -/
theorem joinedComponents_displayPath (names : List FileName) :
    joinedComponents (displayPath (absolutePath names)) = names.map .normal := by
  have hpiece : ∀ name : FileName, componentOf name.text = some (.normal name) := by
    intro name
    have hdots : ¬ (name.text = ['.'] ∨ name.text = ['.', '.']) := not_or.mpr name.no_dots
    unfold componentOf
    rw [dif_neg hdots, dif_pos ⟨name.ne_nil, name.no_slash⟩]
  have hparts : (absolutePath names).parts.map Part.text = names.map FileName.text := by
    unfold absolutePath
    rw [List.map_map]
    rfl
  unfold joinedComponents displayPath
  rw [hparts]
  cases names with
  | nil => rfl
  | cons name names =>
    have hsplit : ('/' :: ['/'].intercalate ((name :: names).map FileName.text)).splitOn '/' =
        [] :: (name :: names).map FileName.text := by
      have hslash : ∀ t ∈ [] :: (name :: names).map FileName.text, '/' ∉ t := by
        intro t ht
        rcases List.mem_cons.mp ht with rfl | ht
        · exact List.not_mem_nil
        · obtain ⟨name, -, rfl⟩ := List.mem_map.mp ht
          exact name.no_slash
      exact List.splitOn_intercalate '/' hslash (List.cons_ne_nil _ _)
    change List.filterMap componentOf
      (('/' :: ['/'].intercalate ((name :: names).map FileName.text)).splitOn '/') = _
    rw [hsplit, List.filterMap_cons_none rfl, List.filterMap_map, ← List.filterMap_eq_map]
    exact List.filterMap_congr fun name _ => hpiece name

/-- A displayed absolute path is read as absolute. -/
theorem isAbsolute_displayPath (names : List FileName) :
    isAbsolute (displayPath (absolutePath names)) = true := rfl

/-- A displayed absolute path leads to its names. -/
theorem absoluteComponents_displayPath (names : List FileName) :
    absoluteComponents (displayPath (absolutePath names)) = fromRoot names :=
  congrArg _ (joinedComponents_displayPath names)

/-- A joined path has no root in it. -/
theorem rootDir_notMem_joinedComponents (path : Text) :
    Component.rootDir ∉ joinedComponents path := by
  intro hmem
  obtain ⟨piece, -, hpiece⟩ := List.mem_filterMap.mp hmem
  unfold componentOf at hpiece
  split at hpiece
  · split at hpiece <;> cases hpiece
  · split at hpiece <;> cases hpiece

/-- A path that is joined to an absolute one is absolute. -/
theorem absolute_joined (names : List FileName) (path : Text) :
    Absolute (componentsOf (absolutePath names) ++ joinedComponents path) := by
  rw [componentsOf_absolutePath]
  refine ⟨names.map .normal ++ joinedComponents path, rfl, fun hmem => ?_⟩
  rcases List.mem_append.mp hmem with hname | hjoined
  · obtain ⟨name, -, hname⟩ := List.mem_map.mp hname
    cases hname
  · exact rootDir_notMem_joinedComponents path hjoined

variable {canonicalize}

/-- What exists is resolved to its canonical path. -/
theorem resolvedDep_of_some {crateDir p : FilePath} {path : Text}
    (hp : canonicalize (componentsOf crateDir ++ joinedComponents path) = some p) :
    resolvedDep canonicalize crateDir path = p := by
  unfold resolvedDep
  dsimp only
  rw [hp, Option.getD_some]

/-- What does not exist is resolved to where its names lead. -/
theorem resolvedDep_of_none {crate : List FileName} {path : Text}
    (hnone : canonicalize (componentsOf (absolutePath crate) ++ joinedComponents path) = none) :
    resolvedDep canonicalize (absolutePath crate) path =
      absolutePath (destination (componentsOf (absolutePath crate) ++ joinedComponents path)) := by
  unfold resolvedDep
  dsimp only
  rw [hnone, Option.getD_none, lexicallyNormalize_eq (absolute_joined crate path)]

/-- Where a dependency is resolved to is an absolute path without `..`. -/
theorem exists_resolvedDep (hcanonical : Canonical canonicalize) (crate : List FileName)
    (path : Text) :
    ∃ names, resolvedDep canonicalize (absolutePath crate) path = absolutePath names := by
  cases hjoined : canonicalize (componentsOf (absolutePath crate) ++ joinedComponents path) with
  | some p =>
    rw [resolvedDep_of_some hjoined]
    exact hcanonical.plain _ _ hjoined
  | none => exact ⟨_, resolvedDep_of_none hjoined⟩

/-- The new path of a dependency, which stays if it is absolute or leads into the closure. A path
that is moved is absolute, and leads to the same place: to the one that exists, or, if there is
none, to the one that the names say. -/
structure Relocated (canonicalize : List (Component FileName) → Option FilePath)
    (crateDir : FilePath) (closureDirs : List FilePath) (path path' : Text) : Prop where
  /-- Some paths stay. -/
  stays : isAbsolute path = true ∨ resolvedDep canonicalize crateDir path ∈ closureDirs →
    path' = path
  /-- All others become absolute. -/
  absolute : isAbsolute path = false → resolvedDep canonicalize crateDir path ∉ closureDirs →
    isAbsolute path' = true
  /-- They lead to the directory that exists. -/
  existing : isAbsolute path = false → resolvedDep canonicalize crateDir path ∉ closureDirs →
    ∀ p, canonicalize (componentsOf crateDir ++ joinedComponents path) = some p →
      canonicalize (absoluteComponents path') = some p
  /-- Or to where the names lead. -/
  missing : isAbsolute path = false → resolvedDep canonicalize crateDir path ∉ closureDirs →
    canonicalize (componentsOf crateDir ++ joinedComponents path) = none →
      destination (absoluteComponents path') =
        destination (componentsOf crateDir ++ joinedComponents path)

/-- A path is relocated as it is moved. -/
theorem relocated_movedPath (hcanonical : Canonical canonicalize) (crate : List FileName)
    (closureDirs : List FilePath) (path : Text) :
    Relocated canonicalize (absolutePath crate) closureDirs path
      ((movedPath canonicalize (absolutePath crate) closureDirs path).getD path) := by
  unfold movedPath
  by_cases habsolute : isAbsolute path = true
  · rw [if_pos habsolute]
    refine ⟨fun _ => rfl, ?_, ?_, ?_⟩ <;>
    · intro hrelative
      rw [habsolute] at hrelative
      cases hrelative
  rw [if_neg habsolute]
  by_cases hclosure : resolvedDep canonicalize (absolutePath crate) path ∈ closureDirs
  · rw [if_pos hclosure]
    exact ⟨fun _ => rfl, fun _ hout => absurd hclosure hout, fun _ hout => absurd hclosure hout,
      fun _ hout => absurd hclosure hout⟩
  rw [if_neg hclosure]
  obtain ⟨names, hnames⟩ := exists_resolvedDep hcanonical crate path
  rw [hnames, Option.getD_some]
  refine ⟨fun hstays => ?_, fun _ _ => isAbsolute_displayPath names, fun _ _ p hp => ?_,
    fun _ _ hnone => ?_⟩
  · rcases hstays with hstays | hstays
    · exact absurd hstays habsolute
    · exact absurd hstays hclosure
  · rw [resolvedDep_of_some hp] at hnames
    have hagain := hcanonical.again _ _ hp
    rw [hnames, componentsOf_absolutePath] at hagain
    rw [absoluteComponents_displayPath, hagain, hnames]
  · rw [resolvedDep_of_none hnone] at hnames
    rw [absoluteComponents_displayPath, Component.destination_fromRoot]
    have hparts := congrArg Path.parts hnames
    exact (List.map_injective_iff.mpr (fun _ _ h => Part.normal.inj h) hparts).symm

/-- A path that was moved is not moved again. -/
theorem movedPath_again (hcanonical : Canonical canonicalize) {crate : List FileName}
    {closureDirs : List FilePath} {path abs : Text}
    (hmoved : movedPath canonicalize (absolutePath crate) closureDirs path = some abs) :
    movedPath canonicalize (absolutePath crate) closureDirs abs = none := by
  obtain ⟨names, hnames⟩ := exists_resolvedDep hcanonical crate path
  unfold movedPath at hmoved
  rw [hnames] at hmoved
  split at hmoved
  · cases hmoved
  · split at hmoved
    · cases hmoved
    · cases hmoved
      exact if_pos (isAbsolute_displayPath names)

/-- A manifest in a shadow. -/
structure Shadowed (canonicalize : List (Component FileName) → Option FilePath) (toml : TomlEdit)
    (crateDir : FilePath) (closureDirs : List FilePath) (doc : Table) (result : Option Text) :
    Prop where
  /-- It is rewritten exactly if a relative path dependency leaves the closure. -/
  rewritten : result.isSome = true ↔ ∃ keys path, IsDepPath keys ∧
    doc.leafAt keys = some (.string path) ∧ isAbsolute path = false ∧
    resolvedDep canonicalize crateDir path ∉ closureDirs
  /-- Path dependencies are relocated. -/
  paths : ∀ text ∈ result, ∃ doc', toml.parse text = .ok doc' ∧
    (∀ keys path, IsDepPath keys → doc.leafAt keys = some (.string path) →
      ∃ path', doc'.leafAt keys = some (.string path') ∧
        Relocated canonicalize crateDir closureDirs path path') ∧
    ∀ keys, (∀ path, IsDepPath keys → doc.leafAt keys ≠ some (.string path)) →
      doc'.leafAt keys = doc.leafAt keys
  /-- There is nothing left to rewrite. -/
  again : ∀ text ∈ result,
    rewritePathDepsToAbsolute canonicalize toml text crateDir closureDirs = none

/-- Which paths are moved. -/
theorem isSome_movedPath (crateDir : FilePath) (closureDirs : List FilePath) (path : Text) :
    (movedPath canonicalize crateDir closureDirs path).isSome = true ↔
      isAbsolute path = false ∧ resolvedDep canonicalize crateDir path ∉ closureDirs := by
  unfold movedPath
  cases isAbsolute path with
  | true => simp
  | false =>
    by_cases hclosure : resolvedDep canonicalize crateDir path ∈ closureDirs
    · simp [hclosure]
    · simp [hclosure]

/-- A value that is moved twice. -/
theorem movedValue_string (moved : Text → Option Text) (path : Text) :
    movedValue moved (.string path) = .string ((moved path).getD path) := by
  unfold movedValue
  change (match moved path with
    | none => Toml.string path
    | some abs => .string abs) = _
  cases moved path <;> rfl

/-- Only texts are moved. -/
theorem exists_string_of_movedValue {moved : Text → Option Text} {v : Toml} {path : Text}
    (h : movedValue moved v = .string path) :
    ∃ path', v = .string path' ∧ path = (moved path').getD path' := by
  cases v with
  | string path' =>
    rw [movedValue_string] at h
    exact ⟨path', rfl, (Toml.string.inj h).symm⟩
  | _ => cases h

/-- **The rewrite of a manifest preserves its meaning.** A manifest of a shadow is rewritten exactly
if a relative path dependency leaves the closure. Each of these becomes an absolute path to the same
place, every other value is kept, and a second run changes nothing. -/
theorem shadow_manifest_keeps_places (hcanonical : Canonical canonicalize) {toml : TomlEdit}
    (hkeys : ∀ text doc, toml.parse text = .ok doc → (Toml.table doc).Distinct)
    (crate : List FileName) (closureDirs : List FilePath) {manifest : Text} {doc : Table}
    (hparse : toml.parse manifest = .ok doc)
    (hreads : (rewritePathDeps (movedPath canonicalize (absolutePath crate) closureDirs) doc).2 =
      true → ∃ doc', toml.ReadsAs manifest
        (rewritePathDeps (movedPath canonicalize (absolutePath crate) closureDirs) doc).1 doc') :
    Shadowed canonicalize toml (absolutePath crate) closureDirs doc
      (rewritePathDepsToAbsolute canonicalize toml manifest (absolutePath crate) closureDirs) := by
  let moved := movedPath canonicalize (absolutePath crate) closureDirs
  have hmoves := moves_rewritePathDeps moved (hkeys _ _ hparse)
  have hresult : rewritePathDepsToAbsolute canonicalize toml manifest (absolutePath crate)
      closureDirs = if (rewritePathDeps moved doc).2 then
        some (toml.render manifest (rewritePathDeps moved doc).1) else none := by
    unfold rewritePathDepsToAbsolute
    rw [hparse]
  rw [hresult]
  refine ⟨?_, ?_, ?_⟩
  · rw [Option.isSome_ite, hmoves.changed]
    refine exists_congr fun keys => exists_congr fun path => and_congr_right fun _ => ?_
    exact and_congr_right fun _ => isSome_movedPath _ _ _
  · intro text htext
    obtain ⟨hchanged, htext⟩ := Option.mem_ite_none_right.mp htext
    obtain rfl := Option.some.inj htext
    obtain ⟨doc', hdoc'⟩ := hreads hchanged
    refine ⟨doc', hdoc'.parse, fun keys path hkeys' hleaf => ?_, fun keys hother => ?_⟩
    · refine ⟨(moved path).getD path, ?_, relocated_movedPath hcanonical crate closureDirs path⟩
      rw [hdoc'.leaves, ← movedValue_string]
      have hinside := hmoves.inside keys hkeys'
      rw [show (Toml.table doc).leafAt keys = some (.string path) from hleaf] at hinside
      exact hinside
    · rw [hdoc'.leaves]
      by_cases hpath : IsDepPath keys
      · refine (hmoves.inside keys hpath).trans ?_
        change (doc.leafAt keys).map (movedValue moved) = doc.leafAt keys
        cases hleaf : doc.leafAt keys with
        | none => rfl
        | some v =>
          cases v with
          | string path => exact absurd hleaf (hother path hpath)
          | _ => rfl
      · exact hmoves.outside keys hpath
  · intro text htext
    obtain ⟨hchanged, htext⟩ := Option.mem_ite_none_right.mp htext
    obtain rfl := Option.some.inj htext
    obtain ⟨doc', hdoc'⟩ := hreads hchanged
    have hmoves' := moves_rewritePathDeps moved (hkeys _ _ hdoc'.parse)
    unfold rewritePathDepsToAbsolute
    rw [hdoc'.parse]
    refine if_neg fun hagain => ?_
    obtain ⟨keys, path, hpath, hleaf, hmoved⟩ := hmoves'.changed.mp hagain
    change doc'.leafAt keys = _ at hleaf
    rw [hdoc'.leaves] at hleaf
    have hinside : (rewritePathDeps moved doc).1.leafAt keys = _ := hmoves.inside keys hpath
    rw [hleaf] at hinside
    obtain ⟨v, -, hv⟩ := Option.map_eq_some_iff.mp hinside.symm
    obtain ⟨path', -, rfl⟩ := exists_string_of_movedValue hv
    cases hfirst : moved path' with
    | none =>
      rw [hfirst, Option.getD_none, hfirst] at hmoved
      cases hmoved
    | some abs =>
      have hnone : moved abs = none := movedPath_again hcanonical hfirst
      rw [hfirst, Option.getD_some, hnone] at hmoved
      cases hmoved

/-! ### The copies -/

/-- Where a path in a manifest leads from the directory of the manifest, by its names. -/
def leadsTo (dir : List FileName) (path : Text) : List FileName :=
  if isAbsolute path then destination (absoluteComponents path)
  else destination (fromRoot dir ++ joinedComponents path)

/-- `canonicalize` on a disk without symbolic links. -/
def plainDisk (present : List FileName → Bool) (components : List (Component FileName)) :
    Option FilePath :=
  if present (destination components) then some (absolutePath (destination components)) else none

/-- Components that are followed from a place below some directory and do not leave it. -/
def StaysBelow : List FileName → List (Component FileName) → Prop
  | _, [] => True
  | place, .normal name :: rest => StaysBelow (place ++ [name]) rest
  | place, .curDir :: rest => StaysBelow place rest
  | place, .parentDir :: rest => place ≠ [] ∧ StaysBelow place.dropLast rest
  | _, .rootDir :: _ => False

/-- What stays below a directory leads to the same place below any directory. -/
theorem foldl_follow_of_staysBelow {place : List FileName} {components : List (Component FileName)}
    (hstays : StaysBelow place components) (base : List FileName) :
    components.foldl Component.follow (base ++ place) =
      base ++ components.foldl Component.follow place := by
  induction components generalizing place with
  | nil => rfl
  | cons c components ih =>
    rw [List.foldl_cons, List.foldl_cons]
    cases c with
    | normal name =>
      have hname : Component.follow (base ++ place) (.normal name) = base ++ (place ++ [name]) :=
        List.append_assoc ..
      rw [hname]
      exact ih hstays
    | curDir => exact ih hstays
    | parentDir =>
      have hparent : Component.follow (base ++ place) .parentDir = base ++ place.dropLast :=
        List.dropLast_append_of_ne_nil hstays.1
      rw [hparent]
      exact ih hstays.2
    | rootDir => exact hstays.elim

/-- On a disk without symbolic links, dependencies are resolved by their names. -/
theorem resolvedDep_plainDisk (present : List FileName → Bool) (crate : List FileName)
    (path : Text) :
    resolvedDep (plainDisk present) (absolutePath crate) path =
      absolutePath (destination (fromRoot crate ++ joinedComponents path)) := by
  rw [← componentsOf_absolutePath]
  cases hpresent : present (destination (componentsOf (absolutePath crate) ++
      joinedComponents path)) with
  | true => exact resolvedDep_of_some (if_pos hpresent)
  | false =>
    refine resolvedDep_of_none (if_neg ?_)
    rw [hpresent]
    exact Bool.false_ne_true

/-- **Path dependencies lead to the same crates from a shadow**, on a disk without symbolic links.
In the copy of a manifest, a path that is absolute or leaves the closure leads to the original
directory; a relative one into the closure that stays in the workspace leads to the copy. -/
theorem shadow_path_leads_to_crate (present : List FileName → Bool)
    (root dest rel : List FileName) (closureDirs : List FilePath) {doc : Table}
    (hdoc : (Toml.table doc).Distinct) {keys : List Text} (hkeys : IsDepPath keys) {path : Text}
    (hleaf : doc.leafAt keys = some (.string path)) :
    ∃ path', (rewritePathDeps (movedPath (plainDisk present) (absolutePath (root ++ rel))
        closureDirs) doc).1.leafAt keys = some (.string path') ∧
      (isAbsolute path = true ∨ absolutePath (leadsTo (root ++ rel) path) ∉ closureDirs →
        leadsTo (dest ++ rel) path' = leadsTo (root ++ rel) path) ∧
      (isAbsolute path = false → absolutePath (leadsTo (root ++ rel) path) ∈ closureDirs →
        StaysBelow rel (joinedComponents path) →
        ∃ rel', leadsTo (root ++ rel) path = root ++ rel' ∧
          leadsTo (dest ++ rel) path' = dest ++ rel') := by
  let moved := movedPath (plainDisk present) (absolutePath (root ++ rel)) closureDirs
  have hinside := (moves_rewritePathDeps moved hdoc).inside keys hkeys
  rw [show (Toml.table doc).leafAt keys = some (.string path) from hleaf, Option.map_some,
    movedValue_string] at hinside
  refine ⟨_, hinside, ?_⟩
  have hmoved : moved path = if isAbsolute path then none
      else if absolutePath (destination (fromRoot (root ++ rel) ++ joinedComponents path)) ∈
        closureDirs then none
      else some (displayPath (absolutePath (destination (fromRoot (root ++ rel) ++
        joinedComponents path)))) := by
    change movedPath _ _ _ path = _
    unfold movedPath
    rw [resolvedDep_plainDisk]
  cases habsolute : isAbsolute path with
  | true =>
    rw [hmoved, if_pos habsolute, Option.getD_none]
    refine ⟨fun _ => ?_, nofun⟩
    unfold leadsTo
    rw [if_pos habsolute, if_pos habsolute]
  | false =>
    have hrelative : ¬ isAbsolute path = true := by
      rw [habsolute]
      exact Bool.false_ne_true
    have hleads : ∀ dir, leadsTo dir path = destination (fromRoot dir ++ joinedComponents path) :=
      fun _ => if_neg hrelative
    rw [hmoved, if_neg hrelative, hleads]
    by_cases hclosure : absolutePath (destination (fromRoot (root ++ rel) ++
        joinedComponents path)) ∈ closureDirs
    · rw [if_pos hclosure, Option.getD_none, hleads]
      refine ⟨fun hout => ?_, fun _ _ hstays => ⟨(joinedComponents path).foldl Component.follow rel,
        ?_, ?_⟩⟩
      · rcases hout with hout | hout
        · cases hout
        · exact absurd hclosure hout
      · rw [Component.destination_append, Component.destination_fromRoot]
        exact foldl_follow_of_staysBelow hstays root
      · rw [Component.destination_append, Component.destination_fromRoot]
        exact foldl_follow_of_staysBelow hstays dest
    · rw [if_neg hclosure, Option.getD_some]
      refine ⟨fun _ => ?_, fun _ hin => absurd hin hclosure⟩
      unfold leadsTo
      rw [if_pos (isAbsolute_displayPath _), absoluteComponents_displayPath,
        Component.destination_fromRoot]

/-! ### A manifest with two paths -/

/-- A manifest with a path into the workspace and one out of it. -/
def twoPaths : Text :=
  "[dependencies]\nb = \x7b path = \"../b\" \x7d\nsrc = \x7b path = \"../../src\" \x7d\n".toList

/-- The same manifest in a shadow. -/
def twoPathsShadow : Text :=
  "[dependencies]\nb = \x7b path = \"../b\" \x7d\nsrc = \x7b path = \"/src\" \x7d\n".toList

/-- The document of such a manifest. -/
def twoPathsDoc (outside : Text) : Table :=
  [("dependencies".toList, .table
    [("b".toList, .table [(pathKeyName, .string "../b".toList)]),
      ("src".toList, .table [(pathKeyName, .string outside)])])]

/-- The editor's behaviour on these manifests. -/
def twoPathsToml : TomlEdit where
  parse text :=
    if text = twoPaths then .ok (twoPathsDoc "../../src".toList)
    else if text = twoPathsShadow then .ok (twoPathsDoc "/src".toList)
    else .error "unknown".toList
  render _ _ := twoPathsShadow

/-- The closure directories of the workspace. -/
def twoDirs : List FilePath := [absolutePath [nameWs, nameA], absolutePath [nameWs, nameB]]

/-- The documents have distinct keys. -/
theorem distinct_twoPathsDoc (outside : Text) : (Toml.table (twoPathsDoc outside)).Distinct := by
  have hdep (path : Text) : (Toml.table [(pathKeyName, .string path)]).Distinct := by
    refine .table _ (List.nodup_singleton _) fun entry hentry => ?_
    rw [List.mem_singleton.mp hentry]
    exact .value rfl
  refine .table _ (List.nodup_singleton _) fun entry hentry => ?_
  rw [List.mem_singleton.mp hentry]
  refine .table _ (show ["b".toList, "src".toList].Nodup by decide) fun entry hentry => ?_
  rcases List.mem_pair.mp hentry with rfl | rfl
  · exact hdep _
  · exact hdep _

/-- A disk without symbolic links is canonical. -/
theorem canonical_plainDisk (present : List FileName → Bool) : Canonical (plainDisk present) := by
  constructor
  · intro components p hp
    unfold plainDisk at hp
    split at hp
    · cases hp
      exact ⟨_, rfl⟩
    · cases hp
  · intro components p hp
    unfold plainDisk at hp ⊢
    split at hp
    · next hpresent =>
      cases hp
      rw [componentsOf_absolutePath, Component.destination_fromRoot, if_pos hpresent]
    · cases hp

/-- The edit of the manifest of the first crate. -/
theorem rewritePathDeps_twoPaths : rewritePathDeps (movedPath (plainDisk fun _ => true)
    (absolutePath [nameWs, nameA]) twoDirs) (twoPathsDoc "../../src".toList) =
      (twoPathsDoc "/src".toList, true) := rfl

/-- The manifest in the shadow. -/
theorem shadow_manifest_keeps_places_two :
    Shadowed (plainDisk fun _ => true) twoPathsToml (absolutePath [nameWs, nameA]) twoDirs
      (twoPathsDoc "../../src".toList)
      (rewritePathDepsToAbsolute (plainDisk fun _ => true) twoPathsToml twoPaths
        (absolutePath [nameWs, nameA]) twoDirs) := by
  have hne : twoPathsShadow ≠ twoPaths := by decide +kernel
  have hshadow : twoPathsToml.parse twoPathsShadow = .ok (twoPathsDoc "/src".toList) := by
    unfold twoPathsToml
    dsimp only
    rw [if_neg hne, if_pos rfl]
  have hparse : twoPathsToml.parse twoPaths = .ok (twoPathsDoc "../../src".toList) := by
    unfold twoPathsToml
    dsimp only
    rw [if_pos rfl]
  refine shadow_manifest_keeps_places (canonical_plainDisk _) ?_ [nameWs, nameA] twoDirs
    hparse fun _ => ⟨_, hshadow, fun _ => ?_, fun _ hhas => ?_, rfl⟩
  · intro text doc hparse
    unfold twoPathsToml at hparse
    dsimp only at hparse
    split at hparse
    · cases hparse
      exact distinct_twoPathsDoc _
    · split at hparse
      · cases hparse
        exact distinct_twoPathsDoc _
      · cases hparse
  · rw [rewritePathDeps_twoPaths]
  · rw [rewritePathDeps_twoPaths]
    exact hhas

/-- From a shadow in `/src`, the path into the workspace leads to the copy, and the other one to the
directory that it has always led to. -/
theorem shadow_path_leads_to_crate_two :
    (∃ path', (rewritePathDeps (movedPath (plainDisk fun _ => true)
        (absolutePath ([nameWs] ++ [nameA])) twoDirs) (twoPathsDoc "../../src".toList)).1.leafAt
          ["dependencies".toList, "b".toList, pathKeyName] = some (.string path') ∧
      ∃ rel', leadsTo ([nameWs] ++ [nameA]) "../b".toList = [nameWs] ++ rel' ∧
        leadsTo ([nameSrc] ++ [nameA]) path' = [nameSrc] ++ rel') ∧
    ∃ path', (rewritePathDeps (movedPath (plainDisk fun _ => true)
        (absolutePath ([nameWs] ++ [nameA])) twoDirs) (twoPathsDoc "../../src".toList)).1.leafAt
          ["dependencies".toList, "src".toList, pathKeyName] = some (.string path') ∧
      leadsTo ([nameSrc] ++ [nameA]) path' =
        leadsTo ([nameWs] ++ [nameA]) "../../src".toList := by
  have hkeys (name : Text) : IsDepPath ["dependencies".toList, name, pathKeyName] :=
    ⟨⟨"dependencies".toList, none⟩, by decide, name, rfl⟩
  constructor
  · obtain ⟨path', hpath, -, hcopy⟩ := shadow_path_leads_to_crate (fun _ => true) [nameWs]
      [nameSrc] [nameA] twoDirs (distinct_twoPathsDoc "../../src".toList) (hkeys "b".toList)
      (show (twoPathsDoc "../../src".toList).leafAt ["dependencies".toList, "b".toList,
        pathKeyName] = some (.string "../b".toList) from rfl)
    exact ⟨path', hpath, hcopy rfl (by decide +kernel) ⟨List.cons_ne_nil _ _, trivial⟩⟩
  · obtain ⟨path', hpath, horiginal, -⟩ := shadow_path_leads_to_crate (fun _ => true) [nameWs]
      [nameSrc] [nameA] twoDirs (distinct_twoPathsDoc "../../src".toList) (hkeys "src".toList)
      (show (twoPathsDoc "../../src".toList).leafAt ["dependencies".toList, "src".toList,
        pathKeyName] = some (.string "../../src".toList) from rfl)
    exact ⟨path', hpath, horiginal (.inr (by decide +kernel))⟩

end ModalRust.Scope
