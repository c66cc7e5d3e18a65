import ModalRust.Scope.Closure
import ModalRust.Scope.SelfConsistent
import ModalRust.StableSort

/-!
# What the manifest edits change

A document is described by what stands at each path of keys: nothing, a table, or a value. The two
edits of a manifest are followed path by path, first on documents and then on the texts that the
editor renders. Each of them changes the keys that it is about and nothing else, and a second run
changes nothing.
-/

namespace ModalRust.Scope

/-! ### Documents by their paths -/

/-- No table below a value repeats a key. -/
inductive Toml.Distinct : Toml → Prop
  /-- A table. -/
  | table (entries : List (Text × Toml)) (hnodup : (entries.map Prod.fst).Nodup)
    (hentries : ∀ entry ∈ entries, Distinct entry.2) : Distinct (.table entries)
  /-- Any other value. -/
  | value {v : Toml} (hvalue : v.asTableLike = none) : Distinct v

/-- A table, or the value that is not one. -/
def Toml.shape (v : Toml) : Option Toml := if v.asTableLike.isSome then none else some v

/-- What stands at a path of keys: a table, a value, or nothing. -/
def Table.shapeAt (doc : Table) (keys : List Text) : Option (Option Toml) :=
  ((Toml.table doc).at keys).map Toml.shape

/-- Whether anything stands at a path of keys. -/
def Table.has (doc : Table) (keys : List Text) : Bool := ((Toml.table doc).at keys).isSome

/-- The leaves are the values among the shapes. -/
theorem Table.leafAt_eq_shapeAt (doc : Table) (keys : List Text) :
    doc.leafAt keys = (doc.shapeAt keys).join := by
  unfold Table.leafAt Table.shapeAt Toml.shape
  cases (Toml.table doc).at keys with
  | none => rfl
  | some v =>
    cases htable : v.asTableLike <;> simp [htable]

/-- What is there has a shape. -/
theorem Table.has_eq_shapeAt (doc : Table) (keys : List Text) :
    doc.has keys = (doc.shapeAt keys).isSome := by
  unfold Table.has Table.shapeAt
  rw [Option.isSome_map]

/-- The shapes below a key are those of its value. -/
theorem Table.shapeAt_cons (doc : Table) (key : Text) (keys : List Text) :
    doc.shapeAt (key :: keys) = ((doc.get key).bind (·.at keys)).map Toml.shape := by
  unfold Table.shapeAt
  rw [Toml.at_table]

/-- What stands below a key stands in a table. -/
theorem Toml.exists_of_at_cons {v w : Toml} {key : Text} {keys : List Text}
    (h : v.at (key :: keys) = some w) :
    ∃ (t : Table) (u : Toml), v = .table t ∧ t.get key = some u ∧ u.at keys = some w := by
  cases htable : v.asTableLike with
  | none =>
    rw [Toml.at_of_not_table htable] at h
    cases h
  | some t =>
    rw [Toml.asTableLike_eq_some htable, Toml.at_table] at h
    obtain ⟨u, hu, hat⟩ := Option.bind_eq_some_iff.mp h
    exact ⟨t, u, Toml.asTableLike_eq_some htable, hu, hat⟩

/-- What is found in a table without repeated keys has none either. -/
theorem Toml.Distinct.get {t : Table} {key : Text} {v : Toml} (ht : (Toml.table t).Distinct)
    (hget : t.get key = some v) : v.Distinct := by
  cases ht with
  | table _ hnodup hentries => exact hentries (key, v) (mem_of_lookup hget)
  | value hvalue => cases hvalue

/-- The keys of a table are distinct. -/
theorem Toml.Distinct.nodup {t : Table} (ht : (Toml.table t).Distinct) :
    (t.map Prod.fst).Nodup := by
  cases ht with
  | table _ hnodup hentries => exact hnodup
  | value hvalue => cases hvalue

/-- With distinct keys, every entry is found. -/
theorem Table.get_of_mem {t : Table} (hnodup : (t.map Prod.fst).Nodup) {key : Text} {v : Toml}
    (hmem : (key, v) ∈ t) : t.get key = some v := by
  unfold Table.get
  induction t with
  | nil => cases hmem
  | cons entry t ih =>
    rw [List.map_cons, List.nodup_cons] at hnodup
    rcases List.mem_cons.mp hmem with rfl | hrest
    · exact List.lookup_cons_self
    · have hne : key ≠ entry.1 := by
        rintro rfl
        exact hnodup.1 (List.mem_map.mpr ⟨_, hrest, rfl⟩)
      rw [List.lookup_cons, beq_false_of_ne hne]
      exact ih hnodup.2 hrest

/-- Inserting what is there changes nothing. -/
theorem Table.insert_of_get {t : Table} (hnodup : (t.map Prod.fst).Nodup) {key : Text} {v : Toml}
    (hget : t.get key = some v) : t.insert key v = t := by
  unfold Table.insert Table.containsKey
  rw [hget, Option.isSome_some, if_pos rfl]
  conv_rhs => rw [← List.map_id t]
  refine List.map_congr_left ?_
  rintro ⟨k, w⟩ hmem
  by_cases hkey : k = key
  · subst hkey
    have hw := Table.get_of_mem hnodup hmem
    rw [hget, Option.some_inj] at hw
    rw [if_pos rfl, hw, id]
  · rw [if_neg hkey, id]

/-! ### Stripping -/

/-- A path of keys at or below a dev-dependency table, in a spelling. -/
def InDev (spelling : Text) (keys : List Text) : Prop :=
  keys.head? = some spelling ∨ keys.head? = some "target".toList ∧ keys[2]? = some spelling

instance (spelling : Text) (keys : List Text) : Decidable (InDev spelling keys) :=
  inferInstanceAs (Decidable (_ ∨ _ ∧ _))

/-- The other spelling of the dev-dependencies table. -/
def devDependenciesOld : Text := "dev_dependencies".toList

/-- The paths below a key. -/
theorem inDev_cons (spelling key : Text) (rest : List Text) :
    InDev spelling (key :: rest) ↔
      key = spelling ∨ key = "target".toList ∧ rest[1]? = some spelling := by
  unfold InDev
  rw [List.head?_cons, Option.some_inj, Option.some_inj, List.getElem?_cons_succ]

/-- Stripping keeps what a platform is: a table or a value. -/
theorem shape_stripCfg (cfg : Text) (v : Toml) : (stripCfg (cfg, v)).2.shape = v.shape := by
  unfold stripCfg Toml.shape
  cases htable : v.asTableLike with
  | none => simp [htable]
  | some t => simp [Toml.asTableLike]

/-- The `target` table of a stripped document. -/
theorem get_stripTable_target (doc : Table) :
    (stripTable doc).get "target".toList = (doc.get "target".toList).map fun v =>
      match v.asTableLike with
      | none => v
      | some target => .table (target.map stripCfg) := by
  have hne : "target".toList ≠ devDependencies := by decide
  unfold stripTable
  dsimp only
  rw [Table.get_remove doc hne]
  cases htarget : doc.get "target".toList with
  | none => exact (Table.get_remove doc hne).trans htarget
  | some v =>
    rw [Option.bind_some, Option.map_some]
    cases htable : v.asTableLike with
    | none => exact (Table.get_remove doc hne).trans htarget
    | some target => exact Table.get_insert_self _ _ _

/-- Stripping keeps the `target` table and the platforms in it. -/
theorem shapeAt_stripTable_target (doc : Table) {keys : List Text} (hkeys : keys.length < 2) :
    (stripTable doc).shapeAt ("target".toList :: keys) =
      doc.shapeAt ("target".toList :: keys) := by
  rw [Table.shapeAt_cons, Table.shapeAt_cons, get_stripTable_target]
  cases htarget : doc.get "target".toList with
  | none => rfl
  | some v =>
    rw [Option.map_some, Option.bind_some, Option.bind_some]
    cases htable : v.asTableLike with
    | none => rfl
    | some target =>
      rw [Toml.asTableLike_eq_some htable]
      match keys with
      | [] => rfl
      | [cfg] =>
        dsimp only
        rw [Toml.at_table, Toml.at_table, Table.get_map_stripCfg]
        cases target.get cfg with
        | none => rfl
        | some w => exact congrArg some (shape_stripCfg cfg w)

/-- **What a stripped document has**: nothing in the dev-dependency tables, and all else. -/
theorem shapeAt_stripTable (doc : Table) (keys : List Text) :
    (stripTable doc).shapeAt keys =
      if InDev devDependencies keys then none else doc.shapeAt keys := by
  have hne : "target".toList ≠ devDependencies := by decide
  match keys with
  | [] => rfl
  | key :: rest =>
    simp only [inDev_cons]
    by_cases hdev : key = devDependencies
    · rw [if_pos (.inl hdev), Table.shapeAt_cons, hdev, get_stripTable_dev]
      rfl
    by_cases htarget : key = "target".toList
    swap
    · rw [if_neg (by simp only [hdev, htarget, false_and, or_false, not_false_eq_true]),
        Table.shapeAt_cons, Table.shapeAt_cons, get_stripTable doc hdev htarget]
    subst htarget
    match rest with
    | [] =>
      rw [if_neg (not_or.mpr ⟨hne, fun h => nomatch h.2⟩)]
      exact shapeAt_stripTable_target doc (by simp)
    | [cfg] =>
      rw [if_neg (not_or.mpr ⟨hne, fun h => nomatch h.2⟩)]
      exact shapeAt_stripTable_target doc (by simp)
    | cfg :: key :: rest =>
      rw [Table.shapeAt_cons, Table.shapeAt_cons, at_stripTable_target]
      by_cases hkey : key = devDependencies
      · rw [if_pos hkey, if_pos (.inr ⟨rfl, congrArg some hkey⟩), Option.map_none]
      · rw [if_neg hkey, if_neg (not_or.mpr ⟨hne, fun h => hkey (Option.some_inj.mp h.2)⟩)]

/-- A platform has dev-dependencies if its table has the key. -/
theorem cfgHasDev_eq_true {entry : Text × Toml} :
    cfgHasDev entry = true ↔
      ∃ t : Table, entry.2 = .table t ∧ (t.get devDependencies).isSome = true := by
  unfold cfgHasDev
  cases htable : entry.2.asTableLike with
  | none =>
    refine ⟨nofun, ?_⟩
    rintro ⟨t, ht, -⟩
    rw [ht] at htable
    cases htable
  | some t =>
    rw [Toml.asTableLike_eq_some htable]
    constructor
    · intro hcontains
      exact ⟨t, rfl, hcontains⟩
    · rintro ⟨t', ht', hcontains⟩
      cases ht'
      exact hcontains

/-- **A document has something to strip exactly if it has a dev-dependency table.** -/
theorem hasDev_iff {doc : Table} (hdoc : (Toml.table doc).Distinct) :
    hasDev doc = true ↔ ∃ keys, InDev devDependencies keys ∧ doc.has keys = true := by
  unfold hasDev Table.has
  rw [Bool.or_eq_true, List.any_eq_true]
  constructor
  · rintro (hroot | ⟨⟨cfg, v⟩, hmem, hcfg⟩)
    · obtain ⟨w, hw⟩ := Option.isSome_iff_exists.mp hroot
      refine ⟨[devDependencies], .inl rfl, ?_⟩
      rw [Toml.at_table, hw]
      rfl
    · obtain ⟨t, rfl, hdev⟩ := cfgHasDev_eq_true.mp hcfg
      obtain ⟨w, hw⟩ := Option.isSome_iff_exists.mp hdev
      cases htarget : (doc.get "target".toList).bind Toml.asTableLike with
      | none =>
        rw [htarget] at hmem
        cases hmem
      | some target =>
        rw [htarget, Option.getD_some] at hmem
        obtain ⟨v, hv, htable⟩ := Option.bind_eq_some_iff.mp htarget
        cases Toml.asTableLike_eq_some htable
        have hfound := Table.get_of_mem (hdoc.get hv).nodup hmem
        refine ⟨["target".toList, cfg, devDependencies], .inr ⟨rfl, rfl⟩, ?_⟩
        rw [Toml.at_table, hv, Option.bind_some, Toml.at_table, hfound, Option.bind_some,
          Toml.at_table, hw]
        rfl
  · rintro ⟨keys, hdev, hhas⟩
    obtain ⟨w, hw⟩ := Option.isSome_iff_exists.mp hhas
    match keys with
    | [] => exact absurd hdev (by decide)
    | key :: rest =>
      rw [inDev_cons] at hdev
      rw [Toml.at_table] at hw
      obtain ⟨v, hv, hrest⟩ := Option.bind_eq_some_iff.mp hw
      rcases hdev with rfl | ⟨rfl, hkey⟩
      · exact .inl (Option.isSome_iff_exists.mpr ⟨v, hv⟩)
      · match rest with
        | cfg :: key :: rest =>
          cases Option.some_inj.mp hkey
          obtain ⟨target, u, rfl, hu, hbelow⟩ := Toml.exists_of_at_cons hrest
          obtain ⟨t, x, rfl, hx, -⟩ := Toml.exists_of_at_cons hbelow
          rw [hv]
          exact .inr ⟨(cfg, .table t), mem_of_lookup hu,
            cfgHasDev_eq_true.mpr ⟨t, rfl, Option.isSome_iff_exists.mpr ⟨x, hx⟩⟩⟩

/-! ### Scoping -/

/-- The keys of the `[workspace]` table that scoping sets. -/
def scopedKeys : List Text :=
  ["members".toList, "default-members".toList, "exclude".toList]

/-- The array that scoping sets. -/
def membersArray (workspaceRoot : FilePath) (dirs : List FilePath) : Toml :=
  .array ((memberList workspaceRoot dirs).map .string)

/-- A path of keys at or below a key that scoping sets. -/
def InScoped (keys : List Text) : Prop :=
  keys.head? = some "workspace".toList ∧ ∃ key ∈ scopedKeys, keys[1]? = some key

/-- What is found after setting a key that is there. -/
theorem Table.get_ite_insert (t : Table) (key : Text) (value : Toml) (k : Text) :
    Table.get (if t.containsKey key then t.insert key value else t) k =
      if k = key then (t.get key).map fun _ => value else t.get k := by
  by_cases hk : k = key
  · rw [if_pos hk, hk]
    cases hget : t.get key with
    | none =>
      rw [if_neg (by simp [Table.containsKey, hget])]
      exact hget
    | some v =>
      rw [if_pos (by simp [Table.containsKey, hget])]
      exact Table.get_insert_self t key value
  · rw [if_neg hk]
    split
    · exact Table.get_insert t value hk
    · rfl

/-- The `[workspace]` table after its edit. -/
theorem get_scopeWorkspace_cases (members : List Text) (ws : Table) (key : Text) :
    (scopeWorkspace members ws).get key =
      if key = "members".toList then some (.array (members.map .string))
      else if key = "default-members".toList then
        (ws.get key).map fun _ => .array (members.map .string)
      else if key = "exclude".toList then (ws.get key).map fun _ => .array []
      else ws.get key := by
  have hdefault : "default-members".toList ≠ "members".toList := by decide
  have hexclude : "exclude".toList ≠ "members".toList := by decide
  have hother : "exclude".toList ≠ "default-members".toList := by decide
  by_cases hmembers : key = "members".toList
  · rw [if_pos hmembers, hmembers]
    exact get_scopeWorkspace members ws
  rw [if_neg hmembers]
  unfold scopeWorkspace
  dsimp only
  rw [Table.get_ite_insert, Table.get_ite_insert, Table.get_ite_insert, if_neg hother,
    Table.get_insert _ _ hmembers, Table.get_insert _ _ hdefault, Table.get_insert _ _ hexclude]
  by_cases hkey : key = "exclude".toList
  · rw [if_pos hkey, if_neg (hkey ▸ hother), if_pos hkey, hkey]
  · rw [if_neg hkey, if_neg hkey]
    by_cases hkey : key = "default-members".toList
    · rw [if_pos hkey, if_pos hkey, hkey]
    · rw [if_neg hkey, if_neg hkey]

/-- **Scoping keeps everything else.** -/
theorem shapeAt_scopeMembers {workspaceRoot : FilePath} {dirs : List FilePath}
    {doc edited : Table} (hedit : scopeMembers workspaceRoot dirs doc = some edited)
    {keys : List Text} (hkeys : ¬ InScoped keys) : edited.shapeAt keys = doc.shapeAt keys := by
  obtain ⟨ws, hws, rfl⟩ := Option.map_eq_some_iff.mp hedit
  obtain ⟨v, hv, htable⟩ := Option.bind_eq_some_iff.mp hws
  cases Toml.asTableLike_eq_some htable
  match keys with
  | [] => rfl
  | key :: rest =>
    rw [Table.shapeAt_cons, Table.shapeAt_cons]
    by_cases hkey : key = "workspace".toList
    swap
    · rw [Table.get_insert _ _ hkey]
    subst hkey
    rw [Table.get_insert_self, hv, Option.bind_some, Option.bind_some]
    match rest with
    | [] => rfl
    | key :: rest =>
      have hkey : key ∉ scopedKeys := fun h => hkeys ⟨rfl, key, h, rfl⟩
      have hne {k : Text} (hk : k ∈ scopedKeys) : key ≠ k := fun h => hkey (h ▸ hk)
      rw [Toml.at_table, Toml.at_table, get_scopeWorkspace_cases, if_neg (hne (by decide)),
        if_neg (hne (by decide)), if_neg (hne (by decide))]

/-- **The names are sorted, without repeats.** -/
theorem pairwise_memberList (workspaceRoot : FilePath) (dirs : List FilePath) :
    (memberList workspaceRoot dirs).Pairwise fun a b => textKey a < textKey b :=
  pairwise_lt_sortByKey _ textKey_injective (List.nodup_dedup _)

/-- The keys of the edited `[workspace]` table. -/
theorem shapeAt_workspace {workspaceRoot : FilePath} {dirs : List FilePath} {doc edited : Table}
    (hedit : scopeMembers workspaceRoot dirs doc = some edited) (key : Text) :
    edited.shapeAt ["workspace".toList, key] =
      if key = "members".toList then some (some (membersArray workspaceRoot dirs))
      else if key = "default-members".toList then
        if doc.has ["workspace".toList, key] then some (some (membersArray workspaceRoot dirs))
        else none
      else if key = "exclude".toList then
        if doc.has ["workspace".toList, key] then some (some (.array [])) else none
      else doc.shapeAt ["workspace".toList, key] := by
  obtain ⟨ws, hws, rfl⟩ := Option.map_eq_some_iff.mp hedit
  obtain ⟨v, hv, htable⟩ := Option.bind_eq_some_iff.mp hws
  cases Toml.asTableLike_eq_some htable
  have hread {u : Toml} : (Toml.at u []) = some u := rfl
  have hhas : doc.has ["workspace".toList, key] = (Table.get ws key).isSome := by
    unfold Table.has
    rw [Toml.at_table, hv, Option.bind_some, Toml.at_table]
    simp [hread]
  rw [Table.shapeAt_cons, Table.shapeAt_cons, Table.get_insert_self, hv, hhas, Option.bind_some,
    Option.bind_some, Toml.at_table, Toml.at_table, get_scopeWorkspace_cases]
  split
  · rfl
  split
  · cases Table.get ws key <;> rfl
  split
  · cases Table.get ws key <;> rfl
  · rfl

/-- A document is scoped if it has a `[workspace]` table. -/
theorem exists_scopeMembers_iff {workspaceRoot : FilePath} {dirs : List FilePath} {doc : Table} :
    (∃ edited, scopeMembers workspaceRoot dirs doc = some edited) ↔
      doc.shapeAt ["workspace".toList] = some none := by
  unfold scopeMembers
  rw [Table.shapeAt_cons]
  cases doc.get "workspace".toList with
  | none => simp
  | some v => cases v <;> simp [Toml.asTableLike, Toml.at, Toml.shape]

/-- A leaf directly below a key. -/
theorem Table.get_of_leafAt {doc : Table} {table key : Text} {v : Toml}
    (h : doc.leafAt [table, key] = some v) :
    ∃ t : Table, doc.get table = some (.table t) ∧ t.get key = some v := by
  obtain ⟨hat, -⟩ := Option.filter_eq_some_iff.mp h
  obtain ⟨t, u, ht, hu, hrest⟩ := Toml.exists_of_at_cons hat
  cases ht
  obtain ⟨t, x, rfl, hx, hnil⟩ := Toml.exists_of_at_cons hrest
  cases hnil
  exact ⟨t, hu, hx⟩

/-- Setting a key to what it has changes nothing. -/
theorem Table.ite_insert_eq {t : Table} (hnodup : (t.map Prod.fst).Nodup) {key : Text} {v : Toml}
    (hget : ∀ w, t.get key = some w → w = v) :
    (if t.containsKey key then t.insert key v else t) = t := by
  cases hkey : t.get key with
  | none => rw [if_neg (by simp [Table.containsKey, hkey])]
  | some w =>
    rw [if_pos (by simp [Table.containsKey, hkey])]
    exact Table.insert_of_get hnodup (hget w hkey ▸ hkey)

/-- **A document that has the member arrays is kept.** -/
theorem scopeMembers_eq_self {workspaceRoot : FilePath} {dirs : List FilePath} {doc : Table}
    (hdoc : (Toml.table doc).Distinct) {ws : Table}
    (hws : doc.get "workspace".toList = some (.table ws))
    (hmembers : ws.get "members".toList = some (membersArray workspaceRoot dirs))
    (hdefault : ∀ v, ws.get "default-members".toList = some v →
      v = membersArray workspaceRoot dirs)
    (hexclude : ∀ v, ws.get "exclude".toList = some v → v = .array []) :
    scopeMembers workspaceRoot dirs doc = some doc := by
  have hnodup : (ws.map Prod.fst).Nodup := (hdoc.get hws).nodup
  have hkept : scopeWorkspace (memberList workspaceRoot dirs) ws = ws := by
    unfold membersArray at hmembers hdefault
    unfold scopeWorkspace
    dsimp only
    rw [Table.insert_of_get hnodup hmembers, Table.ite_insert_eq hnodup hdefault]
    exact Table.ite_insert_eq hnodup hexclude
  unfold scopeMembers
  rw [hws]
  refine congrArg some ?_
  dsimp only
  rw [hkept]
  exact Table.insert_of_get hdoc.nodup hws

/-! ### Texts -/

/-- An edited text reads as a document: its values are those of the edited document, no table is
added, though an empty one may be lost, and rendering what was read gives the same text. -/
structure TomlEdit.ReadsAs (toml : TomlEdit) (text : Text) (edited doc : Table) : Prop where
  /-- The text is read. -/
  parse : toml.parse (toml.render text edited) = .ok doc
  /-- The values. -/
  leaves : ∀ keys, doc.leafAt keys = edited.leafAt keys
  /-- The tables. -/
  tables : ∀ keys, doc.has keys = true → edited.has keys = true
  /-- The layout. -/
  stable : toml.render (toml.render text edited) doc = toml.render text edited

/-- The result of stripping a document. -/
structure Stripped (toml : TomlEdit) (doc : Table) (result : Option Text) : Prop where
  /-- A dev-dependency table is reported. -/
  reported : (∃ keys, InDev devDependencies keys ∧ doc.has keys = true) → result.isSome = true
  /-- Nothing else is. -/
  found : result.isSome = true →
    ∃ keys, (InDev devDependencies keys ∨ InDev devDependenciesOld keys) ∧ doc.has keys = true
  /-- The tables are removed, and every other value is kept. -/
  edited : ∀ text ∈ result, ∃ doc', toml.parse text = .ok doc' ∧
    (∀ keys, InDev devDependencies keys → doc'.has keys = false) ∧
    ∀ keys, ¬ InDev devDependencies keys → ¬ InDev devDependenciesOld keys →
      doc'.leafAt keys = doc.leafAt keys
  /-- There is nothing left to strip. -/
  again : ∀ text ∈ result, stripDevDependencies toml text = .ok none

/-- The result of scoping a document. -/
structure Scoped (toml : TomlEdit) (workspaceRoot : FilePath) (dirs : List FilePath)
    (original : Text) (doc : Table) (text : Text) : Prop where
  /-- Without a `[workspace]` table, the manifest is kept. -/
  standalone : doc.shapeAt ["workspace".toList] ≠ some none → text = original
  /-- With one, the members are set, the default members and the excluded crates are set if they
  are there, and every other value is kept. -/
  edited : doc.shapeAt ["workspace".toList] = some none →
    ∃ doc', toml.parse text = .ok doc' ∧
      doc'.leafAt ["workspace".toList, "members".toList] =
        some (membersArray workspaceRoot dirs) ∧
      doc'.leafAt ["workspace".toList, "default-members".toList] =
        (if doc.has ["workspace".toList, "default-members".toList] then
          some (membersArray workspaceRoot dirs) else none) ∧
      doc'.leafAt ["workspace".toList, "exclude".toList] =
        (if doc.has ["workspace".toList, "exclude".toList] then some (.array []) else none) ∧
      ∀ keys, ¬ InScoped keys → doc'.leafAt keys = doc.leafAt keys
  /-- The members are sorted and without repeats. -/
  sorted : (memberList workspaceRoot dirs).Pairwise fun a b => textKey a < textKey b
  /-- The members are the directories below the root. -/
  members : ∀ name, name ∈ memberList workspaceRoot dirs ↔
    name ≠ [] ∧ ∃ dir ∈ dirs, crateName workspaceRoot dir = some name
  /-- Scoping again changes nothing. -/
  again : rewriteWorkspaceMembers toml text workspaceRoot dirs = .ok text

variable {toml : TomlEdit} {original : Text} {doc : Table}

/-- Nothing in a stripped document is below a dev-dependency table. -/
theorem has_stripTable (doc : Table) {keys : List Text} (hdev : InDev devDependencies keys) :
    (stripTable doc).has keys = false := by
  rw [Table.has_eq_shapeAt, shapeAt_stripTable, if_pos hdev]
  rfl

/-- **Stripping a text.** -/
theorem exists_stripped
    (hkeys : ∀ text doc, toml.parse text = .ok doc → (Toml.table doc).Distinct)
    (hparse : toml.parse original = .ok doc)
    (hread : hasDev doc = true → ∃ doc', toml.ReadsAs original (stripTable doc) doc') :
    ∃ result, stripDevDependencies toml original = .ok result ∧ Stripped toml doc result := by
  unfold stripDevDependencies
  rw [hparse]
  refine ⟨_, rfl, ?_⟩
  cases hdev : hasDev doc with
  | false =>
    refine ⟨?_, nofun, nofun, nofun⟩
    intro hfound
    rw [(hasDev_iff (hkeys _ _ hparse)).mpr hfound] at hdev
    cases hdev
  | true =>
    obtain ⟨doc', hreads⟩ := hread hdev
    have hgone (keys : List Text) (hkeys : InDev devDependencies keys) :
        doc'.has keys = false := by
      refine Bool.eq_false_iff.mpr fun hhas => ?_
      have hstripped := hreads.tables keys hhas
      rw [has_stripTable doc hkeys] at hstripped
      cases hstripped
    refine ⟨fun _ => rfl, ?_, ?_, ?_⟩
    · intro _
      obtain ⟨keys, hin, hhas⟩ := (hasDev_iff (hkeys _ _ hparse)).mp hdev
      exact ⟨keys, .inl hin, hhas⟩
    · rintro text ⟨⟩
      refine ⟨doc', hreads.parse, hgone, ?_⟩
      intro keys hdevkeys _
      rw [hreads.leaves, Table.leafAt_eq_shapeAt, Table.leafAt_eq_shapeAt, shapeAt_stripTable,
        if_neg hdevkeys]
    · rintro text ⟨⟩
      have hno : hasDev doc' = false := by
        refine Bool.eq_false_iff.mpr fun hdev' => ?_
        obtain ⟨keys, hin, hhas⟩ := (hasDev_iff (hkeys _ _ hreads.parse)).mp hdev'
        rw [hgone keys hin] at hhas
        cases hhas
      unfold stripDevDependencies
      rw [hreads.parse]
      dsimp only
      rw [hno, if_neg Bool.false_ne_true]

/-- **Scoping a text.** -/
theorem exists_scoped (workspaceRoot : FilePath) (dirs : List FilePath)
    (hkeys : ∀ text doc, toml.parse text = .ok doc → (Toml.table doc).Distinct)
    (hparse : toml.parse original = .ok doc)
    (hread : ∀ edited, scopeMembers workspaceRoot dirs doc = some edited →
      ∃ doc', toml.ReadsAs original edited doc') :
    ∃ text, rewriteWorkspaceMembers toml original workspaceRoot dirs = .ok text ∧
      Scoped toml workspaceRoot dirs original doc text := by
  have hsorted := pairwise_memberList workspaceRoot dirs
  have hmembers (name : Text) : name ∈ memberList workspaceRoot dirs ↔
      name ≠ [] ∧ ∃ dir ∈ dirs, crateName workspaceRoot dir = some name := mem_memberList
  cases hscope : scopeMembers workspaceRoot dirs doc with
  | none =>
    have hrewrite : rewriteWorkspaceMembers toml original workspaceRoot dirs = .ok original := by
      unfold rewriteWorkspaceMembers
      rw [hparse]
      dsimp only
      rw [hscope]
    refine ⟨original, hrewrite, fun _ => rfl, ?_, hsorted, hmembers, hrewrite⟩
    intro htable
    obtain ⟨edited, hedited⟩ := exists_scopeMembers_iff.mpr htable
    rw [hscope] at hedited
    cases hedited
  | some edited =>
    obtain ⟨doc', hreads⟩ := hread edited hscope
    have hshape := shapeAt_workspace hscope
    have hleaf (keys : List Text) : doc'.leafAt keys = (edited.shapeAt keys).join := by
      rw [hreads.leaves, Table.leafAt_eq_shapeAt]
    have hdefault : doc'.leafAt ["workspace".toList, "default-members".toList] =
        (if doc.has ["workspace".toList, "default-members".toList] then
          some (membersArray workspaceRoot dirs) else none) := by
      rw [hleaf, hshape, if_neg (by decide), if_pos rfl]
      split <;> rfl
    have hexclude : doc'.leafAt ["workspace".toList, "exclude".toList] =
        (if doc.has ["workspace".toList, "exclude".toList] then some (.array []) else none) := by
      rw [hleaf, hshape, if_neg (by decide), if_neg (by decide), if_pos rfl]
      split <;> rfl
    have hset : doc'.leafAt ["workspace".toList, "members".toList] =
        some (membersArray workspaceRoot dirs) := by
      rw [hleaf, hshape, if_pos rfl]
      rfl
    have hother (keys : List Text) (hkeys : ¬ InScoped keys) :
        doc'.leafAt keys = doc.leafAt keys := by
      rw [hleaf, shapeAt_scopeMembers hscope hkeys, Table.leafAt_eq_shapeAt]
    have hrewrite : rewriteWorkspaceMembers toml original workspaceRoot dirs =
        .ok (toml.render original edited) := by
      unfold rewriteWorkspaceMembers
      rw [hparse]
      dsimp only
      rw [hscope]
    -- the document of the rendered text has the member arrays already
    obtain ⟨ws, hws, hwsmembers⟩ := Table.get_of_leafAt hset
    have hvalue {key : Text} {v w : Toml} (hv : ws.get key = some v)
        (hw : doc'.leafAt ["workspace".toList, key] = some w) : v = w := by
      obtain ⟨ws', hws', hkey⟩ := Table.get_of_leafAt hw
      rw [hws] at hws'
      cases hws'
      exact Option.some_inj.mp (hv.symm.trans hkey)
    have hhas {key : Text} {v : Toml} (hv : ws.get key = some v) :
        (edited.shapeAt ["workspace".toList, key]).isSome = true := by
      rw [← Table.has_eq_shapeAt]
      refine hreads.tables _ ?_
      unfold Table.has
      rw [Toml.at_table, hws, Option.bind_some, Toml.at_table, hv]
      rfl
    have hkept : scopeMembers workspaceRoot dirs doc' = some doc' := by
      refine scopeMembers_eq_self (hkeys _ _ hreads.parse) hws hwsmembers ?_ ?_
      · intro v hv
        have hthere := hhas hv
        rw [hshape, if_neg (by decide), if_pos rfl, Option.isSome_ite] at hthere
        rw [if_pos hthere] at hdefault
        exact hvalue hv hdefault
      · intro v hv
        have hthere := hhas hv
        rw [hshape, if_neg (by decide), if_neg (by decide), if_pos rfl, Option.isSome_ite]
          at hthere
        rw [if_pos hthere] at hexclude
        exact hvalue hv hexclude
    refine ⟨_, hrewrite, ?_, ?_, hsorted, hmembers, ?_⟩
    · intro htable
      exact absurd (exists_scopeMembers_iff.mp ⟨edited, hscope⟩) htable
    · intro _
      exact ⟨doc', hreads.parse, hset, hdefault, hexclude, hother⟩
    · unfold rewriteWorkspaceMembers
      rw [hreads.parse]
      dsimp only
      rw [hkept]
      exact congrArg Except.ok hreads.stable

/-- **The manifest edits are minimal and idempotent.** Stripping removes the dev-dependency tables
and keeps every other value; scoping sets the members of a workspace, its default members and its
excluded crates, and keeps every other value; a second run of either changes nothing. -/
theorem manifest_edits_minimal (workspaceRoot : FilePath) (dirs : List FilePath)
    (hkeys : ∀ text doc, toml.parse text = .ok doc → (Toml.table doc).Distinct)
    (hparse : toml.parse original = .ok doc)
    (hstrip : hasDev doc = true → ∃ doc', toml.ReadsAs original (stripTable doc) doc')
    (hscope : ∀ edited, scopeMembers workspaceRoot dirs doc = some edited →
      ∃ doc', toml.ReadsAs original edited doc') :
    (∃ result, stripDevDependencies toml original = .ok result ∧ Stripped toml doc result) ∧
      ∃ text, rewriteWorkspaceMembers toml original workspaceRoot dirs = .ok text ∧
        Scoped toml workspaceRoot dirs original doc text :=
  ⟨exists_stripped hkeys hparse hstrip, exists_scoped workspaceRoot dirs hkeys hparse hscope⟩

/-- A root manifest with dev-dependencies. -/
def rootText : Text := "dev-dependencies = {}\n[workspace]\nexclude = [\"c\"]\n".toList

/-- The root manifest, stripped. -/
def strippedText : Text := "[workspace]\nexclude = [\"c\"]\n".toList

/-- The root manifest, scoped to one crate. -/
def scopedText : Text :=
  "dev-dependencies = {}\n[workspace]\nexclude = []\nmembers = [\"a\"]\n".toList

/-- A manifest with dev-dependencies in the other spelling. -/
def oldText : Text := "dev_dependencies = {}\n".toList

/-- A `[workspace]` table. -/
def workspaceEntry (entries : Table) : Text × Toml := ("workspace".toList, .table entries)

/-- The excluded crates. -/
def excludeEntry (crates : List Text) : Text × Toml :=
  ("exclude".toList, .array (crates.map .string))

/-- An empty dev-dependency table. -/
def devEntry (spelling : Text) : Text × Toml := (spelling, .table [])

/-- The document of the root manifest. -/
def rootDoc : Table :=
  [devEntry devDependencies, workspaceEntry [excludeEntry ["c".toList]]]

/-- The document of the stripped root manifest. -/
def strippedDoc : Table := [workspaceEntry [excludeEntry ["c".toList]]]

/-- The document of the scoped root manifest. -/
def scopedDoc : Table :=
  [devEntry devDependencies, workspaceEntry
    [excludeEntry [], ("members".toList, .array [.string "a".toList])]]

/-- The editor's behaviour on these manifests. -/
def rootToml : TomlEdit where
  parse text :=
    if text = rootText then .ok rootDoc
    else if text = strippedText then .ok strippedDoc
    else if text = scopedText then .ok scopedDoc
    else if text = oldText then .ok [devEntry devDependenciesOld]
    else .error "unknown".toList
  render text doc :=
    if text = rootText then if hasDev doc then scopedText else strippedText else text

/-- The root manifest is read. -/
theorem parse_rootText : rootToml.parse rootText = .ok rootDoc := by
  unfold rootToml
  dsimp only
  rw [if_pos rfl]

/-- The stripped root manifest is read. -/
theorem parse_strippedText :
    rootToml.parse strippedText = .ok strippedDoc := by
  have hroot : strippedText ≠ rootText := by decide +kernel
  unfold rootToml
  dsimp only
  rw [if_neg hroot, if_pos rfl]

/-- The scoped root manifest is read. -/
theorem parse_scopedText : rootToml.parse scopedText = .ok scopedDoc := by
  have hroot : scopedText ≠ rootText := by decide +kernel
  have hstripped : scopedText ≠ strippedText := by decide +kernel
  unfold rootToml
  dsimp only
  rw [if_neg hroot, if_neg hstripped, if_pos rfl]

/-- The manifest in the other spelling is read. -/
theorem parse_oldText : rootToml.parse oldText = .ok [devEntry devDependenciesOld] := by
  have hroot : oldText ≠ rootText := by decide +kernel
  have hstripped : oldText ≠ strippedText := by decide +kernel
  have hscoped : oldText ≠ scopedText := by decide +kernel
  unfold rootToml
  dsimp only
  rw [if_neg hroot, if_neg hstripped, if_neg hscoped, if_pos rfl]

/-- An edited root manifest is rendered. -/
theorem render_rootText (doc : Table) :
    rootToml.render rootText doc = if hasDev doc then scopedText else strippedText := by
  unfold rootToml
  dsimp only
  rw [if_pos rfl]

/-- A text that was rendered is kept. -/
theorem render_of_ne {text : Text} (hroot : text ≠ rootText) (doc : Table) :
    rootToml.render text doc = text := by
  unfold rootToml
  exact if_neg hroot

/-- The stripped root manifest is read back. -/
theorem readsAs_strippedText :
    rootToml.ReadsAs rootText (stripTable rootDoc) strippedDoc := by
  have hrender : rootToml.render rootText (stripTable rootDoc) = strippedText := render_rootText _
  refine ⟨?_, fun _ => rfl, fun _ hhas => hhas, ?_⟩
  · rw [hrender, parse_strippedText]
  · rw [hrender]
    exact render_of_ne (by decide +kernel) _

/-- The scoped root manifest is read back. -/
theorem readsAs_scopedText : rootToml.ReadsAs rootText scopedDoc scopedDoc := by
  have hrender : rootToml.render rootText scopedDoc = scopedText := render_rootText _
  refine ⟨?_, fun _ => rfl, fun _ hhas => hhas, ?_⟩
  · rw [hrender, parse_scopedText]
  · rw [hrender]
    exact render_of_ne (by decide +kernel) _

/-- Scoping the root manifest to one crate. -/
theorem scopeMembers_rootDoc :
    scopeMembers wsDir [wsDir.join nameA] rootDoc = some scopedDoc := rfl

/-- The example documents have distinct keys. -/
theorem distinct_rootToml (text : Text) (doc : Table) (hparse : rootToml.parse text = .ok doc) :
    (Toml.table doc).Distinct := by
  have hdev (spelling : Text) : (devEntry spelling).2.Distinct := .table [] List.nodup_nil nofun
  have harray (items : List Toml) : (Toml.array items).Distinct := .value rfl
  have hone {entry : Text × Toml} (hentry : entry.2.Distinct) : (Toml.table [entry]).Distinct := by
    refine .table _ (by simp) ?_
    intro other hother
    rcases List.mem_singleton.mp hother with rfl
    exact hentry
  have hpair {a b : Text × Toml} (hne : a.1 ≠ b.1) (ha : a.2.Distinct) (hb : b.2.Distinct) :
      (Toml.table [a, b]).Distinct := by
    refine .table _ (by simp [hne]) ?_
    intro entry hentry
    rcases List.mem_pair.mp hentry with rfl | rfl
    · exact ha
    · exact hb
  have hstripped : (Toml.table strippedDoc).Distinct := hone (hone (harray _))
  unfold rootToml at hparse
  dsimp only at hparse
  by_cases h : text = rootText
  · rw [if_pos h] at hparse
    cases hparse
    exact hpair (by decide) (hdev _) (hone (harray _))
  rw [if_neg h] at hparse
  by_cases h : text = strippedText
  · rw [if_pos h] at hparse
    cases hparse
    exact hstripped
  rw [if_neg h] at hparse
  by_cases h : text = scopedText
  · rw [if_pos h] at hparse
    cases hparse
    exact hpair (by decide) (hdev _) (hpair (by decide) (harray _) (harray _))
  rw [if_neg h] at hparse
  by_cases h : text = oldText
  · rw [if_pos h] at hparse
    cases hparse
    exact hone (hdev _)
  · rw [if_neg h] at hparse
    cases hparse

/-- The result for the root manifest. -/
theorem manifest_edits_minimal_root :
    (∃ result, stripDevDependencies rootToml rootText = .ok result ∧
        Stripped rootToml rootDoc result) ∧
      ∃ text, rewriteWorkspaceMembers rootToml rootText wsDir [wsDir.join nameA] = .ok text ∧
        Scoped rootToml wsDir [wsDir.join nameA] rootText rootDoc text := by
  refine manifest_edits_minimal wsDir [wsDir.join nameA] distinct_rootToml parse_rootText ?_ ?_
  · intro _
    exact ⟨_, readsAs_strippedText⟩
  · intro edited hedit
    rw [scopeMembers_rootDoc, Option.some_inj] at hedit
    subst hedit
    exact ⟨_, readsAs_scopedText⟩

/-- Scoping clears the excluded crates and keeps a manifest without a `[workspace]` table, and
stripping keeps the dev-dependencies in the other spelling. -/
theorem excluded_crates_are_cleared :
    rewriteWorkspaceMembers rootToml rootText wsDir [wsDir.join nameA] = .ok scopedText ∧
    rootToml.parse rootText = .ok rootDoc ∧
    rootDoc.leafAt ["workspace".toList, "exclude".toList] = some (.array [.string "c".toList]) ∧
    rootToml.parse scopedText = .ok scopedDoc ∧
    scopedDoc.leafAt ["workspace".toList, "exclude".toList] = some (.array []) ∧
    rewriteWorkspaceMembers rootToml oldText wsDir [wsDir.join nameA] = .ok oldText ∧
    stripDevDependencies rootToml oldText = .ok none := by
  refine ⟨?_, parse_rootText, rfl, parse_scopedText, rfl, ?_, ?_⟩
  · unfold rewriteWorkspaceMembers
    rw [parse_rootText]
    dsimp only
    rw [scopeMembers_rootDoc]
    exact congrArg Except.ok (render_rootText scopedDoc)
  · unfold rewriteWorkspaceMembers
    rw [parse_oldText]
    rfl
  · unfold stripDevDependencies
    rw [parse_oldText]
    rfl

end ModalRust.Scope
