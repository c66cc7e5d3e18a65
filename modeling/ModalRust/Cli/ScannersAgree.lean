import ModalRust.Cli.PlainManifest

/-!
# The scanners and TOML

The CLI and the facade look for the root of a chain of directories with their own tests. Both
walks are the search for the nearest workspace, and with the tables that the documents have, they
end at the same directory exactly if the manifests are written for it. So are the other scanners
right exactly for documents that are written for them.
-/

namespace ModalRust.Cli.ManifestScan

open TomlSyntax

/-! ### The root of a chain of directories -/

variable {α : Type}

/-- The nearest directory of a kind. -/
def Nearest (kind : Option α → Prop) (dirs : List (Option α)) (r : ℕ) : Prop :=
  (∃ dir, dirs[r]? = some dir ∧ kind dir) ∧ ∀ j < r, ∀ dir, dirs[j]? = some dir → ¬ kind dir

/-- The root: the nearest directory whose manifest is that of a workspace, or the nearest one with
a manifest if there is no workspace. -/
def IsRoot (workspace : α → Prop) (dirs : List (Option α)) (r : ℕ) : Prop :=
  Nearest (fun dir => ∃ a, dir = some a ∧ workspace a) dirs r ∨
    (∀ a, some a ∈ dirs → ¬ workspace a) ∧ Nearest (fun dir => dir.isSome = true) dirs r

/-- A walk up the directories, with the nearest one that has a manifest. -/
def walk (test : α → Bool) : ℕ → Option ℕ → List (Option α) → Option ℕ
  | _, nearest, [] => nearest
  | i, nearest, none :: dirs => walk test (i + 1) nearest dirs
  | i, nearest, some a :: dirs =>
    if test a then some i else walk test (i + 1) (nearest.or (some i)) dirs

/-- `workspace_root` is such a walk if every manifest can be read. -/
theorem workspaceRootFrom_eq_walk (i : ℕ) (nearest : Option ℕ) (texts : List (Option Text)) :
    workspaceRootFrom i nearest (texts.map (·.map some)) =
      (walk declaresWorkspace i nearest texts).elim (.error .notFound) .ok := by
  induction texts generalizing i nearest with
  | nil => cases nearest <;> rfl
  | cons text texts ih =>
    cases text with
    | none => exact ih (i + 1) nearest
    | some text =>
      change (if declaresWorkspace text then _ else _) = _
      rw [walk, ih]
      split_ifs <;> rfl

/-- So is `discover_local_root`. -/
theorem discoverFrom_eq_walk (i : ℕ) (nearest : Option ℕ) (texts : List (Option Text)) :
    discoverFrom i nearest (texts.map (·.map some)) =
      (walk mentionsWorkspace i nearest texts).getD 0 := by
  induction texts generalizing i nearest with
  | nil => rfl
  | cons text texts ih =>
    cases text with
    | none => exact ih (i + 1) nearest
    | some text =>
      change (if mentionsWorkspace text then _ else _) = _
      rw [walk, ih]
      split_ifs <;> rfl

/-- Where a walk ends. -/
theorem walk_eq (test : α → Bool) (i : ℕ) (nearest : Option ℕ) (dirs : List (Option α)) :
    walk test i nearest dirs = ((dirs.findIdx? fun dir => dir.any test).map (· + i)).or
      (nearest.or ((dirs.findIdx? Option.isSome).map (· + i))) := by
  induction dirs generalizing i nearest with
  | nil => simp [walk]
  | cons dir dirs ih =>
    rw [List.findIdx?_cons, List.findIdx?_cons]
    cases dir with
    | none =>
      rw [walk, ih]
      simp [Function.comp_def, Nat.add_assoc, Nat.add_comm 1]
    | some a =>
      rw [walk]
      by_cases htest : test a = true
      · simp [htest]
      · rw [if_neg htest, ih]
        simp [Function.comp_def, Nat.add_assoc, Nat.add_comm 1, htest]

/-- The index at which a search ends is that of the nearest directory of the kind. -/
theorem findIdx?_eq_some_iff_nearest {kind : Option α → Bool} {dirs : List (Option α)} {r : ℕ} :
    dirs.findIdx? kind = some r ↔ Nearest (fun dir => kind dir = true) dirs r := by
  rw [List.findIdx?_eq_some_iff_getElem]
  constructor
  · rintro ⟨hlt, hkind, hnearer⟩
    refine ⟨⟨dirs[r], List.getElem?_eq_getElem hlt, hkind⟩, fun j hj dir hdir => ?_⟩
    obtain ⟨hjlt, heq⟩ := List.getElem?_eq_some_iff.mp hdir
    rw [← heq]
    exact hnearer j hj
  · rintro ⟨⟨dir, hdir, hkind⟩, hnearer⟩
    obtain ⟨hlt, heq⟩ := List.getElem?_eq_some_iff.mp hdir
    refine ⟨hlt, by rw [heq]; exact hkind, fun j hj => ?_⟩
    exact hnearer j hj _ (List.getElem?_eq_getElem (hj.trans hlt))

/-- A walk ends at the root. -/
theorem walk_eq_some_iff (test : α → Bool) (dirs : List (Option α)) (r : ℕ) :
    walk test 0 none dirs = some r ↔ IsRoot (fun a => test a = true) dirs r := by
  have hany (dir : Option α) : dir.any test = true ↔ ∃ a, dir = some a ∧ test a = true := by
    cases dir <;> simp
  have hfirst : (fun dir : Option α => dir.any test = true) =
      fun dir => ∃ a, dir = some a ∧ test a = true := funext fun dir => propext (hany dir)
  rw [walk_eq]
  unfold IsRoot
  rw [← hfirst, ← findIdx?_eq_some_iff_nearest, ← findIdx?_eq_some_iff_nearest]
  simp only [Nat.add_zero, Option.map_id', Option.none_or]
  cases hsearch : dirs.findIdx? fun dir => dir.any test with
  | some k =>
    rw [Option.some_or]
    constructor
    · exact .inl
    · rintro (h | ⟨hnever, -⟩)
      · exact h
      · obtain ⟨⟨dir, hdir, hk⟩, -⟩ := findIdx?_eq_some_iff_nearest.mp hsearch
        obtain ⟨a, rfl, ha⟩ := (hany dir).mp hk
        exact absurd ha (hnever a (List.mem_of_getElem? hdir))
  | none =>
    rw [Option.none_or]
    constructor
    · refine fun h => .inr ⟨fun a ha htest => ?_, h⟩
      have := List.findIdx?_eq_none_iff.mp hsearch (some a) ha
      rw [(hany (some a)).mpr ⟨a, rfl, htest⟩] at this
      cases this
    · rintro (h | ⟨-, h⟩)
      · cases h
      · exact h

/-- A walk over what is read from the manifests. -/
theorem walk_map {β : Type} (test : β → Bool) (f : α → β) (i : ℕ) (nearest : Option ℕ)
    (dirs : List (Option α)) :
    walk test i nearest (dirs.map (·.map f)) = walk (fun a => test (f a)) i nearest dirs := by
  induction dirs generalizing i nearest with
  | nil => rfl
  | cons dir dirs ih =>
    cases dir with
    | none => exact ih (i + 1) nearest
    | some a =>
      rw [List.map_cons, Option.map_some, walk, walk, ih]

/-- A root has a manifest. -/
theorem exists_of_isRoot {workspace : α → Prop} {dirs : List (Option α)} {r : ℕ}
    (hroot : IsRoot workspace dirs r) : ∃ a, dirs[r]? = some (some a) := by
  rcases hroot with ⟨⟨dir, hdir, a, rfl, -⟩, -⟩ | ⟨-, ⟨dir, hdir, hsome⟩, -⟩
  · exact ⟨a, hdir⟩
  · obtain ⟨a, rfl⟩ := Option.isSome_iff_exists.mp hsome
    exact ⟨a, hdir⟩

/-- A walk past a manifest ends somewhere. -/
theorem exists_walk (test : α → Bool) {dirs : List (Option α)} {a : α} (ha : some a ∈ dirs) :
    ∃ r, walk test 0 none dirs = some r := by
  rw [walk_eq]
  cases dirs.findIdx? fun dir => dir.any test with
  | some k => exact ⟨k, rfl⟩
  | none =>
    cases hsome : dirs.findIdx? Option.isSome with
    | some k => exact ⟨k, rfl⟩
    | none => exact absurd (List.findIdx?_eq_none_iff.mp hsome (some a) ha) nofun

/-- What counts as a workspace decides the root. -/
theorem isRoot_congr {p q : α → Prop} {dirs : List (Option α)}
    (hsame : ∀ a, some a ∈ dirs → (p a ↔ q a)) (r : ℕ) : IsRoot p dirs r ↔ IsRoot q dirs r := by
  have hkind (j : ℕ) (dir : Option α) (hdir : dirs[j]? = some dir) :
      (∃ a, dir = some a ∧ p a) ↔ ∃ a, dir = some a ∧ q a := by
    refine exists_congr fun a => and_congr_right fun ha => hsame a ?_
    rw [← ha]
    exact List.mem_of_getElem? hdir
  unfold IsRoot Nearest
  refine or_congr (and_congr ?_ ?_) (and_congr_left' ?_)
  · exact exists_congr fun dir => and_congr_right (hkind r dir)
  · refine forall_congr' fun j => imp_congr_right fun _ => forall_congr' fun dir => ?_
    exact imp_congr_right fun hdir => not_congr (hkind j dir hdir)
  · exact forall_congr' fun a => imp_congr_right fun ha => not_congr (hsame a ha)

/-- The root by what is nearer and what is there: no manifest that is nearer is that of a
workspace, and that of the directory is, or it is the nearest one and none is. -/
theorem isRoot_iff {workspace : α → Prop} {dirs : List (Option α)} {r : ℕ} {a : α}
    (ha : dirs[r]? = some (some a)) :
    IsRoot workspace dirs r ↔
      (∀ j < r, ∀ b, dirs[j]? = some (some b) → ¬ workspace b) ∧
        (workspace a ∨ (∀ j < r, dirs[j]? = some none) ∧ ∀ b, some b ∈ dirs → ¬ workspace b) := by
  constructor
  · rintro (⟨⟨dir, hdir, b, rfl, hb⟩, hnearer⟩ | ⟨hnever, ⟨dir, hdir, -⟩, hnearer⟩)
    · rw [ha] at hdir
      cases hdir
      exact ⟨fun j hj c hc hworkspace => hnearer j hj _ hc ⟨c, rfl, hworkspace⟩, .inl hb⟩
    · refine ⟨fun j hj c hc => hnever c (List.mem_of_getElem? hc), .inr ⟨fun j hj => ?_, hnever⟩⟩
      have hlt : j < dirs.length := hj.trans (List.getElem?_eq_some_iff.mp hdir).1
      have hj' : dirs[j]? = some dirs[j] := List.getElem?_eq_getElem hlt
      rw [hj', Option.not_isSome_iff_eq_none.mp (hnearer j hj _ hj')]
  · rintro ⟨hnearer, hhere⟩
    rcases hhere with hworkspace | ⟨hnone, hnever⟩
    · refine .inl ⟨⟨_, ha, a, rfl, hworkspace⟩, ?_⟩
      rintro j hj dir hdir ⟨b, rfl, hb⟩
      exact hnearer j hj b hdir hb
    · refine .inr ⟨hnever, ⟨_, ha, rfl⟩, fun j hj dir hdir hsome => ?_⟩
      rw [hnone j hj] at hdir
      cases hdir
      cases hsome

/-- Nothing nearer than the root is a workspace. -/
theorem not_workspace_of_isRoot {workspace : α → Prop} {dirs : List (Option α)} {r : ℕ}
    (hroot : IsRoot workspace dirs r) :
    ∀ j < r, ∀ b, dirs[j]? = some (some b) → ¬ workspace b := by
  obtain ⟨a, ha⟩ := exists_of_isRoot hroot
  exact ((isRoot_iff ha).mp hroot).1

/-- The fragment `[workspace]` stands where it leads to the root: no manifest that is nearer has
it in a comment, a string or another place that is no header of the table; that of the root has
it, as the header or elsewhere, or it is the nearest manifest and none has it at all. -/
structure MentionedAt (docs : List (Option Document)) (r : ℕ) : Prop where
  /-- In no nearer manifest does the fragment stand by chance. -/
  nearer : ∀ j < r, ∀ doc, docs[j]? = some (some doc) → ¬ MentionsWrongly doc
  /-- It stands in that of the root, or the nearest one is left. -/
  here : (∃ doc, docs[r]? = some (some doc) ∧ (MentionsPlainly doc ∨ MentionsWrongly doc)) ∨
    (∀ j < r, docs[j]? = some none) ∧
      ∀ doc, some doc ∈ docs → ¬ MentionsPlainly doc ∧ ¬ MentionsWrongly doc

/-- The facade finds the root exactly if the fragment leads there. -/
theorem isRoot_mentions_iff {docs : List (Option Document)} {r : ℕ}
    (hroot : IsRoot (fun doc => doc.HasTable ["workspace".toList]) docs r) :
    IsRoot (fun doc => mentionsWorkspace doc.text = true) docs r ↔ MentionedAt docs r := by
  obtain ⟨doc, hdoc⟩ := exists_of_isRoot hroot
  rw [isRoot_iff hdoc]
  simp only [mentionsWorkspace_iff]
  constructor
  · rintro ⟨hnearer, hhere⟩
    refine ⟨fun j hj other hother hwrongly => hnearer j hj other hother (.inr hwrongly), ?_⟩
    rcases hhere with hmentions | ⟨hnone, hnever⟩
    · exact .inl ⟨doc, hdoc, hmentions⟩
    · exact .inr ⟨hnone, fun other hother => not_or.mp (hnever other hother)⟩
  · rintro ⟨hnearer, hhere⟩
    constructor
    · rintro j hj other hother (hplain | hwrongly)
      · exact not_workspace_of_isRoot hroot j hj other hother (hasTable_of_mentionsPlainly hplain)
      · exact hnearer j hj other hother hwrongly
    · rcases hhere with ⟨other, hother, hmentions⟩ | ⟨hnone, hnever⟩
      · rw [hdoc] at hother
        cases hother
        exact .inl hmentions
      · exact .inr ⟨hnone, fun other hother => not_or.mpr (hnever other hother)⟩

/-! ### The scanners and the documents -/

/-- The manifests of directories that have documents. -/
def files (docs : List (Option Document)) : List ManifestFile :=
  (docs.map (·.map Document.text)).map (·.map some)

/-- `package`. -/
def packageTable : NamePath := ["package".toList]

/-- `profile.release`. -/
def releaseTable : NamePath := ["profile".toList, "release".toList]

/-- `workspace`. -/
def workspacePath : NamePath := ["workspace".toList]

/-- `package.name`. -/
def namePath : NamePath := ["package".toList, "name".toList]

/-- `profile.release.panic`. -/
def panicPath : NamePath := ["profile".toList, "release".toList, "panic".toList]

/-- The scanners agree with the documents of a chain of directories. -/
structure Agrees (docs : List (Option Document)) : Prop where
  /-- A workspace is declared exactly if the document has the table. -/
  workspace : ∀ doc, some doc ∈ docs →
    (declaresWorkspace doc.text = true ↔ doc.HasTable workspacePath)
  /-- The package name is that of the document. -/
  name : ∀ doc, some doc ∈ docs → packageNameInManifest doc.text = doc.string namePath
  /-- The panic strategy is that of the document. -/
  panic : ∀ doc, some doc ∈ docs → releaseProfilePanic doc.text = doc.string panicPath
  /-- The CLI and the facade find the root. -/
  root : ∀ r, IsRoot (fun doc => doc.HasTable workspacePath) docs r →
    workspaceRoot (files docs) = .ok r ∧ discoverLocalRoot none (files docs) = .ancestor r

/-- The documents are written the way in which the scanners read them. -/
structure WrittenForScan (docs : List (Option Document)) : Prop where
  /-- Workspace tables are recognized by their headers. -/
  workspace : ∀ doc, some doc ∈ docs → DeclaresRight doc
  /-- The package name stands plainly below the header of its table. -/
  name : ∀ doc, some doc ∈ docs → ReadsRight packageName packageTable doc
  /-- The panic strategy stands plainly below the header of its table. -/
  panic : ∀ doc, some doc ∈ docs → ReadsRight releasePanic releaseTable doc
  /-- The fragment `[workspace]` leads to the root. -/
  root : ∀ r, IsRoot (fun doc => doc.HasTable workspacePath) docs r → MentionedAt docs r

/-- A name may be a bare key if it consists of such characters. -/
theorem isBareName {name : Text} (hne : name ≠ []) (hbare : name.all isBare = true) :
    IsBareName name := ⟨hne, List.all_eq_true.mp hbare⟩

/-- `package_name_in_manifest` looks for `name` in `package`. -/
theorem packageName_seeks : packageName.Seeks packageTable where
  header := rfl
  path := List.cons_ne_nil _ _
  names := by
    intro name hname
    rw [List.mem_singleton.mp hname]
    exact isBareName (by decide) (by decide)
  key := isBareName (by decide) (by decide)

/-- `release_profile_panic` looks for `panic` in `profile.release`. -/
theorem releasePanic_seeks : releasePanic.Seeks releaseTable where
  header := rfl
  path := List.cons_ne_nil _ _
  names := by
    intro name hname
    rcases List.mem_cons.mp hname with rfl | hname
    · exact isBareName (by decide) (by decide)
    · rw [List.mem_singleton.mp hname]
      exact isBareName (by decide) (by decide)
  key := isBareName (by decide) (by decide)

/-- What the CLI finds. -/
theorem workspaceRoot_files (docs : List (Option Document)) (r : ℕ) :
    workspaceRoot (files docs) = .ok r ↔
      IsRoot (fun doc => declaresWorkspace doc.text = true) docs r := by
  unfold workspaceRoot files
  rw [workspaceRootFrom_eq_walk, walk_map, ← walk_eq_some_iff]
  cases walk (fun doc : Document => declaresWorkspace doc.text) 0 none docs with
  | none => simp
  | some k => simp

/-- What the facade finds where there is a manifest. -/
theorem discoverLocalRoot_files {docs : List (Option Document)} {doc : Document}
    (hdoc : some doc ∈ docs) (r : ℕ) :
    discoverLocalRoot none (files docs) = .ancestor r ↔
      IsRoot (fun doc => mentionsWorkspace doc.text = true) docs r := by
  unfold discoverLocalRoot files
  rw [discoverFrom_eq_walk, walk_map, ← walk_eq_some_iff]
  obtain ⟨k, hk⟩ := exists_walk (fun doc => mentionsWorkspace doc.text) hdoc
  rw [hk]
  simp

/-- A bare key. -/
def bareKey (name : Text) (hne : name ≠ []) (hbare : name.all isBare = true) : KeyPart :=
  .bare name ⟨hne, List.all_eq_true.mp hbare⟩

/-- `[profile.release] # fast` and `panic = "abort"`. -/
def commentedHeader : Document where
  ended := [(⟨.none, .header ⟨false, .none, ⟨bareKey "profile".toList (by decide) (by decide),
    [(.none, .none, bareKey "release".toList (by decide) (by decide))]⟩, .none⟩, .space,
    some ⟨" fast".toList, forall_mem_of_all (by decide)⟩⟩, .lf)]
  last := ⟨.none, .keyval ⟨bareKey "panic".toList (by decide) (by decide), []⟩ .space .space
    (.string (.plain "abort".toList (forall_mem_of_all (by decide))
      (forall_mem_of_all (by decide)))), .none, none⟩

/-- Its text. -/
example : commentedHeader.text = "[profile.release] # fast\npanic = \"abort\"".toList := by
  decide +kernel

end ModalRust.Cli.ManifestScan
