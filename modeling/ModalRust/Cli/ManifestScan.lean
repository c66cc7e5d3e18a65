import ModalRust.TomlSyntax

/-!
# Scanning manifests

The CLI and the facade look for workspace tables, for the package name and for the panic strategy
of the release profile without a TOML parser: they look at the lines of a manifest, or for a
fragment of its text. The scanners are compared with what the document means.
-/

namespace ModalRust.Cli.ManifestScan

open TomlSyntax

/-! ### The scanners -/

/-- Whether a line begins like the header of a workspace table. -/
def opensWorkspace (line : Text) : Bool :=
  "[workspace]".toList.isPrefixOf line || "[workspace.".toList.isPrefixOf line

/-- `declares_workspace`. -/
def declaresWorkspace (text : Text) : Bool := ((lines text).map trim).any opensWorkspace

/-- The test of `discover_local_root`. -/
def mentionsWorkspace (text : Text) : Bool := containsText "[workspace]".toList text

/-- Whether a line is taken for a header. -/
def isHeader (line : Text) : Bool := line.head? == some '[' && line.getLast? == some ']'

/-- A quote of either kind. -/
def isQuote (c : Char) : Bool := c == '"' || c == '\x27'

/-- `trim_matches` of the quotes. -/
def trimQuotes (t : Text) : Text := (t.dropWhile isQuote).rdropWhile isQuote

/-- What a line is taken to assign to a key. -/
def assigned (key line : Text) : Option Text :=
  (key.isPrefixOf? line).bind fun rest =>
    (['='].isPrefixOf? (rest.dropWhile isWhitespace)).map fun value => trimQuotes (trim value)

/-- What a scanner looks for. -/
structure Wanted where
  /-- The header of the table. -/
  header : Text
  /-- The key. -/
  key : Text
  /-- Whether a value that is empty is passed over. -/
  skipsEmpty : Bool

/-- What a line is taken to assign, if it is wanted. -/
def Wanted.value (wanted : Wanted) (line : Text) : Option Text :=
  (assigned wanted.key line).filter fun v => !(wanted.skipsEmpty && v.isEmpty)

/-- The scan of trimmed lines, inside the table or outside of it. -/
def scan (wanted : Wanted) : Bool → List Text → Option Text
  | _, [] => none
  | inTable, line :: rest =>
    if isHeader line then scan wanted (line == wanted.header) rest
    else if inTable then (wanted.value line).or (scan wanted inTable rest)
    else scan wanted inTable rest

/-- What `package_name_in_manifest` looks for. -/
def packageName : Wanted := ⟨"[package]".toList, "name".toList, true⟩

/-- What `release_profile_panic` looks for. -/
def releasePanic : Wanted := ⟨"[profile.release]".toList, "panic".toList, false⟩

/-- `package_name_in_manifest`. -/
def packageNameInManifest (text : Text) : Option Text :=
  scan packageName false ((lines text).map trim)

/-- `release_profile_panic`. -/
def releaseProfilePanic (text : Text) : Option Text :=
  scan releasePanic false ((lines text).map trim)

/-! ### Looking for the root -/

/-- The manifest of a directory: there may be none, or one that cannot be read. -/
abbrev ManifestFile := Option (Option Text)

/-- Why no workspace root is found. -/
inductive RootError
  /-- The manifest of a directory cannot be read. -/
  | unreadable (i : ℕ)
  /-- There is no manifest. -/
  | notFound
  deriving DecidableEq

/-- The loop of `workspace_root`. A directory is known by its distance from the start. -/
def workspaceRootFrom : ℕ → Option ℕ → List ManifestFile → Except RootError ℕ
  | _, nearest, [] => nearest.elim (.error .notFound) .ok
  | i, nearest, none :: dirs => workspaceRootFrom (i + 1) nearest dirs
  | i, _, some none :: _ => .error (.unreadable i)
  | i, nearest, some (some text) :: dirs =>
    if declaresWorkspace text then .ok i
    else workspaceRootFrom (i + 1) (nearest.or (some i)) dirs

/-- `workspace_root`, on the manifests of a directory and of its ancestors. -/
def workspaceRoot (dirs : List ManifestFile) : Except RootError ℕ := workspaceRootFrom 0 none dirs

/-- What is uploaded. -/
inductive LocalRoot
  /-- The directory of the environment variable. -/
  | given (dir : Text)
  /-- The working directory or an ancestor, by its distance. -/
  | ancestor (i : ℕ)
  deriving DecidableEq

/-- The loop of `discover_local_root`. -/
def discoverFrom : ℕ → Option ℕ → List ManifestFile → ℕ
  | _, nearest, [] => nearest.getD 0
  | i, nearest, none :: dirs => discoverFrom (i + 1) nearest dirs
  | i, nearest, some content :: dirs =>
    if content.any mentionsWorkspace then i else discoverFrom (i + 1) (nearest.or (some i)) dirs

/-- `discover_local_root`, where the variable may be set. -/
def discoverLocalRoot (sourceDir : Option Text) (dirs : List ManifestFile) : LocalRoot :=
  match sourceDir with
  | some dir => .given dir
  | none => .ancestor (discoverFrom 0 none dirs)

/-! ### What a scan takes -/

/-- Whether the scan is inside the table behind lines. -/
def inside (wanted : Wanted) (inTable : Bool) (before : List Text) : Bool :=
  ((before.filter isHeader).getLast?.map (· == wanted.header)).getD inTable

/-- The scan takes a line for the assignment if it comes to it: the line is no header, the last
line above it that looks like a header is that of the table, and it reads as an assignment. -/
structure Takes (wanted : Wanted) (inTable : Bool) (ls : List Text) (i : ℕ) (v : Text) : Prop where
  /-- The last header above is that of the table. -/
  inside : inside wanted inTable (ls.take i) = true
  /-- The line reads as an assignment. -/
  reads : ∃ line, ls[i]? = some line ∧ isHeader line = false ∧ wanted.value line = some v

/-- The scan takes a line, and no line above it. -/
def TakesFirst (wanted : Wanted) (inTable : Bool) (ls : List Text) (i : ℕ) (v : Text) : Prop :=
  Takes wanted inTable ls i v ∧ ∀ j < i, ∀ w, ¬ Takes wanted inTable ls j w

/-- A line puts the scan inside of the table or outside of it, or leaves it where it is. -/
theorem inside_cons (wanted : Wanted) (inTable : Bool) (line : Text) (before : List Text) :
    inside wanted inTable (line :: before) =
      inside wanted (if isHeader line then line == wanted.header else inTable) before := by
  unfold inside
  by_cases hheader : isHeader line = true
  · rw [List.filter_cons_of_pos hheader, if_pos hheader]
    cases hlast : (before.filter isHeader).getLast? with
    | none =>
      rw [List.getLast?_eq_none_iff.mp hlast]
      rfl
    | some last => rw [List.getLast?_cons, hlast]; rfl
  · rw [List.filter_cons_of_neg hheader, if_neg hheader]

/-- The first line. -/
theorem takes_zero (wanted : Wanted) (inTable : Bool) (line : Text) (ls : List Text) (v : Text) :
    Takes wanted inTable (line :: ls) 0 v ↔
      inTable = true ∧ isHeader line = false ∧ wanted.value line = some v := by
  constructor
  · rintro ⟨hinside, line', hline, hheader, hvalue⟩
    cases hline
    exact ⟨hinside, hheader, hvalue⟩
  · rintro ⟨hinside, hheader, hvalue⟩
    exact ⟨hinside, line, rfl, hheader, hvalue⟩

/-- The other lines. -/
theorem takes_succ (wanted : Wanted) (inTable : Bool) (line : Text) (ls : List Text) (i : ℕ)
    (v : Text) :
    Takes wanted inTable (line :: ls) (i + 1) v ↔
      Takes wanted (if isHeader line then line == wanted.header else inTable) ls i v := by
  constructor
  · rintro ⟨hinside, hreads⟩
    rw [List.take_succ_cons, inside_cons] at hinside
    exact ⟨hinside, hreads⟩
  · rintro ⟨hinside, hreads⟩
    refine ⟨?_, hreads⟩
    rw [List.take_succ_cons, inside_cons]
    exact hinside

/-- If the first line is not taken, the first line that is taken is one of the others. -/
theorem takesFirst_cons {wanted : Wanted} {inTable : Bool} {line : Text} {ls : List Text}
    (hline : ∀ w, ¬ Takes wanted inTable (line :: ls) 0 w) (v : Text) :
    (∃ i, TakesFirst wanted inTable (line :: ls) i v) ↔
      ∃ i, TakesFirst wanted (if isHeader line then line == wanted.header else inTable) ls i v := by
  constructor
  · rintro ⟨i, htakes, hfirst⟩
    cases i with
    | zero => exact absurd htakes (hline v)
    | succ i =>
      refine ⟨i, (takes_succ ..).mp htakes, fun j hj w hw => ?_⟩
      exact hfirst (j + 1) (by omega) w ((takes_succ ..).mpr hw)
  · rintro ⟨i, htakes, hfirst⟩
    refine ⟨i + 1, (takes_succ ..).mpr htakes, fun j hj w hw => ?_⟩
    cases j with
    | zero => exact hline w hw
    | succ j => exact hfirst j (by omega) w ((takes_succ ..).mp hw)

/-- A scan returns what the first line that it takes assigns. -/
theorem scan_eq_some_iff (wanted : Wanted) (inTable : Bool) (ls : List Text) (v : Text) :
    scan wanted inTable ls = some v ↔ ∃ i, TakesFirst wanted inTable ls i v := by
  induction ls generalizing inTable with
  | nil =>
    constructor
    · nofun
    · rintro ⟨i, ⟨-, line, hline, -⟩, -⟩
      cases hline
  | cons line ls ih =>
    unfold scan
    by_cases hheader : isHeader line = true
    · rw [if_pos hheader, ih, takesFirst_cons, if_pos hheader]
      rintro w hw
      rw [takes_zero, hheader] at hw
      exact absurd hw.2.1 nofun
    · rw [if_neg hheader]
      cases inTable with
      | false =>
        rw [if_neg Bool.false_ne_true, ih, takesFirst_cons, if_neg hheader]
        rintro w hw
        rw [takes_zero] at hw
        exact absurd hw.1 nofun
      | true =>
        rw [if_pos rfl]
        cases hvalue : wanted.value line with
        | none =>
          rw [Option.none_or, ih, takesFirst_cons, if_neg hheader]
          rintro w hw
          rw [takes_zero, hvalue] at hw
          exact absurd hw.2.2 nofun
        | some u =>
          have htakes (w : Text) : Takes wanted true (line :: ls) 0 w ↔ u = w := by
            rw [takes_zero, hvalue, Option.some_inj]
            exact ⟨fun h => h.2.2, fun h => ⟨rfl, Bool.eq_false_iff.mpr hheader, h⟩⟩
          rw [Option.some_or, Option.some_inj]
          constructor
          · rintro rfl
            exact ⟨0, (htakes u).mpr rfl, nofun⟩
          · rintro ⟨i, hi, hfirst⟩
            cases i with
            | zero => exact (htakes v).mp hi
            | succ i => exact absurd ((htakes u).mpr rfl) (hfirst 0 (by omega) u)

/-- An empty line assigns nothing. -/
theorem value_nil {wanted : Wanted} (hkey : wanted.key ≠ []) : wanted.value [] = none := by
  obtain ⟨c, key, hcons⟩ := List.exists_cons_of_ne_nil hkey
  unfold Wanted.value assigned
  rw [hcons]
  rfl

/-- An empty line at the end does not change what is found. -/
theorem scan_append_nil {wanted : Wanted} (hkey : wanted.key ≠ []) (inTable : Bool)
    (ls : List Text) : scan wanted inTable (ls ++ [[]]) = scan wanted inTable ls := by
  induction ls generalizing inTable with
  | nil =>
    have hheader : isHeader [] = false := by decide
    cases inTable <;> simp [scan, hheader, value_nil hkey]
  | cons line ls ih =>
    rw [List.cons_append, scan, scan, ih, ih]

/-- A scan of a document sees the lines of its expressions. -/
theorem scan_document {wanted : Wanted} (hkey : wanted.key ≠ []) (doc : Document) :
    scan wanted false ((lines doc.text).map trim) = scan wanted false doc.lines := by
  rw [← doc.map_trim_betweenFeeds]
  rcases map_trim_betweenFeeds doc.text with h | h
  · rw [h]
  · rw [h, scan_append_nil hkey]

/-- So does the search for a workspace table. -/
theorem declaresWorkspace_document (doc : Document) :
    declaresWorkspace doc.text = doc.lines.any opensWorkspace := by
  unfold declaresWorkspace
  rw [← doc.map_trim_betweenFeeds]
  rcases map_trim_betweenFeeds doc.text with h | h
  · rw [h]
  · rw [h, List.any_append]
    simp [opensWorkspace]

/-! ### What a manifest says on its lines -/

/-- What the header of a workspace table looks like to the scan: nothing before the first key, the
key is bare, and the dot or the bracket is right behind it. -/
def OpensPlainly (h : Header) : Prop :=
  h.array = false ∧ h.before.text = [] ∧
    (∃ legal, h.key.first = .bare "workspace".toList legal) ∧
    match h.key.rest with
    | [] => h.after.text = []
    | (blank, _, _) :: _ => blank.text = []

/-- A document has a plainly written header of a workspace table, and no array of them. -/
def DeclaresPlainly (doc : Document) : Prop :=
  ["workspace".toList] ∉ doc.arrays ∧
    ∃ e ∈ doc.exprs, ∃ h, e.content = .header h ∧ OpensPlainly h

/-- A line looks like the header of a workspace table without being one: it continues a value, or
belongs to an array of tables. -/
def DeclaresWrongly (doc : Document) : Prop :=
  (∃ e ∈ doc.exprs, ∃ line ∈ e.lines.tail, opensWorkspace line = true) ∨
    ["workspace".toList] ∈ doc.arrays ∧
      ∃ e ∈ doc.exprs, ∃ h, e.content = .header h ∧ OpensPlainly h

/-- A visible first character stays in place. -/
theorem exists_trim_cons {c : Char} (hc : isWhitespace c = false) (t : Text) :
    ∃ t', trim (c :: t) = c :: t' ∧ t' <+: t := by
  have hbegins : trim (c :: t) <+: c :: t := by
    unfold trim
    rw [List.dropWhile_cons_of_neg (by simp [hc])]
    exact List.rdropWhile_prefix _ _
  cases htrim : trim (c :: t) with
  | nil =>
    unfold trim at htrim
    rw [List.dropWhile_cons_of_neg (by simp [hc]), List.rdropWhile_eq_nil_iff] at htrim
    have := htrim c List.mem_cons_self
    rw [hc] at this
    cases this
  | cons d t' =>
    rw [htrim, List.cons_prefix_cons] at hbegins
    exact ⟨t', by rw [hbegins.1], hbegins.2⟩

/-- What ends visibly is not trimmed. -/
theorem isPrefix_rdropWhile {d : Char} (hd : isWhitespace d = false) (p rest : Text) :
    p ++ [d] <+: (p ++ [d] ++ rest).rdropWhile isWhitespace := by
  induction rest using List.reverseRecOn with
  | nil =>
    have hkept : (p ++ [d]).rdropWhile isWhitespace = p ++ [d] :=
      List.rdropWhile_concat_neg _ _ _ (by simp [hd])
    rw [List.append_nil]
    exact ⟨[], by rw [hkept, List.append_nil]⟩
  | append_singleton rest e ih =>
    rw [← List.append_assoc]
    by_cases he : isWhitespace e = true
    · rw [List.rdropWhile_concat_pos _ _ _ he]
      exact ih
    · rw [List.rdropWhile_concat_neg _ _ _ he, List.append_assoc (p ++ [d])]
      exact List.prefix_append _ _

/-- Trimming does not change whether a text begins with one that ends visibly. -/
theorem isPrefix_trim_iff {c d : Char} (hc : isWhitespace c = false) (hd : isWhitespace d = false)
    (p t : Text) : p ++ [d] <+: trim (c :: t) ↔ p ++ [d] <+: c :: t := by
  unfold trim
  rw [List.dropWhile_cons_of_neg (by simp [hc])]
  constructor
  · exact fun h => h.trans (List.rdropWhile_prefix _ _)
  · rintro ⟨rest, hrest⟩
    rw [← hrest]
    exact isPrefix_rdropWhile hd p rest

/-- Where a text of bare characters ends in front of another one. -/
theorem isPrefix_bare_iff {p name tail : Text} {d : Char} (hp : ∀ c ∈ p, isBare c = true)
    (hname : ∀ c ∈ name, isBare c = true) (hd : isBare d = false)
    (htail : ∀ c, tail.head? = some c → isBare c = false) :
    p ++ [d] <+: name ++ tail ↔ name = p ∧ tail.head? = some d := by
  induction p generalizing name with
  | nil =>
    cases name with
    | nil => simp [List.singleton_prefix_iff_head?_eq_some]
    | cons b name =>
      have hb : isBare b = true := hname b List.mem_cons_self
      rw [List.nil_append, List.cons_append, List.cons_prefix_cons]
      constructor
      · rintro ⟨rfl, -⟩
        rw [hd] at hb
        cases hb
      · rintro ⟨h, -⟩
        cases h
  | cons a p ih =>
    have ha : isBare a = true := hp a List.mem_cons_self
    cases name with
    | nil =>
      constructor
      · rintro ⟨rest, hrest⟩
        have := htail a (by rw [← List.nil_append tail, ← hrest]; rfl)
        rw [ha] at this
        cases this
      · rintro ⟨h, -⟩
        cases h
    | cons b name =>
      rw [List.cons_append, List.cons_append, List.cons_prefix_cons,
        ih (fun c hc => hp c (List.mem_cons_of_mem _ hc))
          (fun c hc => hname c (List.mem_cons_of_mem _ hc)), List.cons_eq_cons]
      tauto

/-- A blank in front of another character. -/
theorem head?_blank_append (blank : Blank) {c d : Char} (tail : Text) (hc : isBare c = false)
    (hd : isWhitespace d = false) :
    (∀ e, (blank.text ++ c :: tail).head? = some e → isBare e = false) ∧
      ((blank.text ++ c :: tail).head? = some d ↔ blank.text = [] ∧ c = d) := by
  obtain ⟨text, legal⟩ := blank
  cases text with
  | nil => simpa using hc
  | cons b text =>
    have hb := legal b List.mem_cons_self
    constructor
    · intro e he
      rw [← Option.some.inj he]
      rcases hb with rfl | rfl <;> decide
    · constructor
      · intro h
        rw [← Option.some.inj h] at hd
        rcases hb with rfl | rfl <;> exact absurd hd (by decide)
      · rintro ⟨h, -⟩
        cases h

/-- What is behind the first part of a key in a header. -/
def Header.behind (h : Header) (rest : Text) : Text :=
  (h.key.rest.flatMap fun (before, after, part) =>
    before.text ++ '.' :: after.text ++ part.text) ++ h.after.text ++ ']' :: rest

/-- It begins with a dot or a bracket, or with a blank. -/
theorem head?_behind (h : Header) (rest : Text) {d : Char} (hd : isWhitespace d = false) :
    (∀ c, (Header.behind h rest).head? = some c → isBare c = false) ∧
      ((Header.behind h rest).head? = some d ↔
        match h.key.rest with
        | [] => h.after.text = [] ∧ ']' = d
        | (blank, _, _) :: _ => blank.text = [] ∧ '.' = d) := by
  unfold Header.behind
  cases h.key.rest with
  | nil => exact head?_blank_append h.after rest (by decide) hd
  | cons entry more =>
    obtain ⟨blank, after, part⟩ := entry
    rw [List.flatMap_cons]
    simp only [List.append_assoc, List.cons_append]
    exact head?_blank_append blank _ (by decide) hd

/-- The header of a workspace table as the scan expects it. -/
theorem opens_iff (h : Header) (rest : Text) {d : Char} (hd : isBare d = false)
    (hwhite : isWhitespace d = false) (harray : h.array = false) :
    "[workspace".toList ++ [d] <+: h.text ++ rest ↔
      h.before.text = [] ∧ (∃ legal, h.key.first = .bare "workspace".toList legal) ∧
        (Header.behind h rest).head? = some d := by
  have htext : h.text ++ rest =
      '[' :: (h.before.text ++ (h.key.first.text ++ Header.behind h rest)) := by
    unfold Header.text Key.text Header.behind
    rw [harray]
    simp
  have hword : "[workspace".toList ++ [d] = '[' :: ("workspace".toList ++ [d]) := rfl
  rw [htext, hword, List.cons_prefix_cons]
  obtain ⟨hbare, -⟩ := head?_behind h rest hwhite
  have hname : ∀ c ∈ "workspace".toList, isBare c = true := forall_mem_of_all (by decide)
  cases hbefore : h.before.text with
  | cons b before =>
    have hb := h.before.legal b (by rw [hbefore]; exact List.mem_cons_self)
    constructor
    · rintro ⟨-, hbegins⟩
      change 'w' :: _ <+: b :: _ at hbegins
      rw [List.cons_prefix_cons] at hbegins
      rcases hb with rfl | rfl <;> exact absurd hbegins.1 (by decide)
    · rintro ⟨hnil, -⟩
      cases hnil
  | nil =>
    rw [List.nil_append]
    cases hfirst : h.key.first with
    | quoted s legal =>
      constructor
      · rintro ⟨-, hbegins⟩
        obtain ⟨t, ht⟩ := s.exists_text
        rw [KeyPart.text, ht] at hbegins
        change 'w' :: _ <+: s.kind.mark :: _ at hbegins
        rw [List.cons_prefix_cons] at hbegins
        exact absurd hbegins.1 (by cases s.kind <;> decide)
      · rintro ⟨-, ⟨legal', hbare'⟩, -⟩
        cases hbare'
    | bare name legal =>
      change _ ∧ _ <+: name ++ _ ↔ _
      rw [isPrefix_bare_iff hname legal.2 hd hbare]
      constructor
      · rintro ⟨-, rfl, hhead⟩
        exact ⟨rfl, ⟨legal, rfl⟩, hhead⟩
      · rintro ⟨-, ⟨legal', hbare'⟩, hhead⟩
        cases hbare'
        exact ⟨rfl, rfl, hhead⟩

/-- The line of a header is taken for that of a workspace table if it is written plainly. -/
theorem opensWorkspace_header (h : Header) (rest : Text) :
    opensWorkspace (trim (h.text ++ rest)) = true ↔ OpensPlainly h := by
  have hcons : ∃ t, h.text ++ rest = '[' :: t := by
    unfold Header.text
    cases h.array <;> exact ⟨_, rfl⟩
  obtain ⟨t, ht⟩ := hcons
  have hword (d : Char) (hd : isWhitespace d = false) :
      "[workspace".toList ++ [d] <+: trim (h.text ++ rest) ↔
        "[workspace".toList ++ [d] <+: h.text ++ rest := by
    rw [ht]
    exact isPrefix_trim_iff (by decide) hd _ _
  unfold opensWorkspace
  rw [Bool.or_eq_true, List.isPrefixOf_iff_prefix, List.isPrefixOf_iff_prefix]
  change "[workspace".toList ++ [']'] <+: _ ∨ "[workspace".toList ++ ['.'] <+: _ ↔ _
  rw [hword ']' (by decide), hword '.' (by decide)]
  cases harray : h.array with
  | true =>
    have hno (d : Char) : ¬ "[workspace".toList ++ [d] <+: h.text ++ rest := by
      unfold Header.text
      rw [harray]
      intro hbegins
      change '[' :: 'w' :: _ <+: '[' :: '[' :: _ at hbegins
      rw [List.cons_prefix_cons, List.cons_prefix_cons] at hbegins
      exact absurd hbegins.2.1 (by decide)
    constructor
    · rintro (hbegins | hbegins)
      · exact absurd hbegins (hno _)
      · exact absurd hbegins (hno _)
    · rintro ⟨hfalse, -⟩
      rw [harray] at hfalse
      cases hfalse
  | false =>
    rw [opens_iff h rest (by decide) (by decide) harray,
      opens_iff h rest (by decide) (by decide) harray,
      (head?_behind h rest (d := ']') (by decide)).2,
      (head?_behind h rest (d := '.') (by decide)).2]
    unfold OpensPlainly
    rw [harray]
    generalize (∃ legal, h.key.first = .bare "workspace".toList legal) = bare
    have hne : '.' ≠ ']' := by decide
    cases h.key.rest with
    | nil =>
      dsimp only
      tauto
    | cons entry more =>
      dsimp only
      tauto

/-- The first line of a text does not look like a header if it begins with something else. -/
theorem exists_first_line {blanks t : Text} (hwhite : ∀ c ∈ blanks, isWhitespace c = true)
    (hfeed : '\n' ∉ blanks)
    (ht : t = [] ∨ ∃ c t', t = c :: t' ∧ isWhitespace c = false ∧ c ≠ '[') :
    ∃ line rest, (betweenFeeds (blanks ++ t)).map trim = line :: rest ∧
      opensWorkspace line = false := by
  rcases ht with rfl | ⟨c, t', rfl, hc, hbracket⟩
  · refine ⟨[], [], ?_, rfl⟩
    rw [List.append_nil, betweenFeeds_of_notMem hfeed, List.map_singleton,
      ← List.append_nil blanks, trim_append_of_forall hwhite]
    rfl
  · have hnewline : '\n' ∉ blanks ++ [c] := by
      rw [List.mem_append, List.mem_singleton]
      rintro (h | rfl)
      · exact hfeed h
      · exact absurd hc (by decide)
    obtain ⟨line, rest, -, happend⟩ := exists_betweenFeeds_append hnewline t'
    obtain ⟨line', htrim, -⟩ := exists_trim_cons hc line
    refine ⟨c :: line', rest.map trim, ?_, ?_⟩
    · rw [← List.singleton_append, ← List.append_assoc, happend, List.map_cons, List.append_assoc,
        trim_append_of_forall hwhite, List.singleton_append, htrim]
    · unfold opensWorkspace
      rw [Bool.or_eq_false_iff]
      have hne : ('[' == c) = false := beq_false_of_ne (Ne.symm hbracket)
      have hclosed : "[workspace]".toList = '[' :: "workspace]".toList := rfl
      have hdotted : "[workspace.".toList = '[' :: "workspace.".toList := rfl
      rw [hclosed, hdotted, List.isPrefixOf_cons_cons, List.isPrefixOf_cons_cons, hne]
      exact ⟨rfl, rfl⟩

/-- The first line of an expression that is no header does not look like one. -/
theorem opensWorkspace_of_not_header {e : Expr} (he : ∀ h, e.content ≠ .header h) :
    ∃ line rest, e.lines = line :: rest ∧ opensWorkspace line = false := by
  have hfirst {blanks t : Text} (htext : e.text = blanks ++ t)
      (hwhite : ∀ c ∈ blanks, isWhitespace c = true) (hfeed : '\n' ∉ blanks)
      (ht : t = [] ∨ ∃ c t', t = c :: t' ∧ isWhitespace c = false ∧ c ≠ '[') :
      ∃ line rest, e.lines = line :: rest ∧ opensWorkspace line = false := by
    unfold Expr.lines
    rw [htext]
    exact exists_first_line hwhite hfeed ht
  cases hcontent : e.content with
  | header h => exact absurd hcontent (he h)
  | blank =>
    have htext : e.text = (e.indent.text ++ e.trail.text) ++ commentText e.comment := by
      rw [Expr.text, hcontent, Content.text, List.append_nil]
    refine hfirst htext (fun c hc => ?_) (fun hfeed => ?_) ?_
    · rcases List.mem_append.mp hc with hc | hc
      · exact e.indent.isWhitespace c hc
      · exact e.trail.isWhitespace c hc
    · rcases List.mem_append.mp hfeed with hfeed | hfeed
      · exact e.indent.notMem hfeed
      · exact e.trail.notMem hfeed
    · cases e.comment with
      | none => exact .inl rfl
      | some c => exact .inr ⟨'#', c.text, rfl, by decide, by decide⟩
  | keyval key left right value =>
    obtain ⟨c, t, hkey, hc⟩ := key.exists_text
    have htext : ∃ t', e.text = e.indent.text ++ c :: t' := by
      rw [Expr.text, hcontent, Content.text, hkey]
      simp only [List.append_assoc, List.cons_append]
      exact ⟨_, rfl⟩
    obtain ⟨t', htext⟩ := htext
    refine hfirst htext e.indent.isWhitespace e.indent.notMem (.inr ⟨c, t', rfl, ?_, ?_⟩)
    · rcases hc with hbare | rfl | rfl
      · exact isWhitespace_of_isBare hbare
      · decide
      · decide
    · rcases hc with hbare | rfl | rfl
      · rintro rfl
        exact absurd hbare (by decide)
      · decide
      · decide

/-- A line of an expression is taken for the header of a workspace table if the expression is one
that is written plainly, or if the line continues its value. -/
theorem any_opensWorkspace (e : Expr) :
    e.lines.any opensWorkspace = true ↔
      (∃ h, e.content = .header h ∧ OpensPlainly h) ∨
        ∃ line ∈ e.lines.tail, opensWorkspace line = true := by
  by_cases hheader : ∃ h, e.content = .header h
  · obtain ⟨h, hh⟩ := hheader
    rw [Expr.lines_header hh, List.any_cons, List.any_nil, Bool.or_false, opensWorkspace_header]
    constructor
    · exact fun hopens => .inl ⟨h, hh, hopens⟩
    · rintro (⟨h', hh', hopens⟩ | ⟨line, hline, -⟩)
      · rw [hh] at hh'
        cases hh'
        exact hopens
      · cases hline
  · obtain ⟨line, rest, hlines, hline⟩ :=
      opensWorkspace_of_not_header fun h hh => hheader ⟨h, hh⟩
    rw [hlines, List.any_cons, hline, Bool.false_or, List.any_eq_true, List.tail_cons]
    constructor
    · exact .inr
    · rintro (⟨h, hh, -⟩ | hrest)
      · exact absurd ⟨h, hh⟩ hheader
      · exact hrest

/-- A document is taken to have a workspace table where it has a plainly written header of one,
or a line that looks like one. -/
theorem declaresWorkspace_iff (doc : Document) :
    declaresWorkspace doc.text = true ↔ DeclaresPlainly doc ∨ DeclaresWrongly doc := by
  have hlines : doc.lines.any opensWorkspace = true ↔ ∃ e ∈ doc.exprs,
      (∃ h, e.content = .header h ∧ OpensPlainly h) ∨
        ∃ line ∈ e.lines.tail, opensWorkspace line = true := by
    unfold Document.lines
    rw [List.any_flatMap, List.any_eq_true]
    exact exists_congr fun e => and_congr_right fun _ => any_opensWorkspace e
  rw [declaresWorkspace_document, hlines]
  unfold DeclaresPlainly DeclaresWrongly
  constructor
  · rintro ⟨e, he, hopens | hcontinued⟩
    · by_cases harrays : ["workspace".toList] ∈ doc.arrays
      · exact .inr (.inr ⟨harrays, e, he, hopens⟩)
      · exact .inl ⟨harrays, e, he, hopens⟩
    · exact .inr (.inl ⟨e, he, hcontinued⟩)
  · rintro (⟨-, e, he, hopens⟩ | ⟨e, he, hcontinued⟩ | ⟨-, e, he, hopens⟩)
    · exact ⟨e, he, .inl hopens⟩
    · exact ⟨e, he, .inr hcontinued⟩
    · exact ⟨e, he, .inl hopens⟩

/-- A plainly written header makes a workspace table. -/
theorem hasTable_of_declaresPlainly {doc : Document} (hplain : DeclaresPlainly doc) :
    doc.HasTable ["workspace".toList] := by
  obtain ⟨harrays, e, he, h, hheader, -, -, ⟨legal, hfirst⟩, -⟩ := hplain
  refine doc.hasTable_of_header he hheader ?_ harrays
  rw [Key.path, hfirst]
  rfl

/-- A document has a workspace table that is plainly written; or it has one exactly if a line looks
like the header of one without being one. -/
def DeclaresRight (doc : Document) : Prop :=
  DeclaresPlainly doc ∨ (doc.HasTable ["workspace".toList] ↔ DeclaresWrongly doc)

/-- The condition is exact. -/
theorem declaresWorkspace_iff_hasTable (doc : Document) :
    (declaresWorkspace doc.text = true ↔ doc.HasTable ["workspace".toList]) ↔
      DeclaresRight doc := by
  rw [declaresWorkspace_iff]
  unfold DeclaresRight
  by_cases hplain : DeclaresPlainly doc
  · exact iff_of_true (iff_of_true (.inl hplain) (hasTable_of_declaresPlainly hplain)) (.inl hplain)
  · rw [or_iff_right hplain, or_iff_right hplain]
    exact Iff.comm

end ModalRust.Cli.ManifestScan
