import ModalRust.Cli.ManifestScan

/-!
# Manifests that are written plainly

What a manifest looks like for which a scanner returns what the document says: a header between
its brackets with nothing else on the line, then a bare key with a string as it stands, and
nothing above or between that looks like a header or an assignment. A document that is written
otherwise says something else to the scanner, or the same by chance.
-/

namespace ModalRust.Cli.ManifestScan

open TomlSyntax

/-! ### Texts that are trimmed -/

/-- Whitespace behind a text is trimmed. -/
theorem trim_append_right {s : Text} (hs : ∀ c ∈ s, isWhitespace c = true) (t : Text) :
    trim (t ++ s) = trim t := by
  induction s using List.reverseRecOn with
  | nil => rw [List.append_nil]
  | append_singleton s c ih =>
    rw [← List.append_assoc, trim_append_singleton (hs c (by simp)),
      ih fun d hd => hs d (List.mem_append_left _ hd)]

/-- What begins and ends visibly is not trimmed. -/
theorem trim_eq_self_of_ends {c d : Char} (hc : isWhitespace c = false)
    (hd : isWhitespace d = false) {t t' : Text} (hlast : c :: t = t' ++ [d]) :
    trim (c :: t) = c :: t := by
  unfold trim
  rw [List.dropWhile_cons_of_neg (by simp [hc]), hlast,
    List.rdropWhile_concat_neg _ _ _ (by simp [hd])]

/-- Quotes around a text that neither begins nor ends with one. -/
theorem trimQuotes_append {a b v : Text} (ha : ∀ c ∈ a, isQuote c = true)
    (hb : ∀ c ∈ b, isQuote c = true)
    (hends : ∀ c, v.head? = some c ∨ v.getLast? = some c → isQuote c = false) :
    trimQuotes (a ++ v ++ b) = v := by
  have hright {s : Text} (hs : ∀ c ∈ s, isQuote c = true) (t : Text) :
      (t ++ s).rdropWhile isQuote = t.rdropWhile isQuote := by
    induction s using List.reverseRecOn with
    | nil => rw [List.append_nil]
    | append_singleton s c ih =>
      rw [← List.append_assoc, List.rdropWhile_concat_pos _ _ _ (hs c (by simp)),
        ih fun d hd => hs d (List.mem_append_left _ hd)]
  unfold trimQuotes
  rw [List.append_assoc, List.dropWhile_append_of_pos ha]
  cases v with
  | nil =>
    have hnone : b.dropWhile isQuote = [] := List.dropWhile_eq_nil_iff.mpr hb
    rw [List.nil_append, hnone]
    rfl
  | cons c v =>
    have hc : isQuote c = false := hends c (.inl rfl)
    rw [List.cons_append, List.dropWhile_cons_of_neg (by simp [hc]), ← List.cons_append, hright hb,
      List.rdropWhile_eq_self_iff]
    intro hne
    have hlast := hends _ (.inr (List.getLast?_eq_some_getLast hne))
    simp [hlast]

/-! ### The lines of expressions -/

/-- The line of a header is that of a table if it is written plainly and without a comment. -/
theorem trim_header_eq_iff {table : NamePath} (htable : table ≠ [])
    (hbare : ∀ name ∈ table, IsBareName name) (h : Header) (trail : Blank)
    (comment : Option Comment) :
    trim (h.text ++ (trail.text ++ commentText comment)) = '[' :: dotted table ++ [']'] ↔
      h.Spells table ∧ comment = none := by
  have hopening : ∃ t, h.text = '[' :: t := by
    unfold Header.text
    cases h.array <;> exact ⟨_, rfl⟩
  have hclosing : ∃ t, h.text = t ++ [']'] := by
    unfold Header.text
    cases h.array with
    | false => exact ⟨_, rfl⟩
    | true => exact ⟨['[', '['] ++ h.before.text ++ h.key.text ++ h.after.text ++ [']'], by simp⟩
  obtain ⟨t, ht⟩ := hopening
  obtain ⟨t', ht'⟩ := hclosing
  cases comment with
  | none =>
    have htrim : trim (h.text ++ (trail.text ++ commentText none)) = h.text := by
      rw [commentText, List.append_nil, trim_append_right trail.isWhitespace, ht]
      exact trim_eq_self_of_ends (by decide) (by decide) (ht.symm.trans ht')
    rw [htrim, Header.text_eq_iff htable hbare]
    exact (and_iff_left rfl).symm
  | some c =>
    have hsign : '#' ∈ trim (h.text ++ (trail.text ++ commentText (some c))) := by
      have hkept := isPrefix_rdropWhile (d := '#') (by decide) (h.text ++ trail.text) c.text
      have hfirst : trim (h.text ++ (trail.text ++ commentText (some c))) =
          (h.text ++ trail.text ++ ['#'] ++ c.text).rdropWhile isWhitespace := by
        unfold trim commentText
        rw [ht, List.cons_append, List.dropWhile_cons_of_neg (by decide)]
        simp
      rw [hfirst]
      exact hkept.subset (by simp)
    constructor
    · intro heq
      rw [heq] at hsign
      have hdotted : ∀ d ∈ dotted table, isBare d = true ∨ d = '.' := by
        intro d hd
        cases table with
        | nil => cases hd
        | cons name names =>
          rcases List.mem_append.mp hd with hd | hd
          · exact .inl ((hbare name List.mem_cons_self).2 d hd)
          · obtain ⟨n, hn, hd⟩ := List.mem_flatMap.mp hd
            rcases List.mem_cons.mp hd with rfl | hd
            · exact .inr rfl
            · exact .inl ((hbare n (List.mem_cons_of_mem _ hn)).2 d hd)
      rw [List.mem_append, List.mem_cons, List.mem_singleton] at hsign
      rcases hsign with (h | h) | h
      · exact absurd h (by decide)
      · rcases hdotted _ h with h | h
        · exact absurd h (by decide)
        · exact absurd h (by decide)
      · exact absurd h (by decide)
    · rintro ⟨-, h⟩
      cases h

/-- The first line of an assignment holds the key and the equals sign. -/
theorem exists_lines_keyval {e : Expr} {key : Key} {left right : Blank} {value : Value}
    (hcontent : e.content = .keyval key left right value) :
    ∃ rest others, e.lines = (key.text ++ left.text ++ '=' :: rest) :: others := by
  have htext : e.text = (e.indent.text ++ (key.text ++ left.text ++ ['='])) ++
      (right.text ++ value.text ++ e.trail.text ++ commentText e.comment) := by
    rw [Expr.text, hcontent, Content.text]
    simp
  have hfeed : '\n' ∉ e.indent.text ++ (key.text ++ left.text ++ ['=']) := by
    simp [e.indent.notMem, key.notMem, left.notMem]
  obtain ⟨line, others, -, hlines⟩ := exists_betweenFeeds_append hfeed
    (right.text ++ value.text ++ e.trail.text ++ commentText e.comment)
  obtain ⟨c, t, hkey, hc⟩ := key.exists_text
  have hvisible : isWhitespace c = false := by
    rcases hc with hbare | rfl | rfl
    · exact isWhitespace_of_isBare hbare
    · decide
    · decide
  obtain ⟨rest, hrest⟩ :=
    isPrefix_rdropWhile (d := '=') (by decide) (key.text ++ left.text) line
  refine ⟨rest, others.map trim, ?_⟩
  unfold Expr.lines
  rw [htext, hlines, List.map_cons, List.append_assoc, trim_append_of_forall e.indent.isWhitespace]
  unfold trim
  have hdrop : (key.text ++ left.text ++ ['='] ++ line).dropWhile isWhitespace =
      key.text ++ left.text ++ ['='] ++ line := by
    rw [hkey, List.cons_append, List.cons_append, List.cons_append,
      List.dropWhile_cons_of_neg (by simp [hvisible])]
  rw [hdrop, ← hrest, List.append_assoc, List.singleton_append]

/-- A line without an assignment is its comment. -/
theorem lines_of_blank {e : Expr} (hcontent : e.content = .blank) :
    e.lines = [[]] ∨ ∃ t, e.lines = ['#' :: t] := by
  have htext : e.text = e.indent.text ++ e.trail.text ++ commentText e.comment := by
    rw [Expr.text, hcontent, Content.text, List.append_nil]
  have hfeed : '\n' ∉ e.text := by
    rw [htext]
    simp [e.indent.notMem, e.trail.notMem, notMem_commentText]
  have hwhite : ∀ c ∈ e.indent.text ++ e.trail.text, isWhitespace c = true := by
    intro c hc
    rcases List.mem_append.mp hc with hc | hc
    · exact e.indent.isWhitespace c hc
    · exact e.trail.isWhitespace c hc
  have hlines : e.lines = [trim (commentText e.comment)] := by
    unfold Expr.lines
    rw [betweenFeeds_of_notMem hfeed, htext, List.map_singleton, trim_append_of_forall hwhite]
  rw [hlines]
  cases e.comment with
  | none => exact .inl rfl
  | some c =>
    obtain ⟨t, ht, -⟩ := exists_trim_cons (c := '#') (by decide) c.text
    exact .inr ⟨t, congrArg (fun line => [line]) ht⟩

/-- The first line of an assignment is not taken for a header. -/
theorem head_keyval (key : Key) (t : Text) : (key.text ++ t).head? ≠ some '[' := by
  obtain ⟨c, t', hkey, hc⟩ := key.exists_text
  rw [hkey]
  intro h
  rw [Option.some.inj h] at hc
  revert hc
  decide

/-- A line that begins with something else than a bracket is not taken for a header. -/
theorem isHeader_of_head {line : Text} (hline : line.head? ≠ some '[') : isHeader line = false := by
  unfold isHeader
  rw [beq_false_of_ne hline, Bool.false_and]

/-- Behind blanks and in front of another character, no key is continued. -/
theorem isBare_head_of_dropWhile {t rest : Text} {d : Char} (hd : isBare d = false)
    (hdrop : t.dropWhile isWhitespace = d :: rest) :
    ∀ c, t.head? = some c → isBare c = false := by
  intro c hc
  cases t with
  | nil => cases hc
  | cons b t =>
    rw [← Option.some.inj hc]
    by_cases hb : isWhitespace b = true
    · by_contra hbare
      rw [isWhitespace_of_isBare (Bool.not_eq_false _ ▸ hbare)] at hb
      cases hb
    · rw [List.dropWhile_cons_of_neg hb] at hdrop
      rw [(List.cons.inj hdrop).1]
      exact hd

/-- A scanner takes an assignment of another key for none of its own. -/
theorem assigned_eq_none {name : Text} (hname : IsBareName name) {key : Key} {left : Blank}
    {rest : Text} (hkey : key.path ≠ [name]) :
    assigned name (key.text ++ left.text ++ '=' :: rest) = none := by
  rw [Option.eq_none_iff_forall_ne_some]
  intro v hassigned
  unfold assigned at hassigned
  obtain ⟨behind, hbehind, hmap⟩ := Option.bind_eq_some_iff.mp hassigned
  obtain ⟨value, hvalue, -⟩ := Option.map_eq_some_iff.mp hmap
  rw [List.isPrefixOf?_eq_some_iff_append_eq] at hbehind hvalue
  have hequals : behind.dropWhile isWhitespace = '=' :: value := hvalue.symm
  cases hfirst : key.first with
  | quoted s legal =>
    obtain ⟨t, ht⟩ := s.exists_text
    obtain ⟨c, more, hcons⟩ := List.exists_cons_of_ne_nil hname.1
    rw [Key.text, hfirst, KeyPart.text, ht, hcons] at hbehind
    have hc : isBare c = true := hname.2 c (by rw [hcons]; exact List.mem_cons_self)
    rw [(List.cons.inj hbehind).1] at hc
    cases hkind : s.kind <;> rw [hkind] at hc <;> exact absurd hc (by decide)
  | bare word legal =>
    have hdrop : ∃ d t, ((key.rest.flatMap fun entry => entry.1.text ++
        '.' :: entry.2.1.text ++ entry.2.2.text) ++ left.text ++ '=' :: rest).dropWhile
          isWhitespace = d :: t ∧ isBare d = false ∧ (key.rest ≠ [] → d = '.') := by
      cases key.rest with
      | nil =>
        refine ⟨'=', rest, ?_, by decide, fun h => absurd rfl h⟩
        rw [List.flatMap_nil, List.nil_append, List.dropWhile_append_of_pos left.isWhitespace]
        rfl
      | cons entry more =>
        obtain ⟨before, after, part⟩ := entry
        rw [List.flatMap_cons]
        simp only [List.append_assoc, List.cons_append]
        rw [List.dropWhile_append_of_pos before.isWhitespace]
        exact ⟨'.', _, rfl, by decide, fun _ => rfl⟩
    obtain ⟨d, t, hdrop, hd, hdot⟩ := hdrop
    rw [Key.text, hfirst, KeyPart.text, List.append_assoc, List.append_assoc] at hbehind
    rw [List.append_assoc] at hdrop
    obtain ⟨rfl, rfl⟩ := bare_append_inj hname.2 legal.2
      (isBare_head_of_dropWhile (by decide) hequals) (isBare_head_of_dropWhile hd hdrop) hbehind
    have hrest : key.rest = [] := by
      by_contra hne
      rw [hequals, hdot hne] at hdrop
      exact absurd (List.cons.inj hdrop).1 (by decide)
    refine hkey ?_
    rw [Key.path, hfirst, hrest]
    rfl

/-- The text of a key that is one bare name. -/
theorem text_of_spells {key : Key} {name : Text} (hkey : key.Spells [name]) : key.text = name := by
  obtain ⟨⟨legal, hfirst⟩, hrest⟩ := hkey
  cases hparts : key.rest with
  | nil =>
    rw [Key.text, hfirst, hparts]
    exact List.append_nil name
  | cons entry more =>
    rw [hparts] at hrest
    cases hrest

/-- An assignment of the key is taken for what it is. -/
theorem assigned_of_spells {name : Text} {key : Key} (hkey : key.Spells [name]) (left : Blank)
    (rest : Text) : assigned name (key.text ++ left.text ++ '=' :: rest) =
      some (trimQuotes (trim rest)) := by
  have hdrop : (left.text ++ '=' :: rest).dropWhile isWhitespace = '=' :: rest := by
    rw [List.dropWhile_append_of_pos left.isWhitespace]
    rfl
  unfold assigned
  rw [text_of_spells hkey, List.append_assoc,
    List.isPrefixOf?_eq_some_iff_append_eq.mpr rfl, Option.bind_some, hdrop,
    List.isPrefixOf?_eq_some_iff_append_eq.mpr (List.singleton_append), Option.map_some]

/-! ### Plain assignments -/

/-- A scanner looks for a key in a table, both with bare names. -/
structure Wanted.Seeks (wanted : Wanted) (table : NamePath) : Prop where
  /-- The header is that of the table. -/
  header : wanted.header = '[' :: dotted table ++ [']']
  /-- The path of the table has a name. -/
  path : table ≠ []
  /-- All its names may be bare keys. -/
  names : ∀ name ∈ table, IsBareName name
  /-- So may the key. -/
  key : IsBareName wanted.key

/-- An expression is the header of a table as its names between brackets, and nothing else. -/
def HeadsPlainly (table : NamePath) (e : Expr) : Prop :=
  ∃ h, e.content = .header h ∧ h.Spells table ∧ e.comment = none

/-- An expression assigns a string to the key, and both stand there as they are. -/
structure AssignsPlainly (wanted : Wanted) (e : Expr) (v : Text) : Prop where
  /-- The key is bare, and the string has no escape sequence and no line ending. -/
  assigns : ∃ key left right s, e.content = .keyval key left right (.string s) ∧
    key.Spells [wanted.key] ∧ s.IsVerbatim ∧ s.meaning = v
  /-- No quote is at an end of the string. -/
  ends : ∀ c, v.head? = some c ∨ v.getLast? = some c → isQuote c = false
  /-- No comment is behind it. -/
  comment : e.comment = none
  /-- The string is not empty if the scanner passes over empty ones. -/
  nonempty : wanted.skipsEmpty = true → v ≠ []

/-- An expression between the header and the assignment does not matter: it assigns another key,
or nothing, and the lines that continue its value look like nothing that matters. -/
structure PassedOver (wanted : Wanted) (e : Expr) : Prop where
  /-- It is no header. -/
  header : ∀ h, e.content ≠ .header h
  /-- It assigns another key. -/
  key : ∀ key left right value, e.content = .keyval key left right value →
    key.path ≠ [wanted.key]
  /-- No line that continues its value looks like a header or an assignment. -/
  continued : ∀ line ∈ e.lines.tail, isHeader line = false ∧ wanted.value line = none

/-- The expressions of a document are those above a plain header, the header, those that do not
matter, a plain assignment, and others. -/
structure PlainParts (wanted : Wanted) (table : NamePath) (doc : Document) (before : List Expr)
    (heading : Expr) (between : List Expr) (assigning : Expr) (after : List Expr) (v : Text) :
    Prop where
  /-- These are the expressions. -/
  exprs : doc.exprs = before ++ heading :: between ++ assigning :: after
  /-- No expression above is such a header, nor has a line inside that looks like one. -/
  unopened : ∀ e ∈ before, ¬ HeadsPlainly table e ∧ '[' :: dotted table ++ [']'] ∉ e.lines.tail
  /-- Nothing above assigns the key. -/
  undefined : ∀ d ∈ definitions doc.arrays 0 (some []) before, d.path ≠ table ++ [wanted.key]
  /-- The table is not inside an array of tables. -/
  single : isBelow doc.arrays table = false
  /-- The header is plain. -/
  heading : HeadsPlainly table heading
  /-- What is between does not matter. -/
  between : ∀ e ∈ between, PassedOver wanted e
  /-- The assignment is plain. -/
  assigning : AssignsPlainly wanted assigning v

/-- A document assigns a string to the key in the table, and it is plainly written. -/
def SaysPlainly (wanted : Wanted) (table : NamePath) (doc : Document) (v : Text) : Prop :=
  ∃ before heading between assigning after,
    PlainParts wanted table doc before heading between assigning after v

/-- Lines above the header are passed over. -/
theorem scan_append_of_unopened {wanted : Wanted} {ls : List Text}
    (hls : ∀ line ∈ ls, line ≠ wanted.header) (rest : List Text) :
    scan wanted false (ls ++ rest) = scan wanted false rest := by
  induction ls with
  | nil => rfl
  | cons line ls ih =>
    have hline : (line == wanted.header) = false :=
      beq_false_of_ne (hls line List.mem_cons_self)
    rw [List.cons_append, scan, hline, if_neg Bool.false_ne_true, ite_self,
      ih fun l hl => hls l (List.mem_cons_of_mem _ hl)]

/-- Lines that look like nothing that matters are passed over. -/
theorem scan_append_of_silent {wanted : Wanted} {ls : List Text}
    (hls : ∀ line ∈ ls, isHeader line = false ∧ wanted.value line = none) (inTable : Bool)
    (rest : List Text) : scan wanted inTable (ls ++ rest) = scan wanted inTable rest := by
  induction ls with
  | nil => rfl
  | cons line ls ih =>
    obtain ⟨hheader, hvalue⟩ := hls line List.mem_cons_self
    rw [List.cons_append, scan, hheader, if_neg Bool.false_ne_true, hvalue, Option.none_or,
      ite_self, ih fun l hl => hls l (List.mem_cons_of_mem _ hl)]

/-- The line of a plain header. -/
theorem lines_of_headsPlainly {wanted : Wanted} {table : NamePath} (hseeks : wanted.Seeks table)
    {e : Expr} (hheads : HeadsPlainly table e) : e.lines = [wanted.header] := by
  obtain ⟨h, hcontent, hspells, hcomment⟩ := hheads
  rw [Expr.lines_header hcontent, hseeks.header]
  exact congrArg (fun line => [line])
    ((trim_header_eq_iff hseeks.path hseeks.names h e.trail e.comment).mpr ⟨hspells, hcomment⟩)

/-- An expression that is no plain header has no line that is one but where a value continues. -/
theorem header_notMem_lines {wanted : Wanted} {table : NamePath} (hseeks : wanted.Seeks table)
    {e : Expr} (hheads : ¬ HeadsPlainly table e)
    (htail : '[' :: dotted table ++ [']'] ∉ e.lines.tail) : wanted.header ∉ e.lines := by
  have hbracket : wanted.header.head? = some '[' := by rw [hseeks.header]; rfl
  rw [← hseeks.header] at htail
  cases hcontent : e.content with
  | blank =>
    rcases lines_of_blank hcontent with hlines | ⟨t, hlines⟩
    · rw [hlines, List.mem_singleton]
      intro h
      rw [h] at hbracket
      cases hbracket
    · rw [hlines, List.mem_singleton]
      intro h
      rw [h] at hbracket
      exact absurd (Option.some.inj hbracket) (by decide)
  | header h =>
    rw [Expr.lines_header hcontent, List.mem_singleton, hseeks.header]
    intro heq
    obtain ⟨hspells, hcomment⟩ :=
      (trim_header_eq_iff hseeks.path hseeks.names h e.trail e.comment).mp heq.symm
    exact hheads ⟨h, hcontent, hspells, hcomment⟩
  | keyval key left right value =>
    obtain ⟨rest, others, hlines⟩ := exists_lines_keyval hcontent
    rw [hlines, List.tail_cons] at htail
    rw [hlines, List.mem_cons, not_or]
    refine ⟨fun h => ?_, htail⟩
    rw [h, List.append_assoc] at hbracket
    exact head_keyval key _ hbracket

/-- Lines of expressions that do not matter look like nothing that matters. -/
theorem silent_of_passedOver {wanted : Wanted} (hkey : IsBareName wanted.key) {e : Expr}
    (hpassed : PassedOver wanted e) :
    ∀ line ∈ e.lines, isHeader line = false ∧ wanted.value line = none := by
  obtain ⟨c, more, hcons⟩ := List.exists_cons_of_ne_nil hkey.1
  have hcontinued := hpassed.continued
  cases hcontent : e.content with
  | header h => exact absurd hcontent (hpassed.header h)
  | blank =>
    rcases lines_of_blank hcontent with hlines | ⟨t, hlines⟩
    · rw [hlines]
      intro line hline
      rw [List.mem_singleton.mp hline]
      exact ⟨rfl, value_nil hkey.1⟩
    · rw [hlines]
      intro line hline
      rw [List.mem_singleton.mp hline]
      refine ⟨isHeader_of_head (by simp), ?_⟩
      have hc : isBare c = true := hkey.2 c (by rw [hcons]; exact List.mem_cons_self)
      have hne : (c == '#') = false := by
        refine beq_false_of_ne ?_
        rintro rfl
        exact absurd hc (by decide)
      unfold Wanted.value assigned
      rw [hcons, List.isPrefixOf?, hne]
      rfl
  | keyval key left right value =>
    obtain ⟨rest, others, hlines⟩ := exists_lines_keyval hcontent
    rw [hlines, List.tail_cons] at hcontinued
    rw [hlines]
    intro line hline
    rcases List.mem_cons.mp hline with rfl | hline
    · refine ⟨isHeader_of_head ?_, ?_⟩
      · rw [List.append_assoc]
        exact head_keyval key _
      · unfold Wanted.value
        rw [assigned_eq_none hkey (hpassed.key key left right value hcontent)]
        rfl
    · exact hcontinued line hline

/-- The line of a plain assignment reads as what it assigns. -/
theorem exists_line_of_assignsPlainly {wanted : Wanted} {e : Expr} {v : Text}
    (hassigns : AssignsPlainly wanted e v) :
    ∃ line, e.lines = [line] ∧ isHeader line = false ∧ wanted.value line = some v := by
  obtain ⟨⟨key, left, right, s, hcontent, hkey, hverbatim, rfl⟩, hends, hcomment, hne⟩ := hassigns
  obtain ⟨htext, hfeed⟩ := hverbatim.spec
  have hdelimiter : ∀ c ∈ s.kind.delimiter, isQuote c = true := by
    unfold Kind.delimiter
    cases s.kind <;> simp [Kind.isMulti, Kind.mark, isQuote]
  have hclosing : ∃ t, s.text = t ++ [s.kind.mark] := by
    rw [htext]
    unfold Kind.delimiter
    cases s.kind.isMulti with
    | false => exact ⟨_, rfl⟩
    | true => exact ⟨[s.kind.mark, s.kind.mark, s.kind.mark] ++ s.meaning ++
        [s.kind.mark, s.kind.mark], by simp⟩
  obtain ⟨t', ht'⟩ := hclosing
  obtain ⟨t, ht⟩ := s.exists_text
  have hmark : isWhitespace s.kind.mark = false := by cases s.kind <;> decide
  have hwhole : e.text = e.indent.text ++
      (key.text ++ left.text ++ '=' :: (right.text ++ s.text) ++ e.trail.text) := by
    rw [Expr.text, hcontent, hcomment, Content.text, Value.text]
    simp [commentText]
  have hnone : '\n' ∉ e.text := by
    have hquotes : '\n' ∉ s.kind.delimiter := by cases s.kind <;> decide
    rw [hwhole, htext]
    simp [e.indent.notMem, key.notMem, left.notMem, right.notMem, e.trail.notMem, hquotes, hfeed]
  refine ⟨key.text ++ left.text ++ '=' :: (right.text ++ s.text), ?_, ?_, ?_⟩
  · obtain ⟨c, more, hfirst, hc⟩ := key.exists_text
    have hvisible : isWhitespace c = false := by
      rcases hc with hbare | rfl | rfl
      · exact isWhitespace_of_isBare hbare
      · decide
      · decide
    have hends : c :: more ++ left.text ++ '=' :: (right.text ++ s.text) =
        c :: (more ++ left.text ++ '=' :: (right.text ++ t')) ++ [s.kind.mark] := by
      rw [ht']
      simp
    unfold Expr.lines
    rw [betweenFeeds_of_notMem hnone, hwhole, List.map_singleton,
      trim_append_of_forall e.indent.isWhitespace, trim_append_right e.trail.isWhitespace, hfirst]
    exact congrArg (fun line => [line]) (trim_eq_self_of_ends hvisible hmark hends)
  · rw [List.append_assoc]
    exact isHeader_of_head (head_keyval key _)
  · have hread : trimQuotes (trim (right.text ++ s.text)) = s.meaning := by
      rw [trim_append_of_forall right.isWhitespace, ht,
        trim_eq_self_of_ends hmark hmark (ht.symm.trans ht'), ← ht, htext]
      exact trimQuotes_append hdelimiter hdelimiter hends
    unfold Wanted.value
    rw [assigned_of_spells hkey, hread, Option.filter_some, if_pos]
    cases hskips : wanted.skipsEmpty with
    | false => rfl
    | true =>
      rw [Bool.true_and, Bool.not_eq_true', List.isEmpty_eq_false_iff]
      exact hne hskips

/-- A scan returns what the document plainly says. -/
theorem scan_of_saysPlainly {wanted : Wanted} {table : NamePath} (hseeks : wanted.Seeks table)
    {doc : Document} {v : Text} (hplain : SaysPlainly wanted table doc v) :
    scan wanted false doc.lines = some v := by
  obtain ⟨before, heading, between, assigning, after, hparts⟩ := hplain
  obtain ⟨line, hline, hheader, hvalue⟩ := exists_line_of_assignsPlainly hparts.assigning
  have hbefore : ∀ l ∈ before.flatMap Expr.lines, l ≠ wanted.header := by
    rintro l hl rfl
    obtain ⟨e, he, hl⟩ := List.mem_flatMap.mp hl
    obtain ⟨hheads, htail⟩ := hparts.unopened e he
    exact header_notMem_lines hseeks hheads htail hl
  have hbetween : ∀ l ∈ between.flatMap Expr.lines,
      isHeader l = false ∧ wanted.value l = none := by
    intro l hl
    obtain ⟨e, he, hl⟩ := List.mem_flatMap.mp hl
    exact silent_of_passedOver hseeks.key (hparts.between e he) l hl
  have hopening : isHeader wanted.header = true := by
    unfold isHeader
    rw [hseeks.header, List.cons_append, ← List.cons_append, List.getLast?_concat]
    rfl
  have hlines : doc.lines = before.flatMap Expr.lines ++ (wanted.header ::
      (between.flatMap Expr.lines ++ (line :: after.flatMap Expr.lines))) := by
    unfold Document.lines
    rw [hparts.exprs]
    simp [lines_of_headsPlainly hseeks hparts.heading, hline]
  rw [hlines, scan_append_of_unopened hbefore, scan, if_pos hopening, beq_self_eq_true,
    scan_append_of_silent hbetween, scan, hheader, if_neg Bool.false_ne_true, if_pos rfl, hvalue]
  rfl

/-- What does not matter stays in the table. -/
theorem tableAfter_of_passedOver {wanted : Wanted} {arrays : List NamePath} {es : List Expr}
    (hpassed : ∀ e ∈ es, PassedOver wanted e) (table : Option NamePath) :
    es.foldl (Expr.tableAfter arrays) table = table := by
  induction es with
  | nil => rfl
  | cons e es ih =>
    have he : e.tableAfter arrays table = table := by
      unfold Expr.tableAfter
      cases hcontent : e.content with
      | header h => exact absurd hcontent ((hpassed e List.mem_cons_self).header h)
      | blank => rfl
      | keyval key left right value => rfl
    rw [List.foldl_cons, he, ih fun e' he' => hpassed e' (List.mem_cons_of_mem _ he')]

/-- What does not matter defines something else. -/
theorem path_ne_of_passedOver {wanted : Wanted} {table : NamePath} {arrays : List NamePath}
    {es : List Expr} (hpassed : ∀ e ∈ es, PassedOver wanted e) (n : ℕ) :
    ∀ d ∈ definitions arrays n (some table) es, d.path ≠ table ++ [wanted.key] := by
  induction es generalizing n with
  | nil => nofun
  | cons e es ih =>
    intro d hd
    have htail : ∀ e' ∈ es, PassedOver wanted e' := fun e' he' =>
      hpassed e' (List.mem_cons_of_mem _ he')
    have hfirst : ∀ e' ∈ [e], PassedOver wanted e' := fun e' he' =>
      hpassed e' (by simpa using Or.inl (List.mem_singleton.mp he'))
    have hstays : List.foldl (Expr.tableAfter arrays) (some table) [e] = some table :=
      tableAfter_of_passedOver hfirst (some table)
    rw [List.foldl_cons, List.foldl_nil] at hstays
    rw [definitions, hstays] at hd
    rcases List.mem_append.mp hd with hd | hd
    · obtain ⟨⟨path, leaf⟩, hdefs, rfl⟩ := List.mem_map.mp hd
      cases hcontent : e.content with
      | header h => exact absurd hcontent ((hpassed e List.mem_cons_self).header h)
      | blank =>
        rw [Expr.defs, hcontent] at hdefs
        cases hdefs
      | keyval key left right value =>
        rw [Expr.defs, hcontent] at hdefs
        have hprefix := Value.prefix_of_mem_defs hdefs
        rintro rfl
        rw [List.prefix_append_right_inj] at hprefix
        refine (hpassed e List.mem_cons_self).key key left right value hcontent ?_
        exact hprefix.eq_of_length_le (by simp [Key.path])
    · exact ih htail _ d hd

/-- What a document plainly says is what it assigns. -/
theorem string_of_saysPlainly {wanted : Wanted} {table : NamePath} {doc : Document} {v : Text}
    (hplain : SaysPlainly wanted table doc v) : doc.string (table ++ [wanted.key]) = some v := by
  obtain ⟨before, heading, between, assigning, after, hparts⟩ := hplain
  obtain ⟨h, hheading, hspells, -⟩ := hparts.heading
  obtain ⟨key, left, right, s, hassigning, hkey, -, rfl⟩ := hparts.assigning.assigns
  have htable : heading.tableAfter doc.arrays
      (before.foldl (Expr.tableAfter doc.arrays) (some [])) = some table := by
    rw [Expr.tableAfter, hheading]
    dsimp only
    rw [Header.table, hspells.single, hspells.key.path_eq, hparts.single, Bool.or_false,
      if_neg Bool.false_ne_true]
  have hhead : ∀ t, heading.defs doc.arrays t = [(table, .table)] := by
    intro t
    rw [Expr.defs, hheading]
    dsimp only
    rw [hspells.key.path_eq, hparts.single, if_neg Bool.false_ne_true, hspells.single,
      if_neg Bool.false_ne_true]
  have hassign : assigning.defs doc.arrays (some table) =
      [(table ++ [wanted.key], .string s.meaning)] := by
    rw [Expr.defs, hassigning]
    dsimp only
    rw [hkey.path_eq, Value.defs]
  have hne : table ≠ table ++ [wanted.key] := fun h => by
    have := congrArg List.length h
    simp at this
  have hbefore : (definitions doc.arrays 0 (some []) before).find?
      (fun d => d.path = table ++ [wanted.key]) = none :=
    List.find?_eq_none.mpr fun d hd => by simpa using hparts.undefined d hd
  have hbetween (n : ℕ) : (definitions doc.arrays n (some table) between).find?
      (fun d => d.path = table ++ [wanted.key]) = none :=
    List.find?_eq_none.mpr fun d hd => by
      simpa using path_ne_of_passedOver hparts.between n d hd
  unfold Document.string Document.definition Document.defs
  rw [hparts.exprs, List.append_assoc, List.cons_append, definitions_append, definitions, htable,
    hhead, definitions_append, tableAfter_of_passedOver hparts.between, definitions, hassign,
    List.find?_append, hbefore, List.find?_append, List.find?_append, hbetween]
  simp [hne, Leaf.asString]

/-- A document that says nothing plainly says something to the scan: a line reads as an assignment
of the key, the last line above it that looks like a header is that of the table, and no line
further up is such a line. -/
def SaysWrongly (wanted : Wanted) (table : NamePath) (doc : Document) (v : Text) : Prop :=
  (∀ w, ¬ SaysPlainly wanted table doc w) ∧ ∃ i, TakesFirst wanted false doc.lines i v

/-- A document says plainly what it assigns; or it assigns exactly what the scan reads from other
lines, be it nothing. -/
def ReadsRight (wanted : Wanted) (table : NamePath) (doc : Document) : Prop :=
  (∃ v, SaysPlainly wanted table doc v) ∨
    ∀ v, doc.string (table ++ [wanted.key]) = some v ↔ SaysWrongly wanted table doc v

/-- The condition is exact. -/
theorem scan_eq_string_iff {wanted : Wanted} {table : NamePath} (hseeks : wanted.Seeks table)
    (doc : Document) :
    scan wanted false ((lines doc.text).map trim) = doc.string (table ++ [wanted.key]) ↔
      ReadsRight wanted table doc := by
  rw [scan_document hseeks.key.1]
  unfold ReadsRight
  by_cases hplain : ∃ v, SaysPlainly wanted table doc v
  · obtain ⟨v, hv⟩ := hplain
    rw [scan_of_saysPlainly hseeks hv, string_of_saysPlainly hv]
    exact iff_of_true rfl (.inl ⟨v, hv⟩)
  · have hwrongly (v : Text) : scan wanted false doc.lines = some v ↔
        SaysWrongly wanted table doc v := by
      rw [scan_eq_some_iff]
      exact (and_iff_right fun w hw => hplain ⟨w, hw⟩).symm
    rw [or_iff_right hplain, Option.ext_iff]
    refine forall_congr' fun v => ?_
    rw [hwrongly]
    exact Iff.comm

/-! ### Where the fragment stands -/

/-- A fragment that does not have a character stands before it or behind it. -/
theorem infix_append_cons_iff {fragment x y : Text} {c : Char} (hc : c ∉ fragment) :
    fragment <:+: x ++ c :: y ↔ fragment <:+: x ∨ fragment <:+: y := by
  constructor
  · rintro ⟨s, t, h⟩
    rcases List.append_eq_append_iff.mp h with ⟨a, hx, -⟩ | ⟨a, hs, ht⟩
    · exact .inl ⟨s, a, hx.symm⟩
    · rcases List.cons_eq_append_iff.mp ht with ⟨rfl, -⟩ | ⟨a', rfl, hy⟩
      · exact .inl ⟨s, [], by rw [hs, List.append_nil, List.append_nil]⟩
      · rcases List.append_eq_append_iff.mp hs with ⟨b, -, hfragment⟩ | ⟨b, -, hfragment⟩
        · refine absurd ?_ hc
          rw [hfragment]
          exact List.mem_append_right _ List.mem_cons_self
        · rcases List.cons_eq_append_iff.mp hfragment with ⟨-, hfragment⟩ | ⟨b', -, ha'⟩
          · refine absurd ?_ hc
            rw [hfragment]
            exact List.mem_cons_self
          · exact .inr ⟨b', t, by rw [hy, ha']⟩
  · rintro (h | h)
    · exact h.trans (List.infix_append_left)
    · exact h.trans ((List.suffix_cons c y).isInfix.trans List.infix_append_right)

/-- Characters that a fragment does not have do not matter in front of a text. -/
theorem infix_append_iff_right {fragment x y : Text} (hne : fragment ≠ [])
    (hx : ∀ c ∈ x, c ∉ fragment) : fragment <:+: x ++ y ↔ fragment <:+: y := by
  induction x with
  | nil => rfl
  | cons c x ih =>
    have hsplit := infix_append_cons_iff (x := []) (y := x ++ y) (hx c List.mem_cons_self)
    rw [List.nil_append, List.infix_nil, or_iff_right hne] at hsplit
    rw [List.cons_append, hsplit, ih fun d hd => hx d (List.mem_cons_of_mem _ hd)]

/-- Nor do they behind it. -/
theorem infix_append_iff_left {fragment x y : Text} (hne : fragment ≠ [])
    (hy : ∀ c ∈ y, c ∉ fragment) : fragment <:+: x ++ y ↔ fragment <:+: x := by
  cases y with
  | nil => rw [List.append_nil]
  | cons c y =>
    have hrest : ¬ fragment <:+: y := by
      intro h
      obtain ⟨d, rest, hcons⟩ := List.exists_cons_of_ne_nil hne
      have hd : d ∈ fragment := by rw [hcons]; exact List.mem_cons_self
      exact hy d (List.mem_cons_of_mem _ (h.subset hd)) hd
    rw [infix_append_cons_iff (hy c List.mem_cons_self), or_iff_left hrest]

/-- `str::contains`. -/
theorem containsText_iff (fragment t : Text) :
    containsText fragment t = true ↔ fragment <:+: t := by
  induction t with
  | nil => rw [containsText, List.isEmpty_iff, List.infix_nil]
  | cons c t ih =>
    rw [containsText, Bool.or_eq_true, List.isPrefixOf_iff_prefix, ih, List.infix_cons_iff]

/-- The fragment that the facade looks for. -/
def fragment : Text := "[workspace]".toList

/-- A blank is not in it. -/
theorem notMem_fragment_of_blank (blank : Blank) : ∀ c ∈ blank.text, c ∉ fragment := by
  intro c hc
  rcases blank.legal c hc with rfl | rfl <;> decide

/-- The parts of an expression in which the fragment may stand without being the header of a
table: what is behind the opening bracket of a header, a key, a value, a comment. -/
def innerTexts (e : Expr) : List Text :=
  commentText e.comment ::
    match e.content with
    | .blank => []
    | .header h => [h.text.tail]
    | .keyval key _ _ value => [key.text, value.text]

/-- The fragment begins a header if that is the plain one of the workspace table. -/
theorem prefix_header_iff (h : Header) : fragment <+: h.text ↔ h.Spells ["workspace".toList] := by
  have hspells : h.Spells ["workspace".toList] ↔ h.array = false ∧ h.before.text = [] ∧
      (∃ legal, h.key.first = .bare "workspace".toList legal) ∧ h.key.rest = [] ∧
        h.after.text = [] := by
    constructor
    · rintro ⟨harray, hbefore, ⟨hfirst, hrest⟩, hafter⟩
      cases hparts : h.key.rest with
      | nil => exact ⟨harray, hbefore, hfirst, rfl, hafter⟩
      | cons entry more =>
        rw [hparts] at hrest
        cases hrest
    · rintro ⟨harray, hbefore, hfirst, hrest, hafter⟩
      exact ⟨harray, hbefore, ⟨hfirst, by rw [hrest]; exact .nil⟩, hafter⟩
  rw [hspells]
  change "[workspace".toList ++ [']'] <+: h.text ↔ _
  cases harray : h.array with
  | true =>
    constructor
    · unfold Header.text
      rw [harray]
      intro hbegins
      change '[' :: 'w' :: _ <+: '[' :: '[' :: _ at hbegins
      rw [List.cons_prefix_cons, List.cons_prefix_cons] at hbegins
      exact absurd hbegins.2.1 (by decide)
    · rintro ⟨h, -⟩
      cases h
  | false =>
    have hopens := opens_iff h [] (d := ']') (by decide) (by decide) harray
    rw [List.append_nil] at hopens
    rw [hopens, (head?_behind h [] (d := ']') (by decide)).2]
    cases h.key.rest with
    | nil =>
      constructor
      · rintro ⟨hbefore, hfirst, hafter, -⟩
        exact ⟨rfl, hbefore, hfirst, rfl, hafter⟩
      · rintro ⟨-, hbefore, hfirst, -, hafter⟩
        exact ⟨hbefore, hfirst, hafter, rfl⟩
    | cons entry more =>
      constructor
      · rintro ⟨-, -, -, hdot⟩
        exact absurd hdot (by decide)
      · rintro ⟨-, -, -, hnil, -⟩
        cases hnil

/-- The fragment stands in an expression if that is the plain header of the workspace table, or
in one of its parts. -/
theorem infix_expr_iff (e : Expr) :
    fragment <:+: e.text ↔
      (∃ h, e.content = .header h ∧ h.Spells ["workspace".toList]) ∨
        ∃ part ∈ innerTexts e, fragment <:+: part := by
  have hne : fragment ≠ [] := by decide
  have hcomment (t : Text) : fragment <:+: t ++ commentText e.comment ↔
      fragment <:+: t ∨ fragment <:+: commentText e.comment := by
    cases e.comment with
    | none => simp [commentText, hne]
    | some c =>
      have hsign := infix_append_cons_iff (x := []) (y := c.text)
        (show '#' ∉ fragment by decide)
      rw [List.nil_append, List.infix_nil, or_iff_right hne] at hsign
      rw [commentText, infix_append_cons_iff (by decide), hsign]
  have htext : fragment <:+: e.text ↔
      fragment <:+: e.content.text ∨ fragment <:+: commentText e.comment := by
    unfold Expr.text
    rw [hcomment, infix_append_iff_left hne (notMem_fragment_of_blank e.trail),
      infix_append_iff_right hne (notMem_fragment_of_blank e.indent)]
  rw [htext]
  unfold innerTexts
  cases hcontent : e.content with
  | blank => simp [Content.text, hne]
  | header h =>
    have hopening : h.text = '[' :: h.text.tail := by
      unfold Header.text
      cases h.array <;> rfl
    have hheader : fragment <:+: h.text ↔
        h.Spells ["workspace".toList] ∨ fragment <:+: h.text.tail := by
      rw [← prefix_header_iff, hopening, List.infix_cons_iff, List.tail_cons]
    simp only [Content.text, hheader, List.mem_cons, List.not_mem_nil, or_false,
      exists_eq_or_imp, exists_eq_left, Content.header.injEq, exists_eq_left']
    tauto
  | keyval key left right value =>
    have hkeyval : fragment <:+: (Content.keyval key left right value).text ↔
        fragment <:+: key.text ∨ fragment <:+: value.text := by
      have hright : key.text ++ left.text ++ '=' :: right.text ++ value.text =
          (key.text ++ left.text) ++ '=' :: (right.text ++ value.text) := by simp
      rw [Content.text, hright, infix_append_cons_iff (by decide),
        infix_append_iff_left hne (notMem_fragment_of_blank left),
        infix_append_iff_right hne (notMem_fragment_of_blank right)]
    simp only [hkeyval, List.mem_cons, List.not_mem_nil, or_false, exists_eq_or_imp,
      exists_eq_left, reduceCtorEq, false_and, exists_false, false_or]
    tauto

/-- The fragment stands in a document if it stands in one of its expressions. -/
theorem infix_document_iff (doc : Document) :
    fragment <:+: doc.text ↔ ∃ e ∈ doc.exprs, fragment <:+: e.text := by
  have hended (es : List (Expr × Newline)) (rest : Text) :
      fragment <:+: (es.flatMap fun entry => entry.1.text ++ entry.2.text) ++ rest ↔
        (∃ e ∈ es.map Prod.fst, fragment <:+: e.text) ∨ fragment <:+: rest := by
    induction es with
    | nil => simp
    | cons e es ih =>
      obtain ⟨e, n⟩ := e
      have hnewline (t : Text) : fragment <:+: e.text ++ (n.text ++ t) ↔
          fragment <:+: e.text ∨ fragment <:+: t := by
        cases n with
        | lf => exact infix_append_cons_iff (by decide)
        | crlf =>
          have hfeed := infix_append_cons_iff (x := []) (y := t) (show '\n' ∉ fragment by decide)
          rw [List.nil_append, List.infix_nil, or_iff_right (by decide)] at hfeed
          change fragment <:+: e.text ++ '\r' :: '\n' :: t ↔ _
          rw [infix_append_cons_iff (by decide), hfeed]
      rw [List.flatMap_cons, List.append_assoc, List.append_assoc, hnewline, ih, List.map_cons,
        ← or_assoc]
      simp only [List.mem_cons, exists_eq_or_imp]
  unfold Document.text Document.exprs
  refine (hended _ _).trans ?_
  simp only [List.mem_append, List.mem_singleton, or_and_right, exists_or, exists_eq_left]

/-- A document has the header `[workspace]`, and no array of such tables. -/
def MentionsPlainly (doc : Document) : Prop :=
  ["workspace".toList] ∉ doc.arrays ∧
    ∃ e ∈ doc.exprs, ∃ h, e.content = .header h ∧ h.Spells ["workspace".toList]

/-- The fragment stands in a document without being such a header. -/
def MentionsWrongly (doc : Document) : Prop :=
  (∃ e ∈ doc.exprs, ∃ part ∈ innerTexts e, fragment <:+: part) ∨
    ["workspace".toList] ∈ doc.arrays ∧
      ∃ e ∈ doc.exprs, ∃ h, e.content = .header h ∧ h.Spells ["workspace".toList]

/-- Either is what the facade takes for a workspace. -/
theorem mentionsWorkspace_iff (doc : Document) :
    mentionsWorkspace doc.text = true ↔ MentionsPlainly doc ∨ MentionsWrongly doc := by
  have hexprs : fragment <:+: doc.text ↔
      (∃ e ∈ doc.exprs, ∃ h, e.content = .header h ∧ h.Spells ["workspace".toList]) ∨
        ∃ e ∈ doc.exprs, ∃ part ∈ innerTexts e, fragment <:+: part := by
    rw [infix_document_iff]
    simp only [infix_expr_iff, and_or_left, exists_or]
  unfold mentionsWorkspace MentionsPlainly MentionsWrongly
  rw [containsText_iff]
  change fragment <:+: doc.text ↔ _
  rw [hexprs]
  constructor
  · rintro (hplain | hinner)
    · by_cases harrays : ["workspace".toList] ∈ doc.arrays
      · exact .inr (.inr ⟨harrays, hplain⟩)
      · exact .inl ⟨harrays, hplain⟩
    · exact .inr (.inl hinner)
  · rintro (⟨-, hplain⟩ | hinner | ⟨-, hplain⟩)
    · exact .inl hplain
    · exact .inr hinner
    · exact .inl hplain

/-- The header `[workspace]` makes a workspace table. -/
theorem hasTable_of_mentionsPlainly {doc : Document} (hplain : MentionsPlainly doc) :
    doc.HasTable ["workspace".toList] := by
  obtain ⟨harrays, e, he, h, hheader, hspells⟩ := hplain
  refine doc.hasTable_of_header he hheader ?_ harrays
  rw [hspells.key.path_eq]
  rfl

end ModalRust.Cli.ManifestScan
