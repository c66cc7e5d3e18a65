import ModalRust.JsonParse
import ModalRust.Lines

/-!
# Documents in TOML

The concrete syntax of TOML, so that a document knows its text as well as its meaning: blanks,
comments, line endings, the spellings of keys and strings, arrays over several lines, inline
tables. A document means a list of definitions, each at the path of the tables and keys that lead
to it, and each on the line on which its expression begins. Rules about redefinition are not
described. Nothing in this file refers to a particular program.
-/

namespace ModalRust.TomlSyntax

/-! ### Tokens -/

/-- Blanks within a line. -/
structure Blank where
  /-- The blanks. -/
  text : Text
  /-- They are spaces and tabs. -/
  legal : ∀ c ∈ text, c = ' ' ∨ c = '\t'

/-- No blank. -/
def Blank.none : Blank := ⟨[], nofun⟩

/-- One space. -/
def Blank.space : Blank := ⟨[' '], fun _ hc => .inl (List.mem_singleton.mp hc)⟩

/-- The end of a line. -/
inductive Newline
  /-- A line feed. -/
  | lf
  /-- A carriage return and a line feed. -/
  | crlf

/-- How a line ends. -/
def Newline.text : Newline → Text
  | .lf => ['\n']
  | .crlf => ['\r', '\n']

/-- A character that is no control character, or a tab. -/
def Visible (c : Char) : Prop := c = '\t' ∨ 32 ≤ c.toNat ∧ c.toNat ≠ 127

instance (c : Char) : Decidable (Visible c) := inferInstanceAs (Decidable (_ ∨ _))

/-- All characters of a text are of a kind if a pass over the text says so. -/
theorem forall_mem_of_all {p : Char → Prop} [DecidablePred p] {t : Text}
    (hall : (t.all fun c => decide (p c)) = true) : ∀ c ∈ t, p c :=
  fun c hc => of_decide_eq_true (List.all_eq_true.mp hall c hc)

/-- A comment. -/
structure Comment where
  /-- What is behind the number sign. -/
  text : Text
  /-- It has no control characters. -/
  legal : ∀ c ∈ text, Visible c

/-- A character of a bare key. -/
def isBare (c : Char) : Bool := c.isAlphanum || c == '_' || c == '-'

/-- The number that hexadecimal digits stand for. -/
def hexNumber (digits : Text) : Option ℕ :=
  digits.foldlM (fun n c => (hexValue c).map (16 * n + ·)) 0

/-- An escape sequence. -/
inductive Escape
  /-- A letter or sign that stands for a character. -/
  | short (sign c : Char)
    (legal : (sign, c) ∈ [('b', '\x08'), ('t', '\t'), ('n', '\n'), ('f', '\x0C'), ('r', '\r'),
      ('"', '"'), ('\\', '\\')])
  /-- The number of a character in four or eight digits. -/
  | unicode (digits : Text) (c : Char)
    (legal : (digits.length = 4 ∨ digits.length = 8) ∧ hexNumber digits = some c.toNat)

/-- How an escape sequence is written. -/
def Escape.text : Escape → Text
  | .short sign _ _ => ['\\', sign]
  | .unicode digits _ _ => '\\' :: (if digits.length = 4 then 'u' else 'U') :: digits

/-- What an escape sequence stands for. -/
def Escape.char : Escape → Char
  | .short _ c _ => c
  | .unicode _ c _ => c

/-- A part of a string. -/
inductive Piece
  /-- A character that stands for itself. -/
  | char (c : Char) (legal : Visible c)
  /-- A line ending. -/
  | newline (n : Newline)
  /-- An escape sequence. -/
  | escape (e : Escape)
  /-- A backslash at the end of a line: the whitespace behind it does not count. -/
  | fold (blank : Blank) (n : Newline)

/-- How a part is written. -/
def Piece.text : Piece → Text
  | .char c _ => [c]
  | .newline n => n.text
  | .escape e => e.text
  | .fold blank n => '\\' :: blank.text ++ n.text

/-- What parts stand for, where whitespace may not count. -/
def Piece.meaning : Bool → List Piece → Text
  | _, [] => []
  | folding, .char c _ :: pieces =>
    if folding ∧ (c = ' ' ∨ c = '\t') then meaning folding pieces else c :: meaning false pieces
  | folding, .newline _ :: pieces =>
    if folding then meaning folding pieces else '\n' :: meaning false pieces
  | _, .escape e :: pieces => e.char :: meaning false pieces
  | _, .fold _ _ :: pieces => meaning true pieces

/-- The kinds of strings. -/
inductive Kind
  /-- In quotation marks. -/
  | basic
  /-- In apostrophes. -/
  | literal
  /-- In three quotation marks. -/
  | multiBasic
  /-- In three apostrophes. -/
  | multiLiteral
  deriving DecidableEq

/-- The mark around a string. -/
def Kind.mark : Kind → Char
  | .basic | .multiBasic => '"'
  | .literal | .multiLiteral => '\x27'

/-- Whether a string may go over several lines. -/
def Kind.isMulti : Kind → Bool
  | .basic | .literal => false
  | .multiBasic | .multiLiteral => true

/-- What stands before and behind a string. -/
def Kind.delimiter (kind : Kind) : Text := if kind.isMulti then [kind.mark, kind.mark, kind.mark]
  else [kind.mark]

/-- Whether a part may stand in a string of a kind. -/
def Kind.Allows (kind : Kind) : Piece → Prop
  | .char c _ => (kind.mark = '"' → c ≠ '\\') ∧ (kind.isMulti = false → c ≠ kind.mark)
  | .newline _ => kind.isMulti = true
  | .escape _ => kind.mark = '"'
  | .fold _ _ => kind = .multiBasic

/-- A string as it is written. -/
structure StringLit where
  /-- The kind. -/
  kind : Kind
  /-- The parts. -/
  pieces : List Piece
  /-- Every part is allowed. -/
  allowed : ∀ piece ∈ pieces, kind.Allows piece
  /-- No run of marks ends the string. -/
  runs : ¬ [[kind.mark], [kind.mark], [kind.mark]] <:+: pieces.map Piece.text

/-- How a string is written. -/
def StringLit.text (s : StringLit) : Text :=
  s.kind.delimiter ++ s.pieces.flatMap Piece.text ++ s.kind.delimiter

/-- What a string stands for: a line ending right behind the delimiter does not count. -/
def StringLit.meaning (s : StringLit) : Text :=
  match s.pieces with
  | .newline _ :: pieces => Piece.meaning false pieces
  | pieces => Piece.meaning false pieces

/-- The string in quotation marks of a text that needs no escape sequence. -/
def StringLit.plain (text : Text) (legal : ∀ c ∈ text, Visible c)
    (clean : ∀ c ∈ text, c ≠ '"' ∧ c ≠ '\\') : StringLit where
  kind := .basic
  pieces := text.pmap Piece.char legal
  allowed := by
    intro piece hpiece
    obtain ⟨c, hc, rfl⟩ := List.mem_pmap.mp hpiece
    exact ⟨fun _ => (clean c hc).2, fun _ => (clean c hc).1⟩
  runs := by
    intro hinfix
    have hmark : [Kind.basic.mark] ∈ (text.pmap Piece.char legal).map Piece.text :=
      hinfix.subset List.mem_cons_self
    obtain ⟨piece, hpiece, hmark⟩ := List.mem_map.mp hmark
    obtain ⟨c, hc, rfl⟩ := List.mem_pmap.mp hpiece
    exact (clean c hc).1 (List.singleton_inj.mp hmark)

/-- A simple key. -/
inductive KeyPart
  /-- A bare key. -/
  | bare (name : Text) (legal : name ≠ [] ∧ ∀ c ∈ name, isBare c = true)
  /-- A quoted key. -/
  | quoted (s : StringLit) (legal : s.kind.isMulti = false)

/-- How a simple key is written. -/
def KeyPart.text : KeyPart → Text
  | .bare name _ => name
  | .quoted s _ => s.text

/-- What a simple key names. -/
def KeyPart.name : KeyPart → Text
  | .bare name _ => name
  | .quoted s _ => s.meaning

/-- A key, with the dots and the blanks around them. -/
structure Key where
  /-- The first simple key. -/
  first : KeyPart
  /-- The others, each behind a dot. -/
  rest : List (Blank × Blank × KeyPart)

/-- How a key is written. -/
def Key.text (key : Key) : Text :=
  key.first.text ++ key.rest.flatMap fun (before, after, part) =>
    before.text ++ '.' :: after.text ++ part.text

/-- A path of names. -/
abbrev NamePath := List Text

/-- What a key names. -/
def Key.path (key : Key) : NamePath := key.first.name :: key.rest.map fun (_, _, part) => part.name

/-- A number, a boolean or a date: only its characters are described. -/
structure Scalar where
  /-- The characters. -/
  text : Text
  /-- The characters of such values. -/
  legal : text ≠ [] ∧ ∀ c ∈ text, c.isAlphanum ∨ c ∈ ['+', '-', '_', '.', ':', ' ']

/-- What may stand between the values of an array. -/
structure Gap where
  /-- The lines that end there. -/
  lines : List (Blank × Option Comment × Newline)
  /-- The blanks behind them. -/
  last : Blank

/-- How a comment is written, if there is one. -/
def commentText (comment : Option Comment) : Text :=
  match comment with
  | none => []
  | some c => '#' :: c.text

/-- How a gap is written. -/
def Gap.text (gap : Gap) : Text :=
  (gap.lines.flatMap fun (blank, comment, n) => blank.text ++ commentText comment ++ n.text) ++
    gap.last.text

/-! ### Values -/

mutual

/-- A value as it is written. -/
inductive Value
  /-- A string. -/
  | string (s : StringLit)
  /-- A number, a boolean or a date. -/
  | scalar (s : Scalar)
  /-- An array. -/
  | array (items : Items)
  /-- An inline table without entries. -/
  | empty (blank : Blank)
  /-- An inline table. -/
  | inlineTable (entries : Entries)

/-- What stands between the brackets of an array. -/
inductive Items
  /-- Nothing more. -/
  | done (gap : Gap)
  /-- A last value. -/
  | last (before : Gap) (value : Value) (after : Gap)
  /-- A value and a comma. -/
  | more (before : Gap) (value : Value) (after : Gap) (items : Items)

/-- What stands between the braces of an inline table. -/
inductive Entries
  /-- The last entry. -/
  | last (before : Blank) (key : Key) (left right : Blank) (value : Value) (after : Blank)
  /-- An entry and a comma. -/
  | more (before : Blank) (key : Key) (left right : Blank) (value : Value) (after : Blank)
    (entries : Entries)

end

mutual

/-- How a value is written. -/
def Value.text : Value → Text
  | .string s => s.text
  | .scalar s => s.text
  | .array items => '[' :: items.text ++ [']']
  | .empty blank => '{' :: blank.text ++ ['}']
  | .inlineTable entries => '{' :: entries.text ++ ['}']

/-- How the values of an array are written. -/
def Items.text : Items → Text
  | .done gap => gap.text
  | .last before value after => before.text ++ value.text ++ after.text
  | .more before value after items => before.text ++ value.text ++ after.text ++ ',' :: items.text

/-- How the entries of an inline table are written. -/
def Entries.text : Entries → Text
  | .last before key left right value after =>
    before.text ++ key.text ++ left.text ++ '=' :: right.text ++ value.text ++ after.text
  | .more before key left right value after entries =>
    before.text ++ key.text ++ left.text ++ '=' :: right.text ++ value.text ++ after.text ++
      ',' :: entries.text

end

/-- What is defined at a path. -/
inductive Leaf
  /-- A string. -/
  | string (s : Text)
  /-- A table. -/
  | table
  /-- Anything else. -/
  | other
  deriving DecidableEq

/-- The string, if it is one. -/
def Leaf.asString : Leaf → Option Text
  | .string s => some s
  | _ => none

mutual

/-- What a value at a path defines. -/
def Value.defs (path : NamePath) : Value → List (NamePath × Leaf)
  | .string s => [(path, .string s.meaning)]
  | .scalar _ => [(path, .other)]
  | .array _ => [(path, .other)]
  | .empty _ => [(path, .table)]
  | .inlineTable entries => (path, .table) :: entries.defs path

/-- What the entries of an inline table at a path define. -/
def Entries.defs (path : NamePath) : Entries → List (NamePath × Leaf)
  | .last _ key _ _ value _ => value.defs (path ++ key.path)
  | .more _ key _ _ value _ entries => value.defs (path ++ key.path) ++ entries.defs path

end

/-! ### Documents -/

/-- The header of a table. -/
structure Header where
  /-- Whether it is one of an array of tables. -/
  array : Bool
  /-- The blanks before the key. -/
  before : Blank
  /-- The key. -/
  key : Key
  /-- The blanks behind it. -/
  after : Blank

/-- How a header is written. -/
def Header.text (h : Header) : Text :=
  let (opening, closing) := if h.array then (['[', '['], [']', ']']) else (['['], [']'])
  opening ++ h.before.text ++ h.key.text ++ h.after.text ++ closing

/-- What an expression says. -/
inductive Content
  /-- Nothing. -/
  | blank
  /-- A header. -/
  | header (h : Header)
  /-- A key and its value. -/
  | keyval (key : Key) (left right : Blank) (value : Value)

/-- How it is written. -/
def Content.text : Content → Text
  | .blank => []
  | .header h => h.text
  | .keyval key left right value => key.text ++ left.text ++ '=' :: right.text ++ value.text

/-- An expression: what stands on one line, or on several where a value goes over them. -/
structure Expr where
  /-- The blanks before it. -/
  indent : Blank
  /-- What it says. -/
  content : Content
  /-- The blanks behind it. -/
  trail : Blank
  /-- The comment behind it. -/
  comment : Option Comment

/-- How an expression is written. -/
def Expr.text (e : Expr) : Text :=
  e.indent.text ++ e.content.text ++ e.trail.text ++ commentText e.comment

/-- The lines of an expression, trimmed. -/
def Expr.lines (e : Expr) : List Text := (betweenFeeds e.text).map trim

/-- A document. -/
structure Document where
  /-- The expressions that end a line. -/
  ended : List (Expr × Newline)
  /-- The last expression. -/
  last : Expr

namespace Document

variable (doc : Document)

/-- The expressions. -/
def exprs : List Expr := doc.ended.map Prod.fst ++ [doc.last]

/-- The text. -/
def text : Text := (doc.ended.flatMap fun (e, n) => e.text ++ n.text) ++ doc.last.text

/-- The lines, trimmed. -/
def lines : List Text := doc.exprs.flatMap Expr.lines

/-- The paths of the arrays of tables. -/
def arrays : List NamePath :=
  doc.exprs.filterMap fun e =>
    match e.content with
    | .header h => if h.array then some h.key.path else none
    | _ => none

end Document

/-- A definition of a document. -/
structure Definition where
  /-- The number of lines before its expression. -/
  line : ℕ
  /-- The path. -/
  path : NamePath
  /-- What is defined. -/
  leaf : Leaf

/-- Whether a path leads into the tables of an array. -/
def isBelow (arrays : List NamePath) (path : NamePath) : Bool :=
  arrays.any fun array => array.isPrefixOf path && array != path

/-- The table that the expressions behind a header belong to. The tables of an array have no
path. -/
def Header.table (arrays : List NamePath) (h : Header) : Option NamePath :=
  if h.array || isBelow arrays h.key.path then none else some h.key.path

/-- The table that the expressions behind an expression belong to. -/
def Expr.tableAfter (arrays : List NamePath) (table : Option NamePath) (e : Expr) :
    Option NamePath :=
  match e.content with
  | .header h => h.table arrays
  | _ => table

/-- What an expression defines in a table. -/
def Expr.defs (arrays : List NamePath) (table : Option NamePath) (e : Expr) :
    List (NamePath × Leaf) :=
  match e.content with
  | .blank => []
  | .header h =>
    if isBelow arrays h.key.path then []
    else [(h.key.path, if h.array then .other else .table)]
  | .keyval key _ _ value =>
    match table with
    | none => []
    | some path => value.defs (path ++ key.path)

/-- What expressions define, behind a number of lines and in a table. -/
def definitions (arrays : List NamePath) : ℕ → Option NamePath → List Expr → List Definition
  | _, _, [] => []
  | n, table, e :: es =>
    ((e.defs arrays table).map fun (path, leaf) => ⟨n, path, leaf⟩) ++
      definitions arrays (n + e.lines.length) (e.tableAfter arrays table) es

namespace Document

variable (doc : Document)

/-- What a document defines. -/
def defs : List Definition := definitions doc.arrays 0 (some []) doc.exprs

/-- What is defined at a path. -/
def definition (path : NamePath) : Option Definition := doc.defs.find? fun d => d.path = path

/-- The string at a path. -/
def string (path : NamePath) : Option Text := (doc.definition path).bind (·.leaf.asString)

/-- Whether there is a table at a path: it is defined, or something is defined in it. -/
def HasTable (path : NamePath) : Prop :=
  ∃ d ∈ doc.defs, d.path = path ∧ d.leaf = .table ∨ path <+: d.path ∧ path ≠ d.path

end Document

/-! ### The lines of a document -/

/-- Blanks are whitespace. -/
theorem Blank.isWhitespace (blank : Blank) : ∀ c ∈ blank.text, isWhitespace c = true := by
  intro c hc
  rcases blank.legal c hc with rfl | rfl <;> decide

/-- Blanks do not end a line. -/
theorem Blank.notMem (blank : Blank) : '\n' ∉ blank.text := by
  intro hfeed
  rcases blank.legal _ hfeed with h | h <;> cases h

/-- A visible character does not end a line. -/
theorem Visible.ne_feed {c : Char} (hvisible : Visible c) : c ≠ '\n' := by
  rintro rfl
  revert hvisible
  decide

/-- Comments do not end a line. -/
theorem notMem_commentText (comment : Option Comment) : '\n' ∉ commentText comment := by
  cases comment with
  | none => exact List.not_mem_nil
  | some c =>
    intro hfeed
    rcases List.mem_cons.mp hfeed with h | h
    · cases h
    · exact (c.legal _ h).ne_feed rfl

/-- Hexadecimal digits do not end a line. -/
theorem notMem_of_hexNumber {digits : Text} {n : ℕ} (hnumber : hexNumber digits = some n) :
    '\n' ∉ digits := by
  have hfold {start m : ℕ} {ds : Text}
      (hm : ds.foldlM (fun n c => (hexValue c).map (16 * n + ·)) start = some m) : '\n' ∉ ds := by
    induction ds generalizing start with
    | nil => exact List.not_mem_nil
    | cons c ds ih =>
      rw [List.foldlM_cons] at hm
      obtain ⟨next, hnext, hrest⟩ := Option.bind_eq_some_iff.mp hm
      rw [List.mem_cons, not_or]
      refine ⟨?_, ih hrest⟩
      rintro rfl
      cases hnext
  exact hfold hnumber

/-- Escape sequences do not end a line. -/
theorem Escape.notMem (e : Escape) : '\n' ∉ e.text := by
  cases e with
  | short sign c legal =>
    intro hfeed
    rcases List.mem_cons.mp hfeed with h | h
    · cases h
    · rw [← List.mem_singleton.mp h] at legal
      simp at legal
  | unicode digits c legal =>
    intro hfeed
    rcases List.mem_cons.mp hfeed with h | h
    · cases h
    rcases List.mem_cons.mp h with h | h
    · split_ifs at h <;> cases h
    · exact notMem_of_hexNumber legal.2 h

/-- A string of one line does not end it. -/
theorem StringLit.notMem {s : StringLit} (hsingle : s.kind.isMulti = false) : '\n' ∉ s.text := by
  have hmark : '\n' ∉ s.kind.delimiter := by
    cases s.kind <;> decide
  have hpieces : '\n' ∉ s.pieces.flatMap Piece.text := by
    intro hfeed
    obtain ⟨piece, hpiece, hmem⟩ := List.mem_flatMap.mp hfeed
    have hallowed := s.allowed piece hpiece
    cases piece with
    | char c legal =>
      exact legal.ne_feed (List.mem_singleton.mp hmem).symm
    | newline n =>
      rw [Kind.Allows, hsingle] at hallowed
      cases hallowed
    | escape e => exact e.notMem hmem
    | fold blank n =>
      rw [Kind.Allows] at hallowed
      rw [hallowed] at hsingle
      cases hsingle
  unfold text
  rw [List.mem_append, List.mem_append]
  exact not_or.mpr ⟨not_or.mpr ⟨hmark, hpieces⟩, hmark⟩

/-- A string begins with its mark. -/
theorem StringLit.exists_text (s : StringLit) : ∃ t, s.text = s.kind.mark :: t := by
  unfold text Kind.delimiter
  cases s.kind.isMulti
  · exact ⟨_, rfl⟩
  · exact ⟨_, rfl⟩

/-- A bare character does not end a line. -/
theorem ne_feed_of_isBare {c : Char} (hbare : isBare c = true) : c ≠ '\n' := by
  rintro rfl
  revert hbare
  decide

/-- A bare character is visible. -/
theorem isWhitespace_of_isBare {c : Char} (hbare : isBare c = true) : isWhitespace c = false := by
  have hrange : 45 ≤ c.toNat ∧ c.toNat ≤ 122 := by
    unfold isBare at hbare
    rw [Bool.or_eq_true, Bool.or_eq_true, beq_iff_eq, beq_iff_eq] at hbare
    rcases hbare with (halnum | rfl) | rfl
    · simp only [Char.isAlphanum, Char.isAlpha, Char.isUpper, Char.isLower, Char.isDigit,
        Bool.or_eq_true, Bool.and_eq_true, decide_eq_true_eq, ge_iff_le,
        UInt32.le_iff_toNat_le] at halnum
      change 45 ≤ c.val.toNat ∧ c.val.toNat ≤ 122
      have hA : 'A'.val.toNat = 65 := rfl
      have hZ : 'Z'.val.toNat = 90 := rfl
      have ha : 'a'.val.toNat = 97 := rfl
      have hz : 'z'.val.toNat = 122 := rfl
      have h0 : '0'.val.toNat = 48 := rfl
      have h9 : '9'.val.toNat = 57 := rfl
      omega
    · decide
    · decide
  unfold isWhitespace
  simp only [Bool.or_eq_false_iff, Bool.and_eq_false_iff, decide_eq_false_iff_not,
    beq_eq_false_iff_ne]
  omega

/-- Keys do not end a line. -/
theorem Key.notMem (key : Key) : '\n' ∉ key.text := by
  have hpart (part : KeyPart) : '\n' ∉ part.text := by
    cases part with
    | bare name legal => exact fun hfeed => ne_feed_of_isBare (legal.2 _ hfeed) rfl
    | quoted s legal => exact StringLit.notMem legal
  unfold text
  rw [List.mem_append, not_or]
  refine ⟨hpart _, fun hfeed => ?_⟩
  obtain ⟨⟨before, after, part⟩, -, hmem⟩ := List.mem_flatMap.mp hfeed
  rcases List.mem_append.mp hmem with hmem | hmem
  · rcases List.mem_append.mp hmem with hmem | hmem
    · exact before.notMem hmem
    rcases List.mem_cons.mp hmem with hmem | hmem
    · cases hmem
    · exact after.notMem hmem
  · exact hpart part hmem

/-- Headers do not end a line. -/
theorem Header.notMem (h : Header) : '\n' ∉ h.text := by
  unfold text
  cases h.array <;>
    simp [h.before.notMem, h.key.notMem, h.after.notMem]

/-- A key begins with a bare character or with the mark of a string. -/
theorem Key.exists_text (key : Key) :
    ∃ c t, key.text = c :: t ∧ (isBare c = true ∨ c = '"' ∨ c = '\x27') := by
  unfold text
  cases key.first with
  | bare name legal =>
    obtain ⟨c, name', rfl⟩ := List.exists_cons_of_ne_nil legal.1
    exact ⟨c, _, rfl, .inl (legal.2 c List.mem_cons_self)⟩
  | quoted s legal =>
    obtain ⟨t, ht⟩ := s.exists_text
    rw [KeyPart.text, ht]
    refine ⟨s.kind.mark, _, rfl, .inr ?_⟩
    cases s.kind
    · exact .inl rfl
    · exact .inr rfl
    · exact .inl rfl
    · exact .inr rfl

/-- A header is on one line. -/
theorem Expr.lines_header {e : Expr} {h : Header} (hheader : e.content = .header h) :
    e.lines = [trim (h.text ++ (e.trail.text ++ commentText e.comment))] := by
  have htext : e.text = e.indent.text ++ (h.text ++ (e.trail.text ++ commentText e.comment)) := by
    unfold text
    rw [hheader, Content.text]
    simp only [List.append_assoc]
  have hfeed : '\n' ∉ e.text := by
    rw [htext]
    simp [e.indent.notMem, h.notMem, e.trail.notMem, notMem_commentText]
  unfold lines
  rw [betweenFeeds_of_notMem hfeed, htext, List.map_singleton,
    trim_append_of_forall e.indent.isWhitespace]

/-- The trimmed lines of a document are those of its expressions. -/
theorem Document.map_trim_betweenFeeds (doc : Document) :
    (betweenFeeds doc.text).map trim = doc.lines := by
  have hended (es : List (Expr × Newline)) (rest : Text) :
      (betweenFeeds ((es.flatMap fun (e, n) => e.text ++ n.text) ++ rest)).map trim =
        (es.map Prod.fst).flatMap Expr.lines ++ (betweenFeeds rest).map trim := by
    induction es with
    | nil => rfl
    | cons e es ih =>
      obtain ⟨e, n⟩ := e
      rw [List.flatMap_cons, List.map_cons, List.flatMap_cons, List.append_assoc,
        List.append_assoc, List.append_assoc (Expr.lines e), ← ih]
      cases n with
      | lf =>
        rw [Newline.text, List.singleton_append, betweenFeeds_append, List.map_append]
        rfl
      | crlf =>
        have hreturn (t : Text) :
            e.text ++ (['\r', '\n'] ++ t) = (e.text ++ ['\r']) ++ '\n' :: t := by
          rw [List.append_assoc]
          rfl
        rw [Newline.text, hreturn, betweenFeeds_append, List.map_append,
          map_trim_betweenFeeds_return]
        rfl
  unfold text lines exprs
  rw [hended, List.flatMap_append, List.flatMap_singleton]
  rfl

/-! ### Tables -/

/-- What an expression defines in every table is defined by the document. -/
theorem exists_mem_definitions {arrays : List NamePath} {e : Expr} {path : NamePath} {leaf : Leaf}
    (hdefs : ∀ table, (path, leaf) ∈ e.defs arrays table) {es : List Expr} (he : e ∈ es) (n : ℕ)
    (table : Option NamePath) :
    ∃ d ∈ definitions arrays n table es, d.path = path ∧ d.leaf = leaf := by
  induction es generalizing n table with
  | nil => cases he
  | cons first es ih =>
    rw [definitions]
    rcases List.mem_cons.mp he with rfl | he
    · refine ⟨⟨n, path, leaf⟩, List.mem_append_left _ ?_, rfl, rfl⟩
      exact List.mem_map.mpr ⟨(path, leaf), hdefs table, rfl⟩
    · obtain ⟨d, hd, hpath, hleaf⟩ := ih he (n + first.lines.length)
        (first.tableAfter arrays table)
      exact ⟨d, List.mem_append_right _ hd, hpath, hleaf⟩

/-- An array of tables has a header. -/
theorem Document.exists_of_mem_arrays {doc : Document} {path : NamePath}
    (hpath : path ∈ doc.arrays) :
    ∃ e ∈ doc.exprs, ∃ h, e.content = .header h ∧ h.array = true ∧ h.key.path = path := by
  unfold arrays at hpath
  obtain ⟨e, he, hmatch⟩ := List.mem_filterMap.mp hpath
  cases hcontent : e.content with
  | blank =>
    rw [hcontent] at hmatch
    cases hmatch
  | keyval key left right value =>
    rw [hcontent] at hmatch
    cases hmatch
  | header h =>
    rw [hcontent] at hmatch
    dsimp only at hmatch
    cases harray : h.array with
    | false =>
      rw [harray] at hmatch
      cases hmatch
    | true =>
      rw [harray, if_pos rfl] at hmatch
      exact ⟨e, he, h, hcontent, harray, Option.some.inj hmatch⟩

/-- A header whose key begins with a name makes a table of that name, unless the name is that of
an array. The induction goes to the headers of the arrays that a header is below. -/
theorem Document.hasTable_of_header {doc : Document} {name : Text} {e : Expr} {h : Header}
    (he : e ∈ doc.exprs) (hheader : e.content = .header h)
    (hname : h.key.path.head? = some name) (harrays : [name] ∉ doc.arrays) :
    doc.HasTable [name] := by
  induction hlength : h.key.path.length using Nat.strong_induction_on generalizing e h with
  | _ n ih =>
    by_cases hbelow : isBelow doc.arrays h.key.path = true
    · obtain ⟨array, hmem, hbegins⟩ := List.any_eq_true.mp hbelow
      rw [Bool.and_eq_true, List.isPrefixOf_iff_prefix, bne_iff_ne] at hbegins
      obtain ⟨e', he', h', hheader', -, hpath⟩ := exists_of_mem_arrays hmem
      have hshorter : h'.key.path.length < n := by
        rw [hpath, ← hlength]
        refine lt_of_le_of_ne hbegins.1.length_le fun heq => hbegins.2 ?_
        exact hbegins.1.eq_of_length heq
      have hhead : h'.key.path.head? = some name := by
        rw [← hname]
        obtain ⟨rest, hrest⟩ := hbegins.1
        rw [← hrest, ← hpath]
        rfl
      exact ih _ hshorter he' hheader' hhead rfl
    · have hdefs (table : Option NamePath) :
          (h.key.path, if h.array then Leaf.other else .table) ∈ e.defs doc.arrays table := by
        rw [Expr.defs, hheader]
        dsimp only
        rw [if_neg hbelow]
        exact List.mem_singleton_self _
      obtain ⟨d, hd, hpath, hleaf⟩ := exists_mem_definitions hdefs he 0 (some [])
      refine ⟨d, hd, ?_⟩
      rw [hpath, hleaf]
      by_cases hwhole : h.key.path = [name]
      · left
        refine ⟨hwhole, ?_⟩
        rw [if_neg]
        intro harray
        refine harrays (List.mem_filterMap.mpr ⟨e, he, ?_⟩)
        rw [hheader]
        dsimp only
        rw [if_pos harray, hwhole]
      · right
        refine ⟨?_, Ne.symm hwhole⟩
        rw [List.singleton_prefix_iff_head?_eq_some]
        exact hname

/-! ### Plain spellings -/

/-- Names with dots between them. -/
def dotted : NamePath → Text
  | [] => []
  | name :: names => name ++ names.flatMap ('.' :: ·)

/-- A name that may be a bare key. -/
def IsBareName (name : Text) : Prop := name ≠ [] ∧ ∀ c ∈ name, isBare c = true

/-- A simple key is a bare name. -/
def KeyPart.Spells (part : KeyPart) (name : Text) : Prop := ∃ legal, part = .bare name legal

/-- A later part of a key is a bare name right behind its dot, and the dot has no blank before
it. -/
def PartSpells (entry : Blank × Blank × KeyPart) (name : Text) : Prop :=
  entry.1.text = [] ∧ entry.2.1.text = [] ∧ entry.2.2.Spells name

/-- A key is written as bare names with nothing but dots between them. -/
def Key.Spells (key : Key) : NamePath → Prop
  | [] => False
  | name :: names => key.first.Spells name ∧ List.Forall₂ PartSpells key.rest names

/-- A header is written as the names of one table between brackets. -/
structure Header.Spells (h : Header) (path : NamePath) : Prop where
  /-- It belongs to no array. -/
  single : h.array = false
  /-- No blank stands before the key. -/
  before : h.before.text = []
  /-- The key is written plainly. -/
  key : h.key.Spells path
  /-- No blank stands behind it. -/
  after : h.after.text = []

/-- A plainly written simple key names what it spells. -/
theorem KeyPart.Spells.name_eq {part : KeyPart} {name : Text} (h : part.Spells name) :
    part.name = name := by
  obtain ⟨legal, rfl⟩ := h
  rfl

/-- A plainly written key leads along the path that it spells. -/
theorem Key.Spells.path_eq {key : Key} {path : NamePath} (h : key.Spells path) :
    key.path = path := by
  cases path with
  | nil => exact h.elim
  | cons name names =>
    obtain ⟨hfirst, hrest⟩ := h
    have hnames {entries : List (Blank × Blank × KeyPart)} {names : List Text}
        (hall : List.Forall₂ PartSpells entries names) :
        entries.map (fun (_, _, part) => part.name) = names := by
      induction hall with
      | nil => rfl
      | cons hpart _ ih =>
        rw [List.map_cons, ih]
        exact congrArg (· :: _) hpart.2.2.name_eq
    rw [path, hfirst.name_eq, hnames hrest]

/-- Bare characters end where another character stands. -/
theorem bare_append_inj {a b s t : Text} (ha : ∀ c ∈ a, isBare c = true)
    (hb : ∀ c ∈ b, isBare c = true) (hs : ∀ c, s.head? = some c → isBare c = false)
    (ht : ∀ c, t.head? = some c → isBare c = false) (heq : a ++ s = b ++ t) : a = b ∧ s = t := by
  have htake {x y : Text} (hx : ∀ c ∈ x, isBare c = true)
      (hy : ∀ c, y.head? = some c → isBare c = false) : (x ++ y).takeWhile isBare = x := by
    rw [List.takeWhile_append_of_pos hx]
    cases y with
    | nil => exact List.append_nil x
    | cons c y =>
      rw [List.takeWhile_cons_of_neg (by simp [hy c rfl]), List.append_nil]
  have hab : a = b := by rw [← htake ha hs, heq, htake hb ht]
  subst hab
  exact ⟨rfl, List.append_cancel_left heq⟩

/-- Blanks in front of a visible character are determined. -/
theorem Blank.append_eq_cons {blank : Blank} {t t' : Text} {c : Char}
    (hc : ModalRust.isWhitespace c = false) (heq : blank.text ++ t = c :: t') :
    blank.text = [] ∧ t = c :: t' := by
  cases hblank : blank.text with
  | nil =>
    rw [hblank] at heq
    exact ⟨rfl, heq⟩
  | cons b rest =>
    rw [hblank] at heq
    have hb := blank.isWhitespace b (by rw [hblank]; exact List.mem_cons_self)
    rw [(List.cons.inj heq).1, hc] at hb
    cases hb

/-- Blanks and a simple key in front of what does not continue it. -/
theorem append_part_eq_iff {blank : Blank} {part : KeyPart} {name s t : Text}
    (hname : IsBareName name) (hs : ∀ c, s.head? = some c → isBare c = false)
    (ht : ∀ c, t.head? = some c → isBare c = false) :
    blank.text ++ (part.text ++ s) = name ++ t ↔
      blank.text = [] ∧ part.Spells name ∧ s = t := by
  constructor
  · intro heq
    obtain ⟨c, more, rfl⟩ := List.exists_cons_of_ne_nil hname.1
    have hc : isBare c = true := hname.2 c List.mem_cons_self
    obtain ⟨hblank, hpart⟩ := Blank.append_eq_cons (isWhitespace_of_isBare hc) heq
    cases part with
    | quoted lit legal =>
      obtain ⟨text, htext⟩ := lit.exists_text
      rw [KeyPart.text, htext] at hpart
      rw [← (List.cons.inj hpart).1] at hc
      cases hkind : lit.kind <;> rw [hkind] at hc <;> exact absurd hc (by decide)
    | bare name' legal =>
      obtain ⟨rfl, hst⟩ := bare_append_inj legal.2 hname.2 hs ht hpart
      exact ⟨hblank, ⟨legal, rfl⟩, hst⟩
  · rintro ⟨hblank, ⟨legal, rfl⟩, rfl⟩
    rw [hblank]
    rfl

/-- What is behind the first simple key of a header. -/
def behindFirst (rest : List (Blank × Blank × KeyPart)) (after : Blank) : Text :=
  (rest.flatMap fun (before, after, part) => before.text ++ '.' :: after.text ++ part.text) ++
    (after.text ++ [']'])

/-- It does not continue the key. -/
theorem isBare_head_behindFirst (rest : List (Blank × Blank × KeyPart)) (after : Blank) :
    ∀ c, (behindFirst rest after).head? = some c → isBare c = false := by
  have hblank (blank : Blank) {d : Char} (hd : isBare d = false) (t : Text) :
      ∀ c, (blank.text ++ d :: t).head? = some c → isBare c = false := by
    intro c hc
    cases htext : blank.text with
    | nil =>
      rw [htext] at hc
      rw [← Option.some.inj hc]
      exact hd
    | cons b more =>
      rw [htext] at hc
      rw [← Option.some.inj hc]
      rcases blank.legal b (by rw [htext]; exact List.mem_cons_self) with rfl | rfl <;> decide
  unfold behindFirst
  cases rest with
  | nil => exact hblank after (by decide) []
  | cons entry more =>
    obtain ⟨before, after', part⟩ := entry
    rw [List.flatMap_cons]
    simp only [List.append_assoc, List.cons_append]
    exact hblank before (by decide) _

/-- Neither do the other names of a path. -/
theorem isBare_head_names (names : NamePath) :
    ∀ c, (names.flatMap ('.' :: ·) ++ [']']).head? = some c → isBare c = false := by
  intro c hc
  cases names with
  | nil =>
    rw [← Option.some.inj hc]
    decide
  | cons name names =>
    rw [← Option.some.inj hc]
    decide

/-- Behind the first simple key, a header is written plainly if the names stand there. -/
theorem behindFirst_eq_iff {rest : List (Blank × Blank × KeyPart)} {after : Blank}
    {names : NamePath} (hbare : ∀ name ∈ names, IsBareName name) :
    behindFirst rest after = names.flatMap ('.' :: ·) ++ [']'] ↔
      List.Forall₂ PartSpells rest names ∧ after.text = [] := by
  induction rest generalizing names with
  | nil =>
    change after.text ++ [']'] = _ ↔ _
    cases names with
    | nil =>
      constructor
      · intro h
        exact ⟨.nil, (Blank.append_eq_cons (by decide) h).1⟩
      · rintro ⟨-, h⟩
        rw [h]
        rfl
    | cons name names =>
      constructor
      · intro h
        obtain ⟨-, h'⟩ := Blank.append_eq_cons (c := '.') (by decide) h
        cases h'
      · rintro ⟨h, -⟩
        cases h
  | cons entry rest ih =>
    obtain ⟨before, after', part⟩ := entry
    have htext : behindFirst ((before, after', part) :: rest) after =
        before.text ++ '.' :: (after'.text ++ (part.text ++ behindFirst rest after)) := by
      unfold behindFirst
      rw [List.flatMap_cons]
      simp only [List.append_assoc, List.cons_append]
    rw [htext]
    cases names with
    | nil =>
      constructor
      · intro h
        obtain ⟨-, h'⟩ := Blank.append_eq_cons (c := ']') (by decide) h
        cases h'
      · rintro ⟨h, -⟩
        cases h
    | cons name names =>
      have hpart : after'.text ++ (part.text ++ behindFirst rest after) =
          name ++ (names.flatMap ('.' :: ·) ++ [']']) ↔ after'.text = [] ∧ part.Spells name ∧
            List.Forall₂ PartSpells rest names ∧ after.text = [] := by
        rw [append_part_eq_iff (hbare name List.mem_cons_self) (isBare_head_behindFirst rest after)
          (isBare_head_names names), ih fun n hn => hbare n (List.mem_cons_of_mem _ hn)]
      rw [List.flatMap_cons, List.cons_append, List.cons_append, List.append_assoc]
      constructor
      · intro h
        obtain ⟨hbefore, h'⟩ := Blank.append_eq_cons (c := '.') (by decide) h
        obtain ⟨hafter, hspells, hrest, hlast⟩ := hpart.mp (List.cons.inj h').2
        exact ⟨.cons ⟨hbefore, hafter, hspells⟩ hrest, hlast⟩
      · rintro ⟨hforall, hlast⟩
        cases hforall with
        | cons hentry hrest =>
          obtain ⟨hbefore, hafter, hspells⟩ := hentry
          rw [hbefore, hpart.mpr ⟨hafter, hspells, hrest, hlast⟩]
          rfl

/-- The text of a header is that of a plainly written one only if it is written so. -/
theorem Header.text_eq_iff {h : Header} {path : NamePath} (hpath : path ≠ [])
    (hbare : ∀ name ∈ path, IsBareName name) :
    h.text = '[' :: dotted path ++ [']'] ↔ h.Spells path := by
  obtain ⟨name, names, rfl⟩ := List.exists_cons_of_ne_nil hpath
  have hname := hbare name List.mem_cons_self
  have hnames : ∀ n ∈ names, IsBareName n := fun n hn => hbare n (List.mem_cons_of_mem _ hn)
  have hsingle (harray : h.array = false) : h.text = '[' :: dotted (name :: names) ++ [']'] ↔
      h.before.text = [] ∧ h.key.first.Spells name ∧
        List.Forall₂ PartSpells h.key.rest names ∧ h.after.text = [] := by
    have htext : h.text =
        '[' :: (h.before.text ++ (h.key.first.text ++ behindFirst h.key.rest h.after)) := by
      unfold text Key.text behindFirst
      rw [harray]
      simp
    rw [htext, dotted, List.cons_append, List.append_assoc, List.cons_inj_right,
      append_part_eq_iff hname (isBare_head_behindFirst _ _) (isBare_head_names names),
      behindFirst_eq_iff hnames]
  constructor
  · intro htext
    cases harray : h.array with
    | true =>
      unfold text at htext
      rw [harray] at htext
      obtain ⟨c, more, rfl⟩ := List.exists_cons_of_ne_nil hname.1
      have hc : isBare c = true := hname.2 c List.mem_cons_self
      change '[' :: '[' :: _ = '[' :: c :: _ at htext
      rw [← (List.cons.inj (List.cons.inj htext).2).1] at hc
      exact absurd hc (by decide)
    | false =>
      obtain ⟨hbefore, hfirst, hrest, hafter⟩ := (hsingle harray).mp htext
      exact ⟨harray, hbefore, ⟨hfirst, hrest⟩, hafter⟩
  · rintro ⟨harray, hbefore, ⟨hfirst, hrest⟩, hafter⟩
    exact (hsingle harray).mpr ⟨hbefore, hfirst, hrest, hafter⟩

/-- A string is written without escape sequences and line endings. -/
def StringLit.IsVerbatim (s : StringLit) : Prop :=
  ∀ piece ∈ s.pieces, ∃ c legal, piece = .char c legal

/-- Then its characters are what it stands for, and they are on one line. -/
theorem StringLit.IsVerbatim.spec {s : StringLit} (hverbatim : s.IsVerbatim) :
    s.text = s.kind.delimiter ++ s.meaning ++ s.kind.delimiter ∧ '\n' ∉ s.meaning := by
  have hpieces {pieces : List Piece} (hall : ∀ piece ∈ pieces, ∃ c legal, piece = .char c legal) :
      pieces.flatMap Piece.text = Piece.meaning false pieces ∧
        '\n' ∉ Piece.meaning false pieces := by
    induction pieces with
    | nil => exact ⟨rfl, List.not_mem_nil⟩
    | cons piece pieces ih =>
      obtain ⟨c, legal, rfl⟩ := hall piece List.mem_cons_self
      obtain ⟨htext, hfeed⟩ := ih fun p hp => hall p (List.mem_cons_of_mem _ hp)
      rw [List.flatMap_cons, htext, Piece.meaning, if_neg (by simp), List.mem_cons, not_or]
      exact ⟨rfl, Ne.symm legal.ne_feed, hfeed⟩
  have hmeaning : s.meaning = Piece.meaning false s.pieces := by
    unfold meaning
    split
    · next pieces hpiecesEq =>
      obtain ⟨c, legal, h⟩ := hverbatim _ (by rw [hpiecesEq]; exact List.mem_cons_self)
      cases h
    · rfl
  obtain ⟨htext, hfeed⟩ := hpieces hverbatim
  rw [hmeaning, text, htext]
  exact ⟨rfl, hfeed⟩

mutual

/-- What a value defines is at its path or below. -/
theorem Value.prefix_of_mem_defs {path : NamePath} {d : NamePath × Leaf} :
    ∀ {value : Value}, d ∈ value.defs path → path <+: d.1
  | .string _, hd => by
    rw [Value.defs, List.mem_singleton] at hd
    rw [hd]
  | .scalar _, hd => by
    rw [Value.defs, List.mem_singleton] at hd
    rw [hd]
  | .array _, hd => by
    rw [Value.defs, List.mem_singleton] at hd
    rw [hd]
  | .empty _, hd => by
    rw [Value.defs, List.mem_singleton] at hd
    rw [hd]
  | .inlineTable entries, hd => by
    rw [Value.defs, List.mem_cons] at hd
    rcases hd with rfl | hd
    · exact List.prefix_rfl
    · exact Entries.prefix_of_mem_defs hd

/-- So is what the entries of an inline table define. -/
theorem Entries.prefix_of_mem_defs {path : NamePath} {d : NamePath × Leaf} :
    ∀ {entries : Entries}, d ∈ entries.defs path → path <+: d.1
  | .last _ key _ _ value _, hd => by
    rw [Entries.defs] at hd
    exact (List.prefix_append path key.path).trans (Value.prefix_of_mem_defs hd)
  | .more _ key _ _ value _ entries, hd => by
    rw [Entries.defs, List.mem_append] at hd
    rcases hd with hd | hd
    · exact (List.prefix_append path key.path).trans (Value.prefix_of_mem_defs hd)
    · exact Entries.prefix_of_mem_defs hd

end

/-- What expressions define that stand one behind another. -/
theorem definitions_append (arrays : List NamePath) (n : ℕ) (table : Option NamePath)
    (es es' : List Expr) :
    definitions arrays n table (es ++ es') = definitions arrays n table es ++
      definitions arrays (n + (es.flatMap Expr.lines).length)
        (es.foldl (Expr.tableAfter arrays) table) es' := by
  induction es generalizing n table with
  | nil => rfl
  | cons e es ih =>
    rw [List.cons_append, definitions, definitions, ih, List.append_assoc, List.flatMap_cons,
      List.length_append, List.foldl_cons, Nat.add_assoc]

end ModalRust.TomlSyntax
