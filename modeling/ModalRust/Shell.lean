import ModalRust.Text

/-!
# Words of a POSIX shell

How a POSIX shell splits a command line into words: blanks, quotes, backslashes and `&&`. A line
in which anything is redirected, expanded, piped, commented or run in the background has no words
here; a word to which pathname expansion applies is marked. The lemmas say which lines reach a
command unchanged: those without a character that means something to the shell. Nothing in this
file refers to a particular program.
-/

namespace ModalRust.Shell

/-- What a command line is split into. -/
inductive Token
  /-- A word after quote removal, and whether pathname expansion applies to it. -/
  | word (text : Text) (isPattern : Bool)
  /-- `&&`. -/
  | andIf
  deriving DecidableEq, Repr

/-- What is read from a line, with the quoting of each character. -/
inductive Lexeme
  /-- The characters of a word after quote removal, and whether each was quoted. -/
  | word (chars : List (Char × Bool))
  /-- `&&`. -/
  | andIf

/-- Where the reader of a line is. -/
inductive Mode
  /-- Outside quotes, in a word or between words. -/
  | unquoted (inWord : Bool)
  /-- Between single quotes. -/
  | single
  /-- Between double quotes. -/
  | double
  /-- After a backslash outside quotes. -/
  | escape (inWord : Bool)
  /-- After a backslash between double quotes. -/
  | doubleEscape
  /-- After the first character of `&&`. -/
  | ampersand (inWord : Bool)

/-- The characters between words. -/
def isBlank (c : Char) : Bool := c == ' ' || c == '\t'

/-- The characters that quote others. -/
def isQuote (c : Char) : Bool := c == '\\' || c == '\x27' || c == '\x22'

/-- The characters of operators and expansions, the end of a line, and the character that no
argument holds. -/
def isSpecial (c : Char) : Bool :=
  c == '|' || c == '&' || c == ';' || c == '<' || c == '>' || c == '(' || c == ')' || c == '$' ||
    c == '\x60' || c == '\n' || c == '\x00'

/-- After the start of a bracket expression: it is closed in this part of the path, and there is
a character in it. -/
def closesBracket : List (Char × Bool) → Bool
  | [] => false
  | [_] => false
  | first :: next :: rest =>
    first.1 != '/' && (next == (']', false) || closesBracket (next :: rest))

/-- Whether pathname expansion applies to a word: there is an unquoted `*`, `?` or bracket
expression, whose `!` at the start is no character of its own. -/
def isPattern : List (Char × Bool) → Bool
  | [] => false
  | (c, quoted) :: rest =>
    !quoted && (c == '*' || c == '?' || c == '[' &&
      closesBracket (if rest.head? = some ('!', false) then rest.tail else rest)) ||
    isPattern rest

/-- The characters that start a comment or a tilde expansion when they start a word. -/
def startsOther (c : Char) : Bool := c == '#' || c == '~'

/-- A character at the front of the first word. -/
def push (c : Char) (quoted : Bool) : List Lexeme → List Lexeme
  | .word chars :: lexemes => .word ((c, quoted) :: chars) :: lexemes
  | lexemes => lexemes

/-- The word that ends here, if there is one. -/
def closeWord : Bool → List Lexeme → List Lexeme
  | false, lexemes => lexemes
  | true, lexemes => .word [] :: lexemes

/-- The rest of a line. -/
def lex : Mode → Text → Option (List Lexeme)
  | .unquoted inWord, [] => some (closeWord inWord [])
  | .single, [] => none
  | .double, [] => none
  | .escape _, [] => none
  | .doubleEscape, [] => none
  | .ampersand _, [] => none
  | .unquoted inWord, c :: t =>
    if isBlank c then (lex (.unquoted false) t).map (closeWord inWord)
    else if c = '&' then lex (.ampersand inWord) t
    else if c = '\\' then lex (.escape inWord) t
    else if c = '\x27' then lex .single t
    else if c = '\x22' then lex .double t
    else if isSpecial c || (!inWord && startsOther c) then none
    else (lex (.unquoted true) t).map (push c false)
  | .single, c :: t =>
    if c = '\x27' then lex (.unquoted true) t
    else if c = '\x00' then none
    else (lex .single t).map (push c true)
  | .double, c :: t =>
    if c = '\x22' then lex (.unquoted true) t
    else if c = '\\' then lex .doubleEscape t
    else if c = '$' || c = '\x60' || c = '\x00' then none
    else (lex .double t).map (push c true)
  | .escape inWord, c :: t =>
    -- a backslash joins two lines; it quotes any other character
    if c = '\n' then lex (.unquoted inWord) t
    else if c = '\x00' then none
    else (lex (.unquoted true) t).map (push c true)
  | .doubleEscape, c :: t =>
    if c = '\n' then lex .double t
    else if c = '\x00' then none
    else if c = '$' || c = '\x60' || c = '\x22' || c = '\\' then (lex .double t).map (push c true)
    else (lex .double t).map fun lexemes => push '\\' true (push c true lexemes)
  | .ampersand inWord, c :: t =>
    if c = '&' then
      (lex (.unquoted false) t).map fun lexemes => closeWord inWord (.andIf :: lexemes)
    else none

/-- What remains after quote removal. -/
def Lexeme.token : Lexeme → Token
  | .word chars => .word (chars.map Prod.fst) (isPattern chars)
  | .andIf => .andIf

/-- The tokens of a command line, if it holds words and `&&` only. -/
def tokens (line : Text) : Option (List Token) :=
  (lex (.unquoted false) line).map fun lexemes => lexemes.map Lexeme.token

/-- A character that stands for itself in a word. -/
def isOrdinary (c : Char) : Bool := !isBlank c && !isQuote c && !isSpecial c

/-- A text that the shell reads as one word and does not change, unless it is a pattern. -/
structure Bare (w : Text) : Prop where
  /-- There is a character. -/
  ne_nil : w ≠ []
  /-- Every character stands for itself. -/
  ordinary : ∀ c ∈ w, isOrdinary c = true
  /-- The word starts no comment and no tilde expansion. -/
  head : ∀ c ∈ w.head?, startsOther c = false

/-- The characters of a text without quotes. -/
def unquoted (w : Text) : List (Char × Bool) := w.map fun c => (c, false)

/-- A text that the shell passes to a command as it is. -/
structure Plain (w : Text) : Prop extends Bare w where
  /-- No pathname expansion applies to it. -/
  no_pattern : isPattern (unquoted w) = false

/-- A token that is written as it is read. -/
def Token.Clean : Token → Prop
  | .word w pattern => Bare w ∧ pattern = isPattern (unquoted w)
  | .andIf => True

/-- A lexeme that is written as it is read. -/
def Lexeme.Clean : Lexeme → Prop
  | .word chars => ∃ w, Bare w ∧ chars = unquoted w
  | .andIf => True

/-- The characters of an unquoted text. -/
@[simp] theorem map_fst_unquoted (w : Text) : (unquoted w).map Prod.fst = w := by
  simp [unquoted, Function.comp_def]

/-! ### What passes unchanged -/

/-- The text `chunk` is read as `token`, before a blank and at the end. -/
structure LexesTo (chunk : Text) (token : Token) : Prop where
  /-- Before a blank. -/
  blank : ∀ t, tokens (chunk ++ ' ' :: t) = (tokens t).map (token :: ·)
  /-- At the end. -/
  last : tokens chunk = some [token]

/-- An ordinary character is added to the word. -/
theorem lex_ordinary {c : Char} {inWord : Bool} (hc : isOrdinary c = true)
    (hstart : inWord = false → startsOther c = false) (t : Text) :
    lex (.unquoted inWord) (c :: t) = (lex (.unquoted true) t).map (push c false) := by
  simp only [isOrdinary, Bool.and_eq_true, Bool.not_eq_true'] at hc
  obtain ⟨⟨hblank, hquote⟩, hspecial⟩ := hc
  simp only [isQuote, Bool.or_eq_false_iff, beq_eq_false_iff_ne] at hquote
  obtain ⟨⟨hslash, hsingle⟩, hdouble⟩ := hquote
  have hand : c ≠ '&' := by
    rintro rfl
    exact absurd hspecial (by decide)
  have hother : (isSpecial c || (!inWord && startsOther c)) = false := by
    cases inWord with
    | false => simp [hspecial, hstart rfl]
    | true => simp [hspecial]
  rw [lex, if_neg (by simp [hblank]), if_neg hand, if_neg hslash, if_neg hsingle, if_neg hdouble,
    if_neg (by simp [hother])]

/-- A chunk that is read as a lexeme is read as its token. -/
theorem LexesTo.of_lex {chunk : Text} {lexeme : Lexeme}
    (hblank : ∀ t, lex (.unquoted false) (chunk ++ ' ' :: t) =
      (lex (.unquoted false) t).map (lexeme :: ·))
    (hlast : lex (.unquoted false) chunk = some [lexeme]) : LexesTo chunk lexeme.token where
  blank t := by
    rw [tokens, hblank, tokens, Option.map_map, Option.map_map]
    rfl
  last := by
    rw [tokens, hlast]
    rfl

/-- A word that has begun is read to its end. -/
theorem lex_append {w : Text} (hw : ∀ c ∈ w, isOrdinary c = true) {rest : Text}
    {chars : List (Char × Bool)} {after : List Lexeme}
    (hrest : lex (.unquoted true) rest = some (.word chars :: after)) :
    lex (.unquoted true) (w ++ rest) = some (.word (unquoted w ++ chars) :: after) := by
  induction w with
  | nil => exact hrest
  | cons c w ih =>
    rw [List.cons_append, lex_ordinary (hw c (by simp)) (fun h => by cases h),
      ih fun d hd => hw d (by simp [hd])]
    rfl

/-- A bare word is read as itself. -/
theorem lexesTo_word {w : Text} (hw : Bare w) : LexesTo w (.word w (isPattern (unquoted w))) := by
  obtain ⟨c, w, rfl⟩ := List.exists_cons_of_ne_nil hw.ne_nil
  have hc := hw.ordinary c (by simp)
  have hstart := hw.head c (by simp)
  have htail : ∀ d ∈ w, isOrdinary d = true := fun d hd => hw.ordinary d (by simp [hd])
  have hlexes : LexesTo (c :: w) (Lexeme.word (unquoted (c :: w))).token := by
    refine .of_lex (fun t => ?_) ?_
    · rw [List.cons_append, lex_ordinary hc fun _ => hstart]
      have hblank : lex (.unquoted true) (' ' :: t) =
          (lex (.unquoted false) t).map (closeWord true) := rfl
      cases hlexed : lex (.unquoted false) t with
      | none =>
        -- the rest is refused wherever it is read
        rw [hlexed] at hblank
        have hnone : ∀ v : Text, (∀ d ∈ v, isOrdinary d = true) →
            lex (.unquoted true) (v ++ ' ' :: t) = none := by
          intro v hv
          induction v with
          | nil => exact hblank
          | cons d v ih =>
            rw [List.cons_append, lex_ordinary (hv d (by simp)) (fun h => by cases h),
              ih fun e he => hv e (by simp [he])]
            rfl
        rw [hnone w htail]
        rfl
      | some after =>
        rw [hlexed] at hblank
        rw [lex_append htail hblank, List.append_nil]
        rfl
    · have hend : lex (.unquoted true) [] = some (.word [] :: []) := rfl
      have hrest := lex_append htail hend
      rw [List.append_nil, List.append_nil] at hrest
      rw [lex_ordinary hc fun _ => hstart, hrest]
      rfl
  rwa [Lexeme.token, map_fst_unquoted] at hlexes

/-- A plain text is read as itself. -/
theorem lexesTo_literal {w : Text} (hw : Plain w) : LexesTo w (.word w false) := by
  have hword := lexesTo_word hw.toBare
  rwa [hw.no_pattern] at hword

/-- A concrete word is plain when its characters are, and it is no pattern. -/
theorem plain_of_all {w : Text} (hw : w ≠ [] ∧ w.all isOrdinary = true ∧
    w.head?.all (fun c => !startsOther c) = true ∧ isPattern (unquoted w) = false) : Plain w := by
  obtain ⟨hne, hall, hhead, hpattern⟩ := hw
  refine ⟨⟨hne, List.all_eq_true.mp hall, fun c hc => ?_⟩, hpattern⟩
  rw [Option.mem_def.mp hc] at hhead
  simpa using hhead

/-- A bracket that is not closed is no pattern. -/
example : Plain "numpy[extra".toList := plain_of_all (by decide)

/-- A character that stands for itself between double quotes. -/
def isVerbatim (c : Char) : Bool :=
  !(c == '\x22' || c == '\\' || c == '$' || c == '\x60' || c == '\x00')

/-- The characters of a quoted text are pushed one by one. -/
theorem lex_double_append {t : Text} (ht : ∀ c ∈ t, isVerbatim c = true) (rest : Text) :
    lex .double (t ++ '\x22' :: rest) = (lex (.unquoted true) rest).map fun lexemes =>
      t.foldr (fun c => push c true) lexemes := by
  induction t with
  | nil =>
    change lex (.unquoted true) rest = (lex (.unquoted true) rest).map id
    rw [Option.map_id, id]
  | cons c t ih =>
    have hc := ht c List.mem_cons_self
    simp only [isVerbatim, Bool.not_eq_true', Bool.or_eq_false_iff, beq_eq_false_iff_ne] at hc
    obtain ⟨⟨⟨⟨hquote, hescape⟩, hdollar⟩, htick⟩, hnul⟩ := hc
    rw [List.cons_append, lex, if_neg hquote, if_neg hescape,
      if_neg (by simp [hdollar, htick, hnul]), ih fun d hd => ht d (List.mem_cons_of_mem _ hd),
      Option.map_map]
    rfl

/-- The pushed characters are the start of the word. -/
theorem foldr_push (t : Text) (lexemes : List Lexeme) :
    t.foldr (fun c => push c true) (.word [] :: lexemes) =
      .word (t.map fun c => (c, true)) :: lexemes := by
  induction t with
  | nil => rfl
  | cons c t ih =>
    rw [List.foldr_cons, ih]
    rfl

/-- No pathname expansion applies to a quoted word. -/
theorem isPattern_quoted (t : Text) : isPattern (t.map fun c => (c, true)) = false := by
  induction t with
  | nil => rfl
  | cons c t ih => simpa [isPattern] using ih

/-- A text between double quotes is one word. -/
theorem lexesTo_quoted {t : Text} (ht : ∀ c ∈ t, isVerbatim c = true) :
    LexesTo ('\x22' :: (t ++ ['\x22'])) (.word t false) := by
  have hlexes : LexesTo ('\x22' :: (t ++ ['\x22']))
      (Lexeme.word (t.map fun c => (c, true))).token := by
    refine .of_lex (fun u => ?_) ?_
    · have hword : lex (.unquoted true) (' ' :: u) =
          (lex (.unquoted false) u).map (closeWord true) := rfl
      have hquoted := lex_double_append ht (' ' :: u)
      rw [hword, Option.map_map] at hquoted
      rw [List.cons_append, List.append_assoc]
      change lex .double (t ++ '\x22' :: ' ' :: u) = _
      rw [hquoted]
      exact congrArg (Option.map · (lex (.unquoted false) u))
        (funext fun lexemes => foldr_push t lexemes)
    · have hquoted := lex_double_append ht []
      change lex .double (t ++ ['\x22']) = _
      rw [hquoted]
      exact congrArg some (foldr_push t [])
  rwa [Lexeme.token, isPattern_quoted, List.map_map, Function.comp_def, List.map_id'] at hlexes

/-- `&&` between blanks. -/
theorem lexesTo_andIf : LexesTo "&&".toList .andIf := by
  change LexesTo _ Lexeme.andIf.token
  refine .of_lex (fun t => ?_) rfl
  have hblank : lex (.unquoted false) (' ' :: t) =
      (lex (.unquoted false) t).map (closeWord false) := rfl
  have hskip : (lex (.unquoted false) t).map (closeWord false) = lex (.unquoted false) t := by
    cases lex (.unquoted false) t <;> rfl
  change (lex (.unquoted false) (' ' :: t)).map _ = _
  rw [hblank, hskip]
  rfl

/-- **A line that is put together from chunks is read chunk by chunk.** -/
theorem tokens_intercalate {chunks : List Text} {toks : List Token}
    (hchunks : List.Forall₂ LexesTo chunks toks) :
    tokens ([' '].intercalate chunks) = some toks := by
  induction hchunks with
  | nil => rfl
  | @cons chunk token chunks toks hchunk hrest ih =>
    cases hrest with
    | nil => simpa using hchunk.last
    | @cons next token' chunks toks hnext hrest =>
      rw [List.intercalate_cons_cons, List.append_assoc, List.singleton_append, hchunk.blank, ih]
      rfl

/-! ### Nothing else passes unchanged -/

/-- The number of characters that are no blanks. -/
def solid (t : Text) : ℕ := t.countP fun c => !isBlank c

/-- The characters of a token that are no blanks. -/
def Token.weight : Token → ℕ
  | .word w _ => solid w
  | .andIf => 2

/-- The characters of tokens that are no blanks. -/
def weight (toks : List Token) : ℕ := (toks.map Token.weight).sum

/-- The characters of lexemes that are no blanks. -/
def lexWeight (lexemes : List Lexeme) : ℕ := weight (lexemes.map Lexeme.token)

/-- The weight of a word and what comes after it. -/
theorem lexWeight_word (chars : List (Char × Bool)) (after : List Lexeme) :
    lexWeight (.word chars :: after) = solid (chars.map Prod.fst) + lexWeight after := by
  simp [lexWeight, weight, Lexeme.token, Token.weight]

/-- The weight of `&&` and what comes after it. -/
theorem lexWeight_andIf (after : List Lexeme) :
    lexWeight (.andIf :: after) = lexWeight after + 2 := by
  simp only [lexWeight, weight, Lexeme.token, Token.weight, List.map_cons, List.sum_cons]
  omega

/-- The lexemes start with a word. -/
def StartsWord (lexemes : List Lexeme) : Prop := ∃ chars after, lexemes = .word chars :: after

/-- The lexemes after `n` characters that are no blanks: some of these are lost to quoting, or the
lexemes are written as they are read. -/
def Faithful : Bool → ℕ → List Lexeme → Prop
  | false, n, lexemes => lexWeight lexemes < n ∨
      lexWeight lexemes = n ∧ ∀ lexeme ∈ lexemes, lexeme.Clean
  | true, n, lexemes => ∃ chars after, lexemes = .word chars :: after ∧
      (lexWeight lexemes < n ∨ lexWeight lexemes = n ∧
        (∃ w, (∀ c ∈ w, isOrdinary c = true) ∧ chars = unquoted w) ∧
          ∀ lexeme ∈ after, lexeme.Clean)

/-- What is read in a mode. -/
def Reads : Mode → ℕ → List Lexeme → Prop
  | .unquoted inWord, n, lexemes => Faithful inWord n lexemes
  | .ampersand inWord, n, lexemes => Faithful inWord (n + 1) lexemes
  | .single, n, lexemes => StartsWord lexemes ∧ lexWeight lexemes < n
  | .double, n, lexemes => StartsWord lexemes ∧ lexWeight lexemes < n
  | .escape inWord, n, lexemes =>
    (inWord = true → StartsWord lexemes) ∧ lexWeight lexemes ≤ n
  | .doubleEscape, n, lexemes => StartsWord lexemes ∧ lexWeight lexemes ≤ n

/-- One more character. -/
theorem solid_cons (c : Char) (t : Text) :
    solid (c :: t) = solid t + if isBlank c = true then 0 else 1 := by
  unfold solid
  rw [List.countP_cons]
  cases isBlank c <;> rfl

/-- A word grows by the character that is pushed. -/
theorem weight_push (c : Char) (quoted : Bool) {lexemes : List Lexeme}
    (hlexemes : StartsWord lexemes) :
    StartsWord (push c quoted lexemes) ∧
      lexWeight (push c quoted lexemes) =
        lexWeight lexemes + if isBlank c = true then 0 else 1 := by
  obtain ⟨chars, after, rfl⟩ := hlexemes
  refine ⟨⟨_, _, rfl⟩, ?_⟩
  rw [push, lexWeight_word, lexWeight_word, List.map_cons, solid_cons]
  exact Nat.add_right_comm ..

/-- In a word, lexemes start with a word, and no character is won. -/
theorem Faithful.startsWord {n : ℕ} {lexemes : List Lexeme} (h : Faithful true n lexemes) :
    StartsWord lexemes ∧ lexWeight lexemes ≤ n := by
  obtain ⟨chars, after, rfl, hweight⟩ := h
  refine ⟨⟨chars, after, rfl⟩, ?_⟩
  rcases hweight with hlt | ⟨heq, -⟩
  · exact Nat.le_of_lt hlt
  · exact Nat.le_of_eq heq

/-- No character is won. -/
theorem Faithful.le {inWord : Bool} {n : ℕ} {lexemes : List Lexeme}
    (h : Faithful inWord n lexemes) : lexWeight lexemes ≤ n := by
  cases inWord with
  | true => exact h.startsWord.2
  | false =>
    rcases h with hlt | ⟨heq, -⟩
    · exact Nat.le_of_lt hlt
    · exact Nat.le_of_eq heq

/-- When a character is lost, only the first word matters. -/
theorem Faithful.of_lt {inWord : Bool} {n : ℕ} {lexemes : List Lexeme}
    (hstarts : inWord = true → StartsWord lexemes) (hlt : lexWeight lexemes < n) :
    Faithful inWord n lexemes := by
  cases inWord with
  | false => exact .inl hlt
  | true =>
    obtain ⟨chars, after, rfl⟩ := hstarts rfl
    exact ⟨chars, after, rfl, .inl hlt⟩

/-- A word may end before faithful lexemes. -/
theorem Faithful.closeWord {inWord : Bool} {n : ℕ} {lexemes : List Lexeme}
    (h : Faithful false n lexemes) : Faithful inWord n (closeWord inWord lexemes) := by
  cases inWord with
  | false => exact h
  | true =>
    refine ⟨[], lexemes, rfl, ?_⟩
    have hweight : lexWeight (.word [] :: lexemes) = lexWeight lexemes := by
      rw [lexWeight_word]
      exact Nat.zero_add _
    rw [Shell.closeWord, hweight]
    rcases h with hlt | ⟨heq, hclean⟩
    · exact .inl hlt
    · exact .inr ⟨heq, ⟨[], by simp, rfl⟩, hclean⟩

/-- An ordinary character keeps lexemes faithful. -/
theorem Faithful.push {inWord : Bool} {c : Char} {n : ℕ} {lexemes : List Lexeme}
    (hc : isOrdinary c = true) (hstart : inWord = false → startsOther c = false)
    (h : Faithful true n lexemes) : Faithful inWord (n + 1) (push c false lexemes) := by
  have hblank : isBlank c = false := by
    simp only [isOrdinary, Bool.and_eq_true, Bool.not_eq_true'] at hc
    exact hc.1.1
  obtain ⟨hpushed, hweight⟩ := weight_push c false h.startsWord.1
  rw [hblank] at hweight
  obtain ⟨chars, after, rfl, hlost | ⟨heq, ⟨w, hordinary, rfl⟩, hclean⟩⟩ := h
  · refine Faithful.of_lt (fun _ => hpushed) ?_
    rw [hweight]
    simpa using hlost
  · have hall : ∀ d ∈ c :: w, isOrdinary d = true := by
      intro d hd
      rcases List.mem_cons.mp hd with rfl | hd
      · exact hc
      · exact hordinary d hd
    have hsum : lexWeight (Shell.push c false (.word (unquoted w) :: after)) = n + 1 := by
      rw [hweight, heq]
      rfl
    cases inWord with
    | true => exact ⟨unquoted (c :: w), after, rfl, .inr ⟨hsum, ⟨c :: w, hall, rfl⟩, hclean⟩⟩
    | false =>
      refine .inr ⟨hsum, fun lexeme hlexeme => ?_⟩
      rcases List.mem_cons.mp hlexeme with rfl | hlexeme
      · exact ⟨c :: w, ⟨by simp, hall, fun d hd => Option.some.inj hd ▸ hstart rfl⟩, rfl⟩
      · exact hclean lexeme hlexeme

section Step

variable {c : Char} {t : Text} {lexemes : List Lexeme}
  (ih : ∀ {mode : Mode} {lexemes : List Lexeme}, lex mode t = some lexemes →
    Reads mode (solid t) lexemes)

include ih

/-- A character that is quoted, and whether it is kept. -/
theorem reads_pushed {mode : Mode} {quoted : Bool}
    (h : (lex mode t).map (push c quoted) = some lexemes)
    (hread : ∀ inner, Reads mode (solid t) inner → StartsWord inner ∧ lexWeight inner ≤ solid t) :
    StartsWord lexemes ∧ lexWeight lexemes ≤ solid (c :: t) := by
  obtain ⟨inner, hinner, rfl⟩ := Option.map_eq_some_iff.mp h
  obtain ⟨hstarts, hle⟩ := hread inner (ih hinner)
  have hpush := weight_push c quoted hstarts
  refine ⟨hpush.1, ?_⟩
  rw [hpush.2, solid_cons]
  exact Nat.add_le_add_right hle _

/-- A step between single quotes. -/
theorem reads_single (h : lex .single (c :: t) = some lexemes) :
    Reads .single (solid (c :: t)) lexemes := by
  have hsolid := solid_cons c t
  rw [lex] at h
  split at h
  · next hquote =>
    obtain ⟨hstarts, hle⟩ := (ih h).startsWord
    subst hquote
    rw [show isBlank '\x27' = false by decide] at hsolid
    refine ⟨hstarts, ?_⟩
    rw [hsolid]
    exact Nat.lt_succ_of_le hle
  split at h
  · cases h
  · obtain ⟨inner, hinner, rfl⟩ := Option.map_eq_some_iff.mp h
    obtain ⟨hstarts, hlt⟩ := ih hinner
    have hpush := weight_push c true hstarts
    refine ⟨hpush.1, ?_⟩
    rw [hpush.2, hsolid]
    exact Nat.add_lt_add_right hlt _

/-- A step between double quotes. -/
theorem reads_double (h : lex .double (c :: t) = some lexemes) :
    Reads .double (solid (c :: t)) lexemes := by
  have hsolid := solid_cons c t
  rw [lex] at h
  split at h
  · next hquote =>
    obtain ⟨hstarts, hle⟩ := (ih h).startsWord
    subst hquote
    rw [show isBlank '\x22' = false by decide] at hsolid
    refine ⟨hstarts, ?_⟩
    rw [hsolid]
    exact Nat.lt_succ_of_le hle
  split at h
  · next hslash =>
    obtain ⟨hstarts, hle⟩ := ih h
    subst hslash
    rw [show isBlank '\\' = false by decide] at hsolid
    refine ⟨hstarts, ?_⟩
    rw [hsolid]
    exact Nat.lt_succ_of_le hle
  split at h
  · cases h
  · obtain ⟨inner, hinner, rfl⟩ := Option.map_eq_some_iff.mp h
    obtain ⟨hstarts, hlt⟩ := ih hinner
    have hpush := weight_push c true hstarts
    refine ⟨hpush.1, ?_⟩
    rw [hpush.2, hsolid]
    exact Nat.add_lt_add_right hlt _

/-- The step after a backslash outside quotes. -/
theorem reads_escape {inWord : Bool} (h : lex (.escape inWord) (c :: t) = some lexemes) :
    Reads (.escape inWord) (solid (c :: t)) lexemes := by
  have hsolid := solid_cons c t
  rw [lex] at h
  split at h
  · have hread : Faithful inWord (solid t) lexemes := ih h
    refine ⟨fun hin => ?_, ?_⟩
    · subst hin
      exact hread.startsWord.1
    · have hle := hread.le
      omega
  split at h
  · cases h
  · obtain ⟨hstarts, hle⟩ := reads_pushed ih h fun inner hinner => hinner.startsWord
    exact ⟨fun _ => hstarts, hle⟩

/-- The step after a backslash between double quotes. -/
theorem reads_doubleEscape (h : lex .doubleEscape (c :: t) = some lexemes) :
    Reads .doubleEscape (solid (c :: t)) lexemes := by
  have hsolid := solid_cons c t
  rw [lex] at h
  split at h
  · obtain ⟨hstarts, hlt⟩ := ih h
    refine ⟨hstarts, ?_⟩
    omega
  split at h
  · cases h
  split at h
  · exact reads_pushed ih h fun inner hinner => ⟨hinner.1, Nat.le_of_lt hinner.2⟩
  · -- the backslash is kept, but the closing quote is not
    obtain ⟨inner, hinner, rfl⟩ := Option.map_eq_some_iff.mp h
    obtain ⟨hstarts, hlt⟩ := ih hinner
    have hchar := weight_push c true hstarts
    have hslash := weight_push '\\' true hchar.1
    rw [show isBlank '\\' = false by decide] at hslash
    refine ⟨hslash.1, ?_⟩
    rw [hslash.2, hchar.2, hsolid]
    simp only [Bool.false_eq_true, if_false]
    omega

/-- The step after an ampersand. -/
theorem reads_ampersand {inWord : Bool} (h : lex (.ampersand inWord) (c :: t) = some lexemes) :
    Reads (.ampersand inWord) (solid (c :: t)) lexemes := by
  have hsolid := solid_cons c t
  rw [lex] at h
  split at h
  · next hand =>
    subst hand
    obtain ⟨inner, hinner, rfl⟩ := Option.map_eq_some_iff.mp h
    have hread : Faithful false (solid t) inner := ih hinner
    rw [show isBlank '&' = false by decide] at hsolid
    refine Faithful.closeWord ?_
    have hweight := lexWeight_andIf inner
    rw [hsolid]
    rcases hread with hlt | ⟨heq, hclean⟩
    · left
      rw [hweight]
      simpa using hlt
    · right
      refine ⟨by rw [hweight, heq]; rfl, fun lexeme hlexeme => ?_⟩
      rcases List.mem_cons.mp hlexeme with rfl | hlexeme
      · trivial
      · exact hclean lexeme hlexeme
  · cases h

/-- A step outside quotes. -/
theorem reads_unquoted {inWord : Bool} (h : lex (.unquoted inWord) (c :: t) = some lexemes) :
    Reads (.unquoted inWord) (solid (c :: t)) lexemes := by
  have hsolid := solid_cons c t
  rw [lex] at h
  split at h
  · next hblank =>
    obtain ⟨inner, hinner, rfl⟩ := Option.map_eq_some_iff.mp h
    rw [if_pos hblank] at hsolid
    rw [hsolid]
    exact Faithful.closeWord (ih hinner)
  next hblank =>
  rw [if_neg hblank] at hsolid
  rw [hsolid]
  split at h
  · exact ih h
  split at h
  · obtain ⟨hstarts, hle⟩ := ih h
    exact Faithful.of_lt hstarts (Nat.lt_succ_of_le hle)
  split at h
  · obtain ⟨hstarts, hlt⟩ := ih h
    exact Faithful.of_lt (fun _ => hstarts) (Nat.lt_succ_of_lt hlt)
  split at h
  · obtain ⟨hstarts, hlt⟩ := ih h
    exact Faithful.of_lt (fun _ => hstarts) (Nat.lt_succ_of_lt hlt)
  split at h
  · cases h
  next hand hslash hsingle hdouble hother =>
  obtain ⟨inner, hinner, rfl⟩ := Option.map_eq_some_iff.mp h
  have hspecial : isSpecial c = false ∧ (inWord = false → startsOther c = false) := by
    cases inWord <;> simp_all
  have hordinary : isOrdinary c = true := by
    simp [isOrdinary, isQuote, hblank, hslash, hsingle, hdouble, hspecial.1]
  exact Faithful.push hordinary hspecial.2 (ih hinner)

end Step

/-- **What is read is faithful.** -/
theorem reads_of_lex {mode : Mode} {t : Text} {lexemes : List Lexeme}
    (h : lex mode t = some lexemes) : Reads mode (solid t) lexemes := by
  induction t generalizing mode lexemes with
  | nil =>
    cases mode with
    | unquoted inWord =>
      obtain rfl := Option.some.inj h
      exact Faithful.closeWord (.inr ⟨rfl, by simp⟩)
    | single => cases h
    | double => cases h
    | escape inWord => cases h
    | doubleEscape => cases h
    | ampersand inWord => cases h
  | cons c t ih =>
    cases mode with
    | unquoted inWord => exact reads_unquoted ih h
    | single => exact reads_single ih h
    | double => exact reads_double ih h
    | escape inWord => exact reads_escape ih h
    | doubleEscape => exact reads_doubleEscape ih h
    | ampersand inWord => exact reads_ampersand ih h

/-- A lexeme that is written as it is read is a token that is. -/
theorem Lexeme.Clean.token {lexeme : Lexeme} (h : lexeme.Clean) : lexeme.token.Clean := by
  cases lexeme with
  | andIf => trivial
  | word chars =>
    obtain ⟨w, hw, rfl⟩ := h
    rw [Lexeme.token, map_fst_unquoted]
    exact ⟨hw, rfl⟩

/-- **A line from which no character is lost is written as it is read.** -/
theorem clean_of_tokens {line : Text} {toks : List Token} (h : tokens line = some toks)
    (hweight : weight toks = solid line) : ∀ token ∈ toks, token.Clean := by
  obtain ⟨lexemes, hlex, rfl⟩ := Option.map_eq_some_iff.mp h
  rcases (reads_of_lex hlex : Faithful false (solid line) lexemes) with hlt | ⟨-, hclean⟩
  · unfold lexWeight at hlt
    omega
  · intro token htoken
    obtain ⟨lexeme, hlexeme, rfl⟩ := List.mem_map.mp htoken
    exact (hclean lexeme hlexeme).token

/-- Joined texts, one list after the other. -/
theorem intercalate_append {separator : Text} {left right : List Text} (hleft : left ≠ [])
    (hright : right ≠ []) :
    separator.intercalate (left ++ right) =
      separator.intercalate left ++ separator ++ separator.intercalate right := by
  induction left with
  | nil => exact absurd rfl hleft
  | cons t left ih =>
    cases left with
    | nil => rw [List.singleton_append, List.intercalate_cons_of_ne_nil hright,
        List.intercalate_singleton]
    | cons u left =>
      rw [List.cons_append, List.cons_append, List.intercalate_cons_cons, ← List.cons_append,
        ih (by simp), List.intercalate_cons_cons]
      simp only [List.append_assoc]

/-- Joining chunks with blanks adds nothing that counts. -/
theorem solid_intercalate (chunks : List Text) :
    solid ([' '].intercalate chunks) = (chunks.map solid).sum := by
  induction chunks with
  | nil => rfl
  | cons chunk chunks ih =>
    cases chunks with
    | nil => simp
    | cons next chunks =>
      have hblank : solid [' '] = 0 := by decide
      rw [List.intercalate_cons_cons, List.map_cons, List.sum_cons, ← ih]
      unfold solid at hblank ⊢
      rw [List.countP_append, List.countP_append, hblank, Nat.add_zero]

/-- **The line of chunks from which no character is lost is written as it is read.** -/
theorem clean_of_tokens_intercalate {chunks : List Text} {toks : List Token}
    (h : tokens ([' '].intercalate chunks) = some toks)
    (hweight : weight toks = (chunks.map solid).sum) : ∀ token ∈ toks, token.Clean :=
  clean_of_tokens h (hweight.trans (solid_intercalate chunks).symm)

end ModalRust.Shell
