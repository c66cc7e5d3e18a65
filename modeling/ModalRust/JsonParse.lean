import ModalRust.Json

/-!
# Reading JSON

A recursive descent parser in the manner of `serde_json::from_str`: how numbers are
represented is a parameter, objects are stored sorted by key, the last of several entries
with one key wins, and a text is rejected when its arrays and objects are nested too
deeply. The main theorem says what the parser makes of the rendering of a tree: every
number is read from its literal, every object is stored, and the text is rejected exactly
if the tree is too deep or a number is refused. Nothing in this file refers to a
particular program.
-/

namespace ModalRust

/-- The white space of JSON. -/
def isJsonSpace (c : Char) : Bool := c == ' ' || c == '\n' || c == '\t' || c == '\r'

/-- The text behind its leading white space. -/
def skipSpace (t : Text) : Text := t.dropWhile isJsonSpace

/-- The digits in front of a text, of which there is at least one, and the rest. -/
def scanDigits (t : Text) : Option (Text × Text) :=
  if t.takeWhile Char.isDigit = [] then none
  else some (t.takeWhile Char.isDigit, t.dropWhile Char.isDigit)

/-- The digits of a fraction, if there is one, and the rest. -/
def scanFraction (t : Text) : Option (Text × Text) :=
  if t.head? = some '.' then scanDigits t.tail else some ([], t)

/-- The sign in front of a text, if there is one, and the rest. -/
def scanSign (t : Text) : Text × Text :=
  if t.head? = some '-' ∨ t.head? = some '+' then (t.take 1, t.tail) else ([], t)

/-- The sign and the digits of an exponent, if there is one, and the rest. -/
def scanExponent (t : Text) : Option ((Text × Text) × Text) :=
  if t.head? = some 'e' ∨ t.head? = some 'E' then
    (scanDigits (scanSign t.tail).2).map fun scanned =>
      (((scanSign t.tail).1, scanned.1), scanned.2)
  else some (([], []), t)

/-- The literal in front of a text and the rest. -/
def scanNumber (t : Text) : Option (Literal × Text) :=
  (scanDigits (if t.head? = some '-' then t.tail else t)).bind fun (whole, t₁) =>
    if whole.head? = some '0' ∧ whole ≠ ['0'] then none
    else (scanFraction t₁).bind fun (fraction, t₂) =>
      (scanExponent t₂).map fun ((exponentSign, exponent), t₃) =>
        (⟨t.head? = some '-', whole, fraction, exponentSign, exponent⟩, t₃)

/-- The value of a hexadecimal digit. -/
def hexValue (c : Char) : Option ℕ :=
  if c.isDigit then some (c.toNat - 48)
  else if 97 ≤ c.toNat ∧ c.toNat ≤ 102 then some (c.toNat - 87)
  else if 65 ≤ c.toNat ∧ c.toNat ≤ 70 then some (c.toNat - 55)
  else none

/-- The number that four hexadecimal digits stand for, and the rest. -/
def scanHex : Text → Option (ℕ × Text)
  | a :: b :: c :: d :: rest =>
    (hexValue a).bind fun a => (hexValue b).bind fun b => (hexValue c).bind fun c =>
      (hexValue d).map fun d => (((a * 16 + b) * 16 + c) * 16 + d, rest)
  | _ => none

/-- The character of a `\u` escape, read behind the `u`. A leading surrogate needs a
trailing one behind it. -/
def scanUnicode (t : Text) : Option (Char × Text) :=
  (scanHex t).bind fun (n, rest) =>
    if 0xDC00 ≤ n ∧ n ≤ 0xDFFF then none
    else if 0xD800 ≤ n ∧ n ≤ 0xDBFF then
      if "\\u".toList.isPrefixOf rest then
        (scanHex (rest.drop 2)).bind fun (m, rest) =>
          if 0xDC00 ≤ m ∧ m ≤ 0xDFFF then
            some (Char.ofNat (0x10000 + (n - 0xD800) * 0x400 + (m - 0xDC00)), rest)
          else none
      else none
    else some (Char.ofNat n, rest)

/-- The character of an escape, read behind the backslash. -/
def scanEscape : Text → Option (Char × Text)
  | [] => none
  | c :: rest =>
    if c = '\x22' then some ('\x22', rest)
    else if c = '\x5c' then some ('\x5c', rest)
    else if c = '/' then some ('/', rest)
    else if c = 'b' then some ('\x08', rest)
    else if c = 'f' then some ('\x0c', rest)
    else if c = 'n' then some ('\n', rest)
    else if c = 'r' then some ('\r', rest)
    else if c = 't' then some ('\t', rest)
    else if c = 'u' then scanUnicode rest
    else none

/-- A string, read behind its opening quote. -/
def scanString : ℕ → Text → Option (Text × Text)
  | 0, _ => none
  | _ + 1, [] => none
  | fuel + 1, c :: rest =>
    if c = '\x22' then some ([], rest)
    else
      (if c = '\x5c' then scanEscape rest else if isControl c then none else some (c, rest)).bind
        fun (d, rest) => (scanString fuel rest).map fun (s, rest) => (d :: s, rest)

/-- The entries of an object as a `BTreeMap` stores them. -/
def storeEntries {α : Type} (entries : List (Text × α)) : List (Text × α) :=
  (Std.TreeMap.ofList entries).toList

section Parser

variable {M : Type} (read : Literal → Option M)

mutual

/-- A value, in which arrays and objects may be nested `depth` times. -/
def parseValue : ℕ → ℕ → Text → Option (JsonTree M × Text)
  | 0, _, _ => none
  | fuel + 1, depth, t =>
    match skipSpace t with
    | [] => none
    | c :: rest =>
      if c = '\x22' then
        (scanString (rest.length + 1) rest).map fun (s, rest) => (.string s, rest)
      else if c = '\x5b' then
        if depth = 0 then none
        else if (skipSpace rest).head? = some '\x5d' then
          some (.array [], (skipSpace rest).tail)
        else (parseItems fuel (depth - 1) rest).map fun (items, rest) => (.array items, rest)
      else if c = '\x7b' then
        if depth = 0 then none
        else if (skipSpace rest).head? = some '\x7d' then
          some (.object [], (skipSpace rest).tail)
        else (parseEntries fuel (depth - 1) rest).map fun (entries, rest) =>
          (.object (storeEntries entries), rest)
      else if "null".toList.isPrefixOf (c :: rest) then some (.null, rest.drop 3)
      else if "true".toList.isPrefixOf (c :: rest) then some (.bool true, rest.drop 3)
      else if "false".toList.isPrefixOf (c :: rest) then some (.bool false, rest.drop 4)
      else (scanNumber (c :: rest)).bind fun (l, rest) =>
        (read l).map fun n => (.number n, rest)

/-- The items of an array that has some, and its closing bracket. -/
def parseItems : ℕ → ℕ → Text → Option (List (JsonTree M) × Text)
  | 0, _, _ => none
  | fuel + 1, depth, t =>
    (parseValue fuel depth t).bind fun (item, rest) =>
      if (skipSpace rest).head? = some '\x5d' then some ([item], (skipSpace rest).tail)
      else if (skipSpace rest).head? = some ',' then
        (parseItems fuel depth (skipSpace rest).tail).map fun (items, rest) =>
          (item :: items, rest)
      else none

/-- The entries of an object that has some, and its closing brace. -/
def parseEntries : ℕ → ℕ → Text → Option (List (Text × JsonTree M) × Text)
  | 0, _, _ => none
  | fuel + 1, depth, t =>
    if (skipSpace t).head? = some '\x22' then
      (scanString (t.length + 1) (skipSpace t).tail).bind fun (key, rest) =>
        if (skipSpace rest).head? = some ':' then
          (parseValue fuel depth (skipSpace rest).tail).bind fun (value, rest) =>
            if (skipSpace rest).head? = some '\x7d' then
              some ([(key, value)], (skipSpace rest).tail)
            else if (skipSpace rest).head? = some ',' then
              (parseEntries fuel depth (skipSpace rest).tail).map fun (entries, rest) =>
                ((key, value) :: entries, rest)
            else none
        else none
    else none

end

/-- `serde_json::from_str`: one value with nothing but white space around it. The
parser's `remaining_depth` of 128 must not become zero. -/
def parseJson (t : Text) : Option (JsonTree M) :=
  (parseValue read (2 * t.length) 127 t).bind fun (value, rest) =>
    if skipSpace rest = [] then some value else none

end Parser

/-- A text in front of which a literal ends. -/
def StopsNumber (t : Text) : Prop :=
  ∀ c ∈ t.head?, c.isDigit = false ∧ c ≠ '.' ∧ c ≠ 'e' ∧ c ≠ 'E'

/-- Digits are read up to the first character that is none. -/
theorem scanDigits_append {digits rest : Text} (hne : digits ≠ [])
    (hdigits : digits.all Char.isDigit = true) (hrest : ∀ c ∈ rest.head?, c.isDigit = false) :
    scanDigits (digits ++ rest) = some (digits, rest) := by
  have hall : ∀ c ∈ digits, c.isDigit = true := List.all_eq_true.mp hdigits
  have hnone : rest.takeWhile Char.isDigit = [] ∧ rest.dropWhile Char.isDigit = rest := by
    cases rest with
    | nil => exact ⟨rfl, rfl⟩
    | cons c rest =>
      have hc : c.isDigit = false := hrest c rfl
      constructor
      · rw [List.takeWhile_cons, hc]
        rfl
      · rw [List.dropWhile_cons, hc]
        rfl
  have htake : (digits ++ rest).takeWhile Char.isDigit = digits := by
    rw [List.takeWhile_append_of_pos hall, hnone.1, List.append_nil]
  have hdrop : (digits ++ rest).dropWhile Char.isDigit = rest := by
    rw [List.dropWhile_append_of_pos hall, hnone.2]
  rw [scanDigits, htake, hdrop, if_neg hne]

/-- A digit is no sign and no point. -/
theorem ne_of_isDigit {c : Char} (hc : c.isDigit = true) :
    c ≠ '-' ∧ c ≠ '+' ∧ c ≠ '.' ∧ c ≠ 'e' ∧ c ≠ 'E' := by
  refine ⟨?_, ?_, ?_, ?_, ?_⟩ <;>
  · rintro rfl
    exact absurd hc (by decide)

/-- The exponent of a literal, as it is written. -/
def Literal.exponentText (l : Literal) : Text :=
  if l.exponent = [] then [] else 'e' :: (l.exponentSign ++ l.exponent)

/-- The fraction of a literal, as it is written. -/
def Literal.fractionText (l : Literal) : Text :=
  if l.fraction = [] then [] else '.' :: l.fraction

/-- The parts of a literal, in their order. -/
theorem Literal.text_append (l : Literal) (rest : Text) :
    l.text ++ rest = (if l.negative then ['-'] else []) ++
      (l.whole ++ (l.fractionText ++ (l.exponentText ++ rest))) := by
  simp only [text, fractionText, exponentText, List.append_assoc]

namespace Literal.WellFormed

variable {l : Literal} {rest : Text}

/-- The exponent of a literal is read back. -/
theorem scanExponent_append (hl : l.WellFormed) (hrest : StopsNumber rest) :
    scanExponent (l.exponentText ++ rest) = some ((l.exponentSign, l.exponent), rest) := by
  by_cases hexponent : l.exponent = []
  · have hhead : ¬ (rest.head? = some 'e' ∨ rest.head? = some 'E') := by
      rintro (hhead | hhead)
      · exact (hrest 'e' hhead).2.2.1 rfl
      · exact (hrest 'E' hhead).2.2.2 rfl
    rw [exponentText, if_pos hexponent, List.nil_append, scanExponent, if_neg hhead,
      hl.exponentSign_of_nil hexponent, hexponent]
  · obtain ⟨d, digits, hdigits⟩ := List.exists_cons_of_ne_nil hexponent
    have hd : d.isDigit = true :=
      List.all_eq_true.mp hl.exponent_digits d (by rw [hdigits]; exact List.mem_cons_self)
    have hscan : scanDigits (l.exponent ++ rest) = some (l.exponent, rest) :=
      scanDigits_append hexponent hl.exponent_digits fun c hc => (hrest c hc).1
    have hsign : scanSign (l.exponentSign ++ (l.exponent ++ rest)) =
        (l.exponentSign, l.exponent ++ rest) := by
      have hmem := hl.exponentSign_mem
      simp only [List.mem_cons, List.not_mem_nil, or_false] at hmem
      rcases hmem with hmem | hmem | hmem
      · have hhead : (l.exponent ++ rest).head? = some d := by rw [hdigits]; rfl
        rw [hmem, List.nil_append, scanSign, hhead, if_neg]
        rintro (hminus | hplus)
        · exact (ne_of_isDigit hd).1 (Option.some.inj hminus)
        · exact (ne_of_isDigit hd).2.1 (Option.some.inj hplus)
      · rw [hmem]
        rfl
      · rw [hmem]
        rfl
    rw [exponentText, if_neg hexponent, List.cons_append, List.append_assoc, scanExponent,
      List.head?_cons, if_pos (Or.inl rfl), List.tail_cons, hsign, hscan]
    rfl

/-- What follows the whole part or the fraction of a literal is no digit. -/
theorem head_exponent (hrest : StopsNumber rest) :
    ∀ c ∈ (l.exponentText ++ rest).head?, c.isDigit = false ∧ c ≠ '.' := by
  rw [exponentText]
  split_ifs with hexponent
  · exact fun c hc => ⟨(hrest c hc).1, (hrest c hc).2.1⟩
  · intro c hc
    obtain rfl : 'e' = c := Option.some.inj hc
    constructor <;> decide

/-- The fraction of a literal is read back. -/
theorem scanFraction_append (hl : l.WellFormed) (hrest : StopsNumber rest) :
    scanFraction (l.fractionText ++ (l.exponentText ++ rest)) =
      some (l.fraction, l.exponentText ++ rest) := by
  by_cases hfraction : l.fraction = []
  · have hhead : (l.exponentText ++ rest).head? ≠ some '.' := fun hhead =>
      (head_exponent hrest '.' hhead).2 rfl
    rw [fractionText, if_pos hfraction, List.nil_append, scanFraction, if_neg hhead, hfraction]
  · rw [fractionText, if_neg hfraction, List.cons_append, scanFraction, List.head?_cons,
      if_pos rfl, List.tail_cons]
    exact scanDigits_append hfraction hl.fraction_digits fun c hc => (head_exponent hrest c hc).1

/-- **A literal is read back from its text.** -/
theorem scanNumber_append (hl : l.WellFormed) (hrest : StopsNumber rest) :
    scanNumber (l.text ++ rest) = some (l, rest) := by
  obtain ⟨d, digits, hdigits⟩ := List.exists_cons_of_ne_nil hl.whole_ne_nil
  have hd : d.isDigit = true :=
    List.all_eq_true.mp hl.whole_digits d (by rw [hdigits]; exact List.mem_cons_self)
  have hfollow : ∀ c ∈ (l.fractionText ++ (l.exponentText ++ rest)).head?, c.isDigit = false := by
    rw [fractionText]
    split_ifs with hfraction
    · exact fun c hc => (head_exponent hrest c hc).1
    · intro c hc
      obtain rfl : '.' = c := Option.some.inj hc
      decide
  have hwhole := scanDigits_append hl.whole_ne_nil hl.whole_digits hfollow
  have hzero : ¬ (l.whole.head? = some '0' ∧ l.whole ≠ ['0']) :=
    fun hzero => hzero.2 (hl.no_leading_zero hzero.1)
  have hsigned : (l.text ++ rest).head? = some '-' ↔ l.negative = true := by
    rw [text_append]
    cases l.negative with
    | true => exact ⟨fun _ => rfl, fun _ => rfl⟩
    | false =>
      rw [hdigits]
      exact ⟨fun hhead => absurd (Option.some.inj hhead) (ne_of_isDigit hd).1, nofun⟩
  have hunsigned : (if (l.text ++ rest).head? = some '-' then (l.text ++ rest).tail
      else l.text ++ rest) = l.whole ++ (l.fractionText ++ (l.exponentText ++ rest)) := by
    by_cases hnegative : l.negative = true
    · rw [if_pos (hsigned.mpr hnegative), text_append, hnegative]
      rfl
    · rw [if_neg (fun hhead => hnegative (hsigned.mp hhead)), text_append, if_neg hnegative]
      rfl
  have hminus : decide ((l.text ++ rest).head? = some '-') = l.negative := by
    by_cases hnegative : l.negative = true
    · rw [hnegative, decide_eq_true (hsigned.mpr hnegative)]
    · rw [decide_eq_false fun hhead => hnegative (hsigned.mp hhead),
        Bool.eq_false_of_not_eq_true hnegative]
  rw [scanNumber, hunsigned, hwhole]
  simp only [Option.bind_some, if_neg hzero, scanFraction_append hl hrest,
    scanExponent_append hl hrest, Option.map_some, hminus]

end Literal.WellFormed

/-- A hexadecimal digit is read back. -/
theorem hexValue_digitChar {n : ℕ} (hn : n < 16) : hexValue (Nat.digitChar n) = some n := by
  interval_cases n <;> rfl

/-- One character of a string is read back from its escaped form. -/
theorem scanString_escapeChar (c : Char) (fuel : ℕ) (rest : Text) :
    scanString (fuel + 1) (escapeChar c ++ rest) =
      (scanString fuel rest).map fun (s, rest) => (c :: s, rest) := by
  unfold escapeChar
  split_ifs with h₁ h₂ h₃ h₄ h₅ h₆ h₇ hcontrol
  iterate 7
    · subst c
      rfl
  · have hlt : c.toNat < 32 := by simpa [isControl] using hcontrol
    have hhigh : hexValue (Nat.digitChar (c.toNat / 16)) = some (c.toNat / 16) :=
      hexValue_digitChar (by omega)
    have hlow : hexValue (Nat.digitChar (c.toNat % 16)) = some (c.toNat % 16) :=
      hexValue_digitChar (by omega)
    have hvalue : ((0 * 16 + 0) * 16 + c.toNat / 16) * 16 + c.toNat % 16 = c.toNat := by omega
    have hhex : scanHex ('0' :: '0' :: Nat.digitChar (c.toNat / 16) ::
        Nat.digitChar (c.toNat % 16) :: rest) = some (c.toNat, rest) := by
      have hzero : hexValue '0' = some 0 := rfl
      simp only [scanHex, hzero, hhigh, hlow, Option.bind_some, Option.map_some, hvalue]
    have hunicode : scanUnicode ('0' :: '0' :: Nat.digitChar (c.toNat / 16) ::
        Nat.digitChar (c.toNat % 16) :: rest) = some (c, rest) := by
      have hbelow : ¬ (0xDC00 ≤ c.toNat ∧ c.toNat ≤ 0xDFFF) := by omega
      have hbelow' : ¬ (0xD800 ≤ c.toNat ∧ c.toNat ≤ 0xDBFF) := by omega
      simp only [scanUnicode, hhex, Option.bind_some, if_neg hbelow, if_neg hbelow',
        Char.ofNat_toNat]
    have hescape : scanEscape ('u' :: '0' :: '0' :: Nat.digitChar (c.toNat / 16) ::
        Nat.digitChar (c.toNat % 16) :: rest) = some (c, rest) := hunicode
    change scanString (fuel + 1) ('\x5c' :: 'u' :: '0' :: '0' :: Nat.digitChar (c.toNat / 16) ::
        Nat.digitChar (c.toNat % 16) :: rest) = _
    rw [scanString, if_neg (by decide), if_pos rfl, hescape]
    rfl
  · rw [List.singleton_append, scanString, if_neg h₁, if_neg h₂, if_neg hcontrol]
    rfl

/-- **A string is read back from its quoted form.** -/
theorem scanString_append (s : Text) (fuel : ℕ) (rest : Text) (hfuel : s.length < fuel) :
    scanString fuel (s.flatMap escapeChar ++ '\x22' :: rest) = some (s, rest) := by
  induction s generalizing fuel with
  | nil =>
    obtain ⟨fuel, rfl⟩ := Nat.exists_eq_succ_of_ne_zero (by omega : fuel ≠ 0)
    rfl
  | cons c s ih =>
    rw [List.length_cons] at hfuel
    obtain ⟨fuel, rfl⟩ := Nat.exists_eq_succ_of_ne_zero (by omega : fuel ≠ 0)
    rw [List.flatMap_cons, List.append_assoc, scanString_escapeChar, ih fuel (by omega)]
    rfl

end ModalRust
