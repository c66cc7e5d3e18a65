import Mathlib.Data.List.Basic
import Mathlib.Tactic.IntervalCases
import ModalRust.Text

/-!
# JSON trees and their compact rendering

JSON trees over an arbitrary type of numbers, and the text that `serde_json::to_string`
makes of one. The value type of serde_json is the tree over its three representations of
a number. Objects are rendered in the order in which their entries are stored; `json`
stores them as a `BTreeMap` does, sorted by key. The lemmas say that a rendered tree
never holds a control character, so that it stays on one line whatever the strings in it
are. Nothing in this file refers to a particular program.
-/

namespace ModalRust

/-- The characters below the space. A line break is one of them. -/
def isControl (c : Char) : Bool := c.toNat < 32

/-- The parts of a decimal literal. -/
structure Literal where
  /-- Whether the literal starts with a minus sign. -/
  negative : Bool
  /-- The digits before the point. -/
  whole : Text
  /-- The digits after the point; without any there is no point. -/
  fraction : Text
  /-- The sign of the exponent. -/
  exponentSign : Text
  /-- The digits of the exponent; without any there is no exponent mark. -/
  exponent : Text
  deriving DecidableEq

/-- The literal as it is written. -/
def Literal.text (l : Literal) : Text :=
  (if l.negative then ['-'] else []) ++ (l.whole ++
    ((if l.fraction = [] then [] else '.' :: l.fraction) ++
      if l.exponent = [] then [] else 'e' :: (l.exponentSign ++ l.exponent)))

/-- The literals that JSON admits. -/
structure Literal.WellFormed (l : Literal) : Prop where
  /-- There is a digit. -/
  whole_ne_nil : l.whole ≠ []
  /-- The whole part holds digits. -/
  whole_digits : l.whole.all Char.isDigit = true
  /-- A leading zero stands alone. -/
  no_leading_zero : l.whole.head? = some '0' → l.whole = ['0']
  /-- The fraction holds digits. -/
  fraction_digits : l.fraction.all Char.isDigit = true
  /-- The exponent holds digits. -/
  exponent_digits : l.exponent.all Char.isDigit = true
  /-- The exponent has at most one sign. -/
  exponentSign_mem : l.exponentSign ∈ [[], ['-'], ['+']]
  /-- There is no sign without an exponent. -/
  exponentSign_of_nil : l.exponent = [] → l.exponentSign = []

/-- Whether JSON admits a literal can be computed. -/
instance (l : Literal) : Decidable l.WellFormed :=
  decidable_of_iff (l.whole ≠ [] ∧ l.whole.all Char.isDigit = true ∧
      (l.whole.head? = some '0' → l.whole = ['0']) ∧ l.fraction.all Char.isDigit = true ∧
      l.exponent.all Char.isDigit = true ∧ l.exponentSign ∈ [[], ['-'], ['+']] ∧
      (l.exponent = [] → l.exponentSign = []))
    ⟨fun ⟨h₁, h₂, h₃, h₄, h₅, h₆, h₇⟩ => ⟨h₁, h₂, h₃, h₄, h₅, h₆, h₇⟩,
      fun ⟨h₁, h₂, h₃, h₄, h₅, h₆, h₇⟩ => ⟨h₁, h₂, h₃, h₄, h₅, h₆, h₇⟩⟩

/-- A finite binary float, as the shortest literal that stands for it. -/
structure FloatText where
  /-- The literal. -/
  literal : Literal
  /-- JSON admits the literal. -/
  wellFormed : literal.WellFormed
  /-- The literal has a point or an exponent. -/
  fractional : literal.fraction ≠ [] ∨ literal.exponent ≠ []

/-- The three representations of a number in serde_json. -/
inductive Number
  /-- An integer that is not negative. -/
  | posInt (n : UInt64)
  /-- A negative integer. -/
  | negInt (n : Int64) (hn : n < 0)
  /-- Any other number. -/
  | float (f : FloatText)

/-- A JSON tree over the numbers `N`. -/
inductive JsonTree (N : Type)
  | null
  | bool (b : Bool)
  | number (n : N)
  | string (s : Text)
  | array (items : List (JsonTree N))
  /-- An object, as the list of its entries. -/
  | object (entries : List (Text × JsonTree N))

/-- A JSON value of serde_json. -/
abbrev Json := JsonTree Number

/-- The `json!` literal of an object: the entries, sorted by key. -/
def Json.json (entries : List (Text × Json)) : Json :=
  .object (Std.TreeMap.ofList entries).toList

/-- The value of an object's field. -/
def Json.get (key : Text) : Json → Option Json
  | .object entries => entries.lookup key
  | _ => none

/-- The text of a string value. -/
def Json.asStr : Json → Option Text
  | .string s => some s
  | _ => none

/-- The numbers of a tree, as far as they are rendered. -/
class Numeric (N : Type) where
  /-- The literal of a number. -/
  literal : N → Literal
  /-- JSON admits it. -/
  wellFormed (n : N) : (literal n).WellFormed

/-- The literal of an integer. -/
def intLiteral (negative : Bool) (n : ℕ) : Literal := ⟨negative, Nat.toDigits 10 n, [], [], []⟩

/-- The literal of a number. -/
def Number.literal : Number → Literal
  | .posInt n => intLiteral false n.toNat
  | .negInt n _ => intLiteral true n.toInt.natAbs
  | .float f => f.literal

/-- One character of a string value, escaped where JSON requires it. -/
def escapeChar (c : Char) : Text :=
  if c = '\x22' then "\\\"".toList
  else if c = '\x5c' then "\\\\".toList
  else if c = '\x08' then "\\b".toList
  else if c = '\x0c' then "\\f".toList
  else if c = '\n' then "\\n".toList
  else if c = '\r' then "\\r".toList
  else if c = '\t' then "\\t".toList
  else if isControl c then
    "\\u00".toList ++ [Nat.digitChar (c.toNat / 16), Nat.digitChar (c.toNat % 16)]
  else [c]

/-- A string value between its quotes. -/
def quote (s : Text) : Text := '\x22' :: s.flatMap escapeChar ++ ['\x22']

/-- The elements of an array or object, separated by commas. -/
def commaSeparated (parts : List Text) : Text := [','].intercalate parts

namespace JsonTree

variable {N : Type} [Numeric N]

mutual

/-- `serde_json::to_string` of a tree. -/
def print : JsonTree N → Text
  | .null => "null".toList
  | .bool b => if b then "true".toList else "false".toList
  | .number n => (Numeric.literal n).text
  | .string s => quote s
  | .array items => '\x5b' :: commaSeparated (printItems items) ++ ['\x5d']
  | .object entries => '\x7b' :: commaSeparated (printEntries entries) ++ ['\x7d']

/-- The renderings of an array's elements. -/
def printItems : List (JsonTree N) → List Text
  | [] => []
  | item :: items => item.print :: printItems items

/-- The renderings of an object's entries. -/
def printEntries : List (Text × JsonTree N) → List Text
  | [] => []
  | entry :: entries => printEntry entry :: printEntries entries

/-- The rendering of one entry. -/
def printEntry : Text × JsonTree N → Text
  | (key, value) => quote key ++ ':' :: value.print

end

end JsonTree

/-- The check of a text for control characters. -/
theorem isControl_of_all {t : Text} (ht : t.all (fun c => !isControl c) = true) :
    ∀ c ∈ t, isControl c = false := by
  intro c hc
  simpa using List.all_eq_true.mp ht c hc

/-- A line break is a control character. -/
theorem isBreak_of_not_isControl {c : Char} (hc : isControl c = false) : isBreak c = false := by
  rw [isBreak, Bool.or_eq_false_iff, beq_eq_false_iff_ne, beq_eq_false_iff_ne]
  constructor <;>
  · rintro rfl
    exact absurd hc (by decide)

/-- The digits of a number in a base up to sixteen are no control characters. -/
theorem isControl_digitChar {n : ℕ} (hn : n < 16) : isControl (Nat.digitChar n) = false := by
  interval_cases n <;> decide

/-- A decimal digit is no control character. -/
theorem isControl_of_isDigit {c : Char} (hc : c.isDigit = true) : isControl c = false := by
  simp only [Char.isDigit, Bool.and_eq_true, decide_eq_true_eq] at hc
  have hzero : 48 ≤ c.toNat := hc.1
  simp only [isControl, decide_eq_false_iff_not, not_lt]
  omega

/-- Digits are no control characters. -/
theorem isControl_of_mem_digits {t : Text} (ht : t.all Char.isDigit = true) :
    ∀ c ∈ t, isControl c = false :=
  fun c hc => isControl_of_isDigit (List.all_eq_true.mp ht c hc)

/-- A literal holds no control character. -/
theorem Literal.WellFormed.isControl_of_mem_text {l : Literal} (hl : l.WellFormed) :
    ∀ c ∈ l.text, isControl c = false := by
  have hsign : ∀ c ∈ l.exponentSign, isControl c = false := by
    have hmem := hl.exponentSign_mem
    simp only [List.mem_cons, List.not_mem_nil, or_false] at hmem
    rcases hmem with hmem | hmem | hmem <;> rw [hmem] <;> exact isControl_of_all (by decide)
  intro c hc
  simp only [text, List.mem_append] at hc
  rcases hc with hc | hc | hc | hc
  · split_ifs at hc
    · rw [List.mem_singleton.mp hc]
      rfl
    · cases hc
  · exact isControl_of_mem_digits hl.whole_digits c hc
  · split_ifs at hc
    · cases hc
    · rcases List.mem_cons.mp hc with rfl | hc
      · rfl
      · exact isControl_of_mem_digits hl.fraction_digits c hc
  · split_ifs at hc
    · cases hc
    · rcases List.mem_cons.mp hc with rfl | hc
      · rfl
      · rcases List.mem_append.mp hc with hc | hc
        · exact hsign c hc
        · exact isControl_of_mem_digits hl.exponent_digits c hc

/-- A rendered natural number has no needless zero in front. -/
theorem toDigits_head_ne_zero {n : ℕ} (hn : n ≠ 0) : (Nat.toDigits 10 n).head? ≠ some '0' := by
  induction n using Nat.strong_induction_on with
  | _ n ih =>
    by_cases hlt : n < 10
    · rw [Nat.toDigits_of_lt_base hlt, List.head?_cons]
      intro hzero
      exact hn (Nat.digitChar_eq_zero.mp (Option.some.inj hzero))
    · rw [Nat.toDigits_of_base_le (by omega) (by omega),
        List.head?_append_of_ne_nil _ Nat.toDigits_ne_nil]
      exact ih (n / 10) (by omega) (by omega)

/-- JSON admits the literals of integers. -/
theorem intLiteral_wellFormed (negative : Bool) (n : ℕ) : (intLiteral negative n).WellFormed where
  whole_ne_nil := Nat.toDigits_ne_nil
  whole_digits :=
    List.all_eq_true.mpr fun _ hc => Nat.isDigit_of_mem_toDigits (by omega) (by omega) hc
  no_leading_zero := by
    intro hzero
    by_cases hn : n = 0
    · subst hn
      rfl
    · exact absurd hzero (toDigits_head_ne_zero hn)
  fraction_digits := rfl
  exponent_digits := rfl
  exponentSign_mem := List.mem_cons_self
  exponentSign_of_nil := fun _ => rfl

instance : Numeric Number where
  literal := Number.literal
  wellFormed n := by
    cases n with
    | posInt n => exact intLiteral_wellFormed _ _
    | negInt n hn => exact intLiteral_wellFormed _ _
    | float f => exact f.wellFormed

/-- Escaping leaves no control character. -/
theorem isControl_of_mem_escapeChar (d : Char) : ∀ c ∈ escapeChar d, isControl c = false := by
  unfold escapeChar
  split_ifs with _ _ _ _ _ _ _ hcontrol
  iterate 7 exact isControl_of_all (by decide)
  · have hlt : d.toNat < 32 := by simpa [isControl] using hcontrol
    intro c hc
    rcases List.mem_append.mp hc with hc | hc
    · exact isControl_of_all (by decide) c hc
    · rcases List.mem_cons.mp hc with rfl | hc
      · exact isControl_digitChar (by omega)
      · rw [List.mem_singleton.mp hc]
        exact isControl_digitChar (by omega)
  · intro c hc
    rw [List.mem_singleton.mp hc]
    simpa using hcontrol

/-- The rendering of a string holds no control character. -/
theorem isControl_of_mem_quote (s : Text) : ∀ c ∈ quote s, isControl c = false := by
  intro c hc
  rcases List.mem_append.mp hc with hc | hc
  · rcases List.mem_cons.mp hc with rfl | hc
    · rfl
    · obtain ⟨d, -, hd⟩ := List.mem_flatMap.mp hc
      exact isControl_of_mem_escapeChar d c hd
  · rw [List.mem_singleton.mp hc]
    rfl

/-- Separating by commas adds no control character. -/
theorem isControl_of_mem_commaSeparated {parts : List Text}
    (hparts : ∀ t ∈ parts, ∀ c ∈ t, isControl c = false) :
    ∀ c ∈ commaSeparated parts, isControl c = false := by
  intro c hc
  induction parts with
  | nil => cases hc
  | cons t parts ih =>
    have ih := ih fun u hu => hparts u (List.mem_cons_of_mem _ hu)
    cases parts with
    | nil =>
      have hc : c ∈ t := by simpa [commaSeparated, List.intercalate] using hc
      exact hparts t List.mem_cons_self c hc
    | cons u parts =>
      rw [commaSeparated, List.intercalate_cons_cons] at hc
      rcases List.mem_append.mp hc with hc | hc
      · rcases List.mem_append.mp hc with hc | hc
        · exact hparts t List.mem_cons_self c hc
        · rw [List.mem_singleton.mp hc]
          rfl
      · exact ih hc

/-- Brackets around a text without control characters. -/
theorem isControl_of_mem_bracketed {left right : Char} {t : Text} (hleft : isControl left = false)
    (hright : isControl right = false) (ht : ∀ c ∈ t, isControl c = false) :
    ∀ c ∈ left :: t ++ [right], isControl c = false := by
  intro c hc
  rcases List.mem_append.mp hc with hc | hc
  · rcases List.mem_cons.mp hc with rfl | hc
    · exact hleft
    · exact ht c hc
  · rw [List.mem_singleton.mp hc]
    exact hright

namespace JsonTree

variable {N : Type} [Numeric N]

mutual

/-- **A rendered tree holds no control character.** -/
theorem isControl_of_mem_print : ∀ j : JsonTree N, ∀ c ∈ j.print, isControl c = false
  | .null => isControl_of_all (t := "null".toList) (by decide)
  | .bool true => isControl_of_all (t := "true".toList) (by decide)
  | .bool false => isControl_of_all (t := "false".toList) (by decide)
  | .number n => (Numeric.wellFormed n).isControl_of_mem_text
  | .string s => isControl_of_mem_quote s
  | .array items =>
    isControl_of_mem_bracketed (by decide) (by decide)
      (isControl_of_mem_commaSeparated (isControl_of_mem_printItems items))
  | .object entries =>
    isControl_of_mem_bracketed (by decide) (by decide)
      (isControl_of_mem_commaSeparated (isControl_of_mem_printEntries entries))

/-- So do not the renderings of an array's elements. -/
theorem isControl_of_mem_printItems : ∀ items : List (JsonTree N),
    ∀ t ∈ printItems items, ∀ c ∈ t, isControl c = false
  | [], _, ht => by cases ht
  | item :: items, t, ht => by
    rcases List.mem_cons.mp ht with rfl | ht
    · exact isControl_of_mem_print item
    · exact isControl_of_mem_printItems items t ht

/-- So do not the renderings of an object's entries. -/
theorem isControl_of_mem_printEntries : ∀ entries : List (Text × JsonTree N),
    ∀ t ∈ printEntries entries, ∀ c ∈ t, isControl c = false
  | [], _, ht => by cases ht
  | entry :: entries, t, ht => by
    rcases List.mem_cons.mp ht with rfl | ht
    · exact isControl_of_mem_printEntry entry
    · exact isControl_of_mem_printEntries entries t ht

/-- So does not the rendering of one entry. -/
theorem isControl_of_mem_printEntry : ∀ entry : Text × JsonTree N,
    ∀ c ∈ printEntry entry, isControl c = false
  | (key, value), c, hc => by
    rcases List.mem_append.mp hc with hc | hc
    · exact isControl_of_mem_quote key c hc
    · rcases List.mem_cons.mp hc with rfl | hc
      · rfl
      · exact isControl_of_mem_print value c hc

end

/-- **A rendered tree is a single line.** -/
theorem isBreak_of_mem_print {j : JsonTree N} {c : Char} (hc : c ∈ j.print) : isBreak c = false :=
  isBreak_of_not_isControl (isControl_of_mem_print j c hc)

end JsonTree

/-- A line break in a string is escaped. -/
example : (Json.json [("b".toList, .string "x\ny".toList), ("a".toList, .null)]).print =
    "\x7b\"a\":null,\"b\":\"x\\ny\"\x7d".toList := by decide

end ModalRust
