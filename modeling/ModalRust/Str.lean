import ModalRust.Text

/-!
# Operations of `str`

The string operations of Rust's standard library that take specs and names apart: trimming,
splitting at a character, and reading integers. Nothing in this file refers to a particular
program.
-/

namespace ModalRust

/-- `str::trim`. -/
def trim (t : Text) : Text := (t.dropWhile isWhitespace).rdropWhile isWhitespace

/-- `str::split_once`: the text before and after the first separator. -/
def splitOnce (separator : Char) : Text → Option (Text × Text)
  | [] => none
  | c :: t =>
    if c = separator then some ([], t)
    else (splitOnce separator t).map fun parts => (c :: parts.1, parts.2)

/-- The value of a string of ASCII digits that is not empty. -/
def digitsValue (t : Text) : Option ℕ :=
  if t ≠ [] ∧ t.all Char.isDigit = true then
    some (t.foldl (fun n c => 10 * n + (c.toNat - 48)) 0)
  else none

/-- `str::parse::<u32>`: digits after an optional plus sign, in range. -/
def parseU32 (t : Text) : Option ℕ :=
  (digitsValue (if t.head? = some '+' then t.tail else t)).filter fun n => n < 2 ^ 32

/-- `str::parse::<i32>`: digits after an optional sign, in range. -/
def parseI32 (t : Text) : Option ℤ :=
  if t.head? = some '-' then
    ((digitsValue t.tail).filter fun n => n ≤ 2 ^ 31).map fun n => -(n : ℤ)
  else
    ((digitsValue (if t.head? = some '+' then t.tail else t)).filter fun n => n < 2 ^ 31).map
      fun n => (n : ℤ)

/-- `str::parse::<u64>`: digits after an optional plus sign, in range. -/
def parseU64 (t : Text) : Option ℕ :=
  (digitsValue (if t.head? = some '+' then t.tail else t)).filter fun n => n < 2 ^ 64

/-- `str::parse::<u16>`: digits after an optional plus sign, in range. -/
def parseU16 (t : Text) : Option ℕ :=
  (digitsValue (if t.head? = some '+' then t.tail else t)).filter fun n => n < 2 ^ 16

/-- Integers out of range are rejected. -/
example : parseU32 "4294967296".toList = none := by decide

/-- A text is taken apart where a separator was put in. -/
theorem splitOnce_append {separator : Char} {name : Text} (hname : separator ∉ name)
    (value : Text) : splitOnce separator (name ++ separator :: value) = some (name, value) := by
  induction name with
  | nil => simp [splitOnce]
  | cons c name ih =>
    rw [List.mem_cons, not_or] at hname
    rw [List.cons_append, splitOnce, if_neg (Ne.symm hname.1), ih hname.2]
    rfl

/-- Nothing is trimmed where there is no whitespace. -/
theorem trim_eq_self {t : Text} (ht : ∀ c ∈ t, isWhitespace c = false) : trim t = t := by
  have hdrop : t.dropWhile isWhitespace = t := by
    cases t with
    | nil => rfl
    | cons c t => rw [List.dropWhile_cons_of_neg (by simp [ht c (by simp)])]
  unfold trim
  rw [hdrop, List.rdropWhile_eq_self_iff]
  intro hne
  simp [ht _ (List.getLast_mem hne)]

end ModalRust
