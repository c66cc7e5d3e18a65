import Mathlib.Algebra.Order.Field.Power
import Mathlib.Data.List.DropRight
import Mathlib.Data.Rat.Floor
import Mathlib.Tactic.Linarith
import Mathlib.Tactic.Positivity
import Mathlib.Tactic.Ring
import ModalRust.Str

/-!
# Decimal texts

The decimal numbers that Rust's `str::parse` reads as a float, without their sign, and the text
without an exponent that a float is displayed as. The text of a number is read as this number.
Nothing in this file refers to a particular program.
-/

namespace ModalRust

/-- Digits after an optional sign. -/
def signedValue (t : Text) : Option ℤ :=
  if t.head? = some '-' then (digitsValue t.tail).map fun n : ℕ => -(n : ℤ)
  else (digitsValue (if t.head? = some '+' then t.tail else t)).map fun n : ℕ => (n : ℤ)

/-- The exponent at the end of a number: none, or `e`, an optional sign and digits. -/
def exponentValue : Text → Option ℤ
  | [] => some 0
  | c :: t => if c = 'e' ∨ c = 'E' then signedValue t else none

/-- The digits after a decimal point, and what comes after them. -/
def fractionDigits (t : Text) : Text × Text :=
  if t.head? = some '.' then (t.tail.takeWhile Char.isDigit, t.tail.dropWhile Char.isDigit)
  else ([], t)

/-- A decimal number: digits, of which some may come after a point, and an exponent. -/
def parseDecimal (t : Text) : Option ℚ :=
  let whole := t.takeWhile Char.isDigit
  let fraction := fractionDigits (t.dropWhile Char.isDigit)
  if whole = [] ∧ fraction.1 = [] then none
  else (exponentValue fraction.2).map fun e : ℤ =>
    (Nat.ofDigitChars 10 (whole ++ fraction.1) 0 : ℚ) * 10 ^ (e - fraction.1.length)

/-- A number with zeros in front of it, up to the given number of digits. -/
def padded (n k : ℕ) : Text :=
  List.replicate (k - (Nat.toDigits 10 n).length) '0' ++ Nat.toDigits 10 n

/-- The text of `m * 10 ^ s`, without an exponent and without zeros at its end after the
point. -/
def decimalText (m : ℕ) (s : ℤ) : Text :=
  if 0 ≤ s then Nat.toDigits 10 (m * 10 ^ s.toNat)
  else
    let d := (-s).toNat
    let fraction := (padded (m % 10 ^ d) d).rdropWhile (· == '0')
    Nat.toDigits 10 (m / 10 ^ d) ++ if fraction = [] then [] else '.' :: fraction

/-- A decimal number. -/
example : parseDecimal "1_5".toList = none ∧ parseDecimal "12.5e-1".toList = some (5 / 4) := by
  decide +kernel

/-- The zeros at the end are left out. -/
example : decimalText 1250 (-4) = "0.125".toList ∧ decimalText 3 2 = "300".toList := by decide

/-! ### Digits -/

/-- The digits of a number are digits. -/
theorem isDigit_toDigits {n : ℕ} {c : Char} (hc : c ∈ Nat.toDigits 10 n) : c.isDigit = true :=
  Nat.isDigit_of_mem_toDigits (by omega) (by omega) hc

/-- Digits are taken up to something else. -/
theorem takeWhile_digits {digits rest : Text} (hdigits : ∀ c ∈ digits, c.isDigit = true)
    (hrest : ∀ c ∈ rest.head?, c.isDigit = false) :
    (digits ++ rest).takeWhile Char.isDigit = digits ∧
      (digits ++ rest).dropWhile Char.isDigit = rest := by
  rw [List.takeWhile_append_of_pos hdigits, List.dropWhile_append_of_pos hdigits]
  cases rest with
  | nil => simp
  | cons c rest =>
    have hc := hrest c (by simp)
    simp [hc]

/-- The value of digits. -/
theorem digitsValue_eq {t : Text} (hne : t ≠ []) (hdigits : ∀ c ∈ t, c.isDigit = true) :
    digitsValue t = some (Nat.ofDigitChars 10 t 0) :=
  if_pos ⟨hne, List.all_eq_true.mpr hdigits⟩

/-- What has a value consists of digits. -/
theorem isDigit_of_digitsValue {t : Text} {n : ℕ} (ht : digitsValue t = some n) :
    t ≠ [] ∧ (∀ c ∈ t, c.isDigit = true) ∧ Nat.ofDigitChars 10 t 0 = n := by
  unfold digitsValue at ht
  split at ht
  · next hdigits =>
    obtain ⟨hne, hall⟩ := hdigits
    cases ht
    exact ⟨hne, List.all_eq_true.mp hall, rfl⟩
  · cases ht

/-- The digits of a number are read as the number. -/
@[simp]
theorem digitsValue_toDigits (n : ℕ) : digitsValue (Nat.toDigits 10 n) = some n := by
  rw [digitsValue_eq Nat.toDigits_ne_nil fun c hc => isDigit_toDigits hc,
    Nat.ofDigitChars_ten_toDigits]

/-- Zeros in front do not count. -/
theorem ofDigitChars_padded (n k : ℕ) : Nat.ofDigitChars 10 (padded n k) 0 = n := by
  unfold padded
  rw [Nat.ofDigitChars_append, Nat.ofDigitChars_replicate_zero, Nat.mul_zero,
    Nat.ofDigitChars_ten_toDigits]

/-- A number below the power of ten has at most that many digits. -/
theorem length_padded {n k : ℕ} (hk : 0 < k) (hn : n < 10 ^ k) : (padded n k).length = k := by
  have hlength : (Nat.toDigits 10 n).length ≤ k :=
    (Nat.length_toDigits_le_iff (by omega) hk).mpr hn
  unfold padded
  rw [List.length_append, List.length_replicate]
  omega

/-- Every character of a padded number is a digit. -/
theorem isDigit_padded {n k : ℕ} {c : Char} (hc : c ∈ padded n k) : c.isDigit = true := by
  unfold padded at hc
  rcases List.mem_append.mp hc with hzero | hdigit
  · rw [List.eq_of_mem_replicate hzero]
    rfl
  · exact isDigit_toDigits hdigit

/-! ### Reading numbers -/

/-- Digits, a point and digits. -/
theorem parseDecimal_point {whole fraction : Text} (hne : whole ≠ [])
    (hwhole : ∀ c ∈ whole, c.isDigit = true) (hfraction : ∀ c ∈ fraction, c.isDigit = true) :
    parseDecimal (whole ++ if fraction = [] then [] else '.' :: fraction) =
      some ((Nat.ofDigitChars 10 (whole ++ fraction) 0 : ℚ) * 10 ^ (-(fraction.length : ℤ))) := by
  have hrest : ∀ c ∈ (if fraction = [] then [] else '.' :: fraction).head?,
      c.isDigit = false := by
    intro c hc
    split at hc
    · cases hc
    · cases hc
      rfl
  obtain ⟨htake, hdrop⟩ := takeWhile_digits hwhole hrest
  have hsplit : fractionDigits (if fraction = [] then [] else '.' :: fraction) =
      (fraction, []) := by
    unfold fractionDigits
    by_cases hnil : fraction = []
    · simp [hnil]
    · have hend : ∀ c ∈ ([] : Text).head?, c.isDigit = false := by simp
      obtain ⟨hall, hnone⟩ := takeWhile_digits hfraction hend
      rw [List.append_nil] at hall hnone
      simp [hnil, hall, hnone]
  unfold parseDecimal
  rw [htake, hdrop, hsplit]
  simp [hne, exponentValue]

/-- A number without a sign is not negative. -/
theorem nonneg_of_parseDecimal {t : Text} {q : ℚ} (ht : parseDecimal t = some q) : 0 ≤ q := by
  unfold parseDecimal at ht
  dsimp only at ht
  split at ht
  · cases ht
  · obtain ⟨e, -, rfl⟩ := Option.map_eq_some_iff.mp ht
    positivity

/-- An integer is a decimal number. -/
theorem parseDecimal_of_digitsValue {t : Text} {n : ℕ} (ht : digitsValue t = some n) :
    parseDecimal t = some (n : ℚ) := by
  obtain ⟨hne, hdigits, rfl⟩ := isDigit_of_digitsValue ht
  have hnil : ∀ c ∈ ([] : Text), c.isDigit = true := by simp
  simpa using parseDecimal_point hne hdigits hnil

/-- Only zeros are left out at the end. -/
theorem exists_zeros (t : Text) :
    ∃ k, t.rdropWhile (· == '0') ++ List.replicate k '0' = t := by
  refine ⟨(t.rtakeWhile (· == '0')).length, ?_⟩
  have hzeros : List.replicate (t.rtakeWhile (· == '0')).length '0' = t.rtakeWhile (· == '0') := by
    rw [eq_comm, List.eq_replicate_iff]
    refine ⟨rfl, fun c hc => ?_⟩
    have hzero : (c == '0') = true := List.mem_rtakeWhile_imp (p := (· == '0')) hc
    exact beq_iff_eq.mp hzero
  rw [hzeros, List.rdropWhile_append_rtakeWhile]

/-- **The text of a number is read as the number.** -/
theorem parseDecimal_decimalText (m : ℕ) (s : ℤ) :
    parseDecimal (decimalText m s) = some ((m : ℚ) * 10 ^ s) := by
  unfold decimalText
  split
  · next hs =>
    rw [parseDecimal_of_digitsValue (digitsValue_toDigits _)]
    obtain ⟨k, rfl⟩ := Int.eq_ofNat_of_zero_le hs
    rw [Int.toNat_natCast, zpow_natCast]
    push_cast
    rfl
  · next hs =>
    obtain ⟨d, hd, rfl⟩ : ∃ d : ℕ, 0 < d ∧ s = -(d : ℤ) := ⟨(-s).toNat, by omega, by omega⟩
    rw [neg_neg, Int.toNat_natCast]
    dsimp only
    obtain ⟨k, hk⟩ := exists_zeros (padded (m % 10 ^ d) d)
    generalize hfraction : (padded (m % 10 ^ d) d).rdropWhile (· == '0') = fraction at hk ⊢
    have hdigits : ∀ c ∈ fraction, c.isDigit = true := by
      intro c hc
      have hmem : c ∈ padded (m % 10 ^ d) d := by
        rw [← hk]
        exact List.mem_append_left _ hc
      exact isDigit_padded hmem
    have hlength : fraction.length + k = d := by
      have hpadded := length_padded hd (Nat.mod_lt m (by positivity : 0 < 10 ^ d))
      rwa [← hk, List.length_append, List.length_replicate] at hpadded
    -- the zeros that were left out are a power of ten
    have hvalue :
        10 ^ k * Nat.ofDigitChars 10 (Nat.toDigits 10 (m / 10 ^ d) ++ fraction) 0 = m := by
      have hfull : Nat.ofDigitChars 10
          (Nat.toDigits 10 (m / 10 ^ d) ++ (fraction ++ List.replicate k '0')) 0 = m := by
        rw [hk, Nat.ofDigitChars_append, Nat.ofDigitChars_eq_ofDigitChars_zero,
          ofDigitChars_padded, length_padded hd (Nat.mod_lt m (by positivity)),
          Nat.ofDigitChars_ten_toDigits]
        exact Nat.div_add_mod m (10 ^ d)
      rwa [← List.append_assoc, Nat.ofDigitChars_append, Nat.ofDigitChars_replicate_zero] at hfull
    rw [parseDecimal_point Nat.toDigits_ne_nil (fun c hc => isDigit_toDigits hc) hdigits]
    congr 1
    have hm : (m : ℚ) = 10 ^ k *
        (Nat.ofDigitChars 10 (Nat.toDigits 10 (m / 10 ^ d) ++ fraction) 0 : ℕ) := by
      exact_mod_cast hvalue.symm
    rw [hm, ← hlength]
    push_cast
    rw [neg_add, zpow_add₀ (by norm_num), zpow_neg _ (k : ℤ), zpow_natCast]
    field_simp

/-- The characters of a decimal number. -/
def isDecimal (c : Char) : Bool := c.isDigit || c ∈ ['.', 'e', 'E', '+', '-']

/-- A signed number consists of a sign and digits. -/
theorem isDecimal_of_signedValue {t : Text} {e : ℤ} (ht : signedValue t = some e) :
    ∀ c ∈ t, isDecimal c = true := by
  have hdigits : ∀ {u : Text} {n : ℕ}, digitsValue u = some n → ∀ c ∈ u, isDecimal c = true := by
    intro u n hu c hc
    have hdigit := (isDigit_of_digitsValue hu).2.1 c hc
    simp [isDecimal, hdigit]
  have hsign : ∀ {sign : Char} {n : ℕ}, isDecimal sign = true → t.head? = some sign →
      digitsValue t.tail = some n → ∀ c ∈ t, isDecimal c = true := by
    intro sign n hsign hhead htail c hc
    obtain ⟨tail, rfl⟩ := List.head?_eq_some_iff.mp hhead
    rcases List.mem_cons.mp hc with rfl | hmem
    · exact hsign
    · exact hdigits htail c hmem
  unfold signedValue at ht
  split at ht
  · next hminus =>
    obtain ⟨n, hn, -⟩ := Option.map_eq_some_iff.mp ht
    exact hsign (by decide) hminus hn
  · obtain ⟨n, hn, -⟩ := Option.map_eq_some_iff.mp ht
    split at hn
    · next hplus => exact hsign (by decide) hplus hn
    · exact hdigits hn

/-- An exponent consists of the characters of a decimal number. -/
theorem isDecimal_of_exponentValue {t : Text} {e : ℤ} (ht : exponentValue t = some e) :
    ∀ c ∈ t, isDecimal c = true := by
  intro c hc
  cases t with
  | nil => cases hc
  | cons d t =>
    rw [exponentValue] at ht
    split at ht
    · next hd =>
      rcases List.mem_cons.mp hc with rfl | hmem
      · rcases hd with rfl | rfl <;> decide
      · exact isDecimal_of_signedValue ht c hmem
    · cases ht

/-- A decimal number consists of the characters of one. -/
theorem isDecimal_of_parseDecimal {t : Text} {q : ℚ} (ht : parseDecimal t = some q) :
    ∀ c ∈ t, isDecimal c = true := by
  have hdigit : ∀ {u : Text} {c : Char}, c ∈ u.takeWhile Char.isDigit → isDecimal c = true := by
    intro u c hc
    have hdigit : c.isDigit = true := List.mem_takeWhile_imp hc
    simp [isDecimal, hdigit]
  intro c hc
  unfold parseDecimal at ht
  dsimp only at ht
  split at ht
  · cases ht
  obtain ⟨e, he, -⟩ := Option.map_eq_some_iff.mp ht
  rw [← List.takeWhile_append_dropWhile (p := Char.isDigit) (l := t)] at hc
  rcases List.mem_append.mp hc with hwhole | hrest
  · exact hdigit hwhole
  generalize t.dropWhile Char.isDigit = rest at he hrest
  unfold fractionDigits at he
  split at he
  · next hpoint =>
    obtain ⟨tail, rfl⟩ := List.head?_eq_some_iff.mp hpoint
    rcases List.mem_cons.mp hrest with rfl | hmem
    · decide
    rw [← List.takeWhile_append_dropWhile (p := Char.isDigit) (l := tail)] at hmem
    rcases List.mem_append.mp hmem with hfraction | hend
    · exact hdigit hfraction
    · exact isDecimal_of_exponentValue he c hend
  · exact isDecimal_of_exponentValue he c hrest

/-- A decimal number starts with a digit or with the point. -/
theorem head_of_parseDecimal {t : Text} {q : ℚ} (ht : parseDecimal t = some q) :
    t.head? ≠ some '-' ∧ t.head? ≠ some '+' := by
  have hne : ∀ {sign : Char}, sign.isDigit = false → sign ≠ '.' → t.head? ≠ some sign := by
    intro sign hdigit hpoint hhead
    obtain ⟨tail, rfl⟩ := List.head?_eq_some_iff.mp hhead
    have hnone : parseDecimal (sign :: tail) = none := by
      simp [parseDecimal, fractionDigits, hdigit, hpoint]
    rw [hnone] at ht
    cases ht
  exact ⟨hne rfl (by decide), hne rfl (by decide)⟩

end ModalRust
