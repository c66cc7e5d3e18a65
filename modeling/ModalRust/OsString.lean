import ModalRust.Text

/-!
# Names of the operating system

File names as byte strings, and the lossy conversion to text: every maximal part of a name that is
no UTF-8 becomes one replacement character, so different names may have the same text. A converted
name is never empty and has no separator. Nothing in this file refers to a particular program.
-/

namespace ModalRust

/-- A file name as bytes. -/
structure RawFileName where
  /-- The bytes. -/
  bytes : Bytes
  /-- A name is not empty. -/
  ne_nil : bytes ≠ []
  /-- A name has no separator. -/
  no_slash : 47 ∉ bytes
  /-- A name has no NUL. -/
  no_nul : 0 ∉ bytes
  /-- The entries `.` and `..` are not names. -/
  no_dots : bytes ≠ [46] ∧ bytes ≠ [46, 46]
  deriving DecidableEq

/-- The replacement character. -/
def replacement : Char := '\uFFFD'

/-- Whether a byte continues a character. -/
def isTail (b : ℕ) : Bool := 0x80 ≤ b && b ≤ 0xBF

/-- Whether a byte may follow the first byte of a character of three bytes. -/
def isSecondOfThree (first b : ℕ) : Bool :=
  if first = 0xE0 then 0xA0 ≤ b && b ≤ 0xBF
  else if first = 0xED then 0x80 ≤ b && b ≤ 0x9F
  else isTail b

/-- Whether a byte may follow the first byte of a character of four bytes. -/
def isSecondOfFour (first b : ℕ) : Bool :=
  if first = 0xF0 then 0x90 ≤ b && b ≤ 0xBF
  else if first = 0xF4 then 0x80 ≤ b && b ≤ 0x8F
  else isTail b

/-- What the first bytes of a text stand for, and how many bytes behind the first belong to it: a
character, or a maximal part that is none. -/
def firstChar (a : ℕ) (rest : List ℕ) : Char × ℕ :=
  if a < 0x80 then (Char.ofNat a, 0)
  else if 0xC2 ≤ a ∧ a ≤ 0xDF then
    match rest with
    | b :: _ => if isTail b then (Char.ofNat (a % 32 * 64 + b % 64), 1) else (replacement, 0)
    | [] => (replacement, 0)
  else if 0xE0 ≤ a ∧ a ≤ 0xEF then
    match rest with
    | b :: c :: _ =>
      if !isSecondOfThree a b then (replacement, 0)
      else if !isTail c then (replacement, 1)
      else (Char.ofNat ((a % 16 * 64 + b % 64) * 64 + c % 64), 2)
    | [b] => (replacement, if isSecondOfThree a b then 1 else 0)
    | [] => (replacement, 0)
  else if 0xF0 ≤ a ∧ a ≤ 0xF4 then
    match rest with
    | b :: c :: d :: _ =>
      if !isSecondOfFour a b then (replacement, 0)
      else if !isTail c then (replacement, 1)
      else if !isTail d then (replacement, 2)
      else (Char.ofNat (((a % 8 * 64 + b % 64) * 64 + c % 64) * 64 + d % 64), 3)
    | [b, c] => (replacement, if !isSecondOfFour a b then 0 else if isTail c then 2 else 1)
    | [b] => (replacement, if isSecondOfFour a b then 1 else 0)
    | [] => (replacement, 0)
  else (replacement, 0)

/-- The lossy conversion, behind bytes that are passed over. -/
def lossyFrom : ℕ → List ℕ → Text
  | _, [] => []
  | skip + 1, _ :: rest => lossyFrom skip rest
  | 0, a :: rest => (firstChar a rest).1 :: lossyFrom (firstChar a rest).2 rest

/-- `to_string_lossy`. -/
def RawFileName.toStringLossy (name : RawFileName) : Text :=
  lossyFrom 0 (name.bytes.map UInt8.toNat)

/-- Different bytes that are no text have the same text; a truncated character is one part. -/
example : lossyFrom 0 [0xFF, 0x61] = lossyFrom 0 [0xFE, 0x61] ∧
    lossyFrom 0 [0xE2, 0x82, 0x61] = [replacement, 'a'] ∧
    lossyFrom 0 [0xC3, 0xA9] = ['é'] := by decide +kernel

/-- The number of a character that is made from a number. -/
theorem toNat_ofNat (n : ℕ) : (Char.ofNat n).toNat = n ∨ (Char.ofNat n).toNat = 0 := by
  by_cases hvalid : n.isValidChar
  · left
    unfold Char.ofNat
    rw [dif_pos hvalid]
    rfl
  · right
    unfold Char.ofNat
    rw [dif_neg hvalid]
    rfl

/-- Only the number of the separator makes it. -/
theorem ofNat_ne_slash {n : ℕ} (hn : n ≠ 47) : Char.ofNat n ≠ '/' := by
  intro heq
  have hnumber : (Char.ofNat n).toNat = 47 := by rw [heq]; rfl
  rcases toNat_ofNat n with h | h <;> omega

/-- Only the byte of the separator becomes the separator. -/
theorem firstChar_ne_slash {a : ℕ} (ha : a ≠ 47) (rest : List ℕ) :
    (firstChar a rest).1 ≠ '/' := by
  have hreplacement : replacement ≠ '/' := by decide
  unfold firstChar
  split_ifs with hascii htwo hthree hfour
  · exact ofNat_ne_slash ha
  · rcases rest with - | ⟨b, rest⟩
    · exact hreplacement
    · dsimp only
      split_ifs with hb
      · apply ofNat_ne_slash
        omega
      · exact hreplacement
  · rcases rest with - | ⟨b, - | ⟨c, rest⟩⟩
    · exact hreplacement
    · exact hreplacement
    · dsimp only
      split_ifs with hb hc
      · exact hreplacement
      · exact hreplacement
      · apply ofNat_ne_slash
        have hsecond : isSecondOfThree a b = true := by simpa using hb
        have hlarge : 1 ≤ a % 16 ∨ 32 ≤ b % 64 := by
          by_cases hfirst : a = 0xE0
          · right
            unfold isSecondOfThree at hsecond
            rw [if_pos hfirst, Bool.and_eq_true, decide_eq_true_eq, decide_eq_true_eq] at hsecond
            omega
          · left
            omega
        omega
  · rcases rest with - | ⟨b, - | ⟨c, - | ⟨d, rest⟩⟩⟩
    · exact hreplacement
    · exact hreplacement
    · exact hreplacement
    · dsimp only
      split_ifs with hb hc hd
      · exact hreplacement
      · exact hreplacement
      · exact hreplacement
      · apply ofNat_ne_slash
        have hsecond : isSecondOfFour a b = true := by simpa using hb
        have hlarge : 1 ≤ a % 8 ∨ 16 ≤ b % 64 := by
          by_cases hfirst : a = 0xF0
          · right
            unfold isSecondOfFour at hsecond
            rw [if_pos hfirst, Bool.and_eq_true, decide_eq_true_eq, decide_eq_true_eq] at hsecond
            omega
          · left
            omega
        omega
  · exact hreplacement

/-- The conversion makes no separators. -/
theorem slash_notMem_lossyFrom {bytes : List ℕ} (hbytes : 47 ∉ bytes) (skip : ℕ) :
    '/' ∉ lossyFrom skip bytes := by
  induction bytes generalizing skip with
  | nil =>
    rw [lossyFrom]
    exact List.not_mem_nil
  | cons a rest ih =>
    rw [List.mem_cons, not_or] at hbytes
    cases skip with
    | succ skip =>
      rw [lossyFrom]
      exact ih hbytes.2 skip
    | zero =>
      rw [lossyFrom, List.mem_cons, not_or]
      exact ⟨(firstChar_ne_slash (Ne.symm hbytes.1) rest).symm, ih hbytes.2 _⟩

/-- A converted name has no separator. -/
theorem RawFileName.slash_notMem (name : RawFileName) : '/' ∉ name.toStringLossy := by
  apply slash_notMem_lossyFrom
  intro hmem
  obtain ⟨b, hb, heq⟩ := List.mem_map.mp hmem
  have hslash : b = 47 := UInt8.toNat_inj.mp heq
  exact name.no_slash (hslash ▸ hb)

/-- A converted name is not empty. -/
theorem RawFileName.toStringLossy_ne_nil (name : RawFileName) : name.toStringLossy ≠ [] := by
  obtain ⟨b, bytes, hbytes⟩ := List.exists_cons_of_ne_nil name.ne_nil
  unfold toStringLossy
  rw [hbytes, List.map_cons, lossyFrom]
  exact List.cons_ne_nil _ _

end ModalRust
