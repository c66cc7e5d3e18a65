import Mathlib.Algebra.Order.Field.Power
import Mathlib.Algebra.Order.Ring.Abs
import Mathlib.Data.Int.Log
import Mathlib.Data.Rat.Floor
import Mathlib.Tactic.FieldSimp
import Mathlib.Tactic.Linarith
import Mathlib.Tactic.Positivity
import Mathlib.Tactic.Ring

/-!
# Binary floating-point formats

Formats with a number of significant bits and a least exponent, over the nonnegative rationals:
the numbers that a format holds, rounding to the nearest of them with ties to even, and the bits
of a number. A number that is rounded in a wide format and then in a narrow one ends at a number
of the narrow format that is nearest to the intermediate one. Nothing in this file refers to a
particular program.
-/

namespace ModalRust

/-- A binary floating-point format. -/
structure BinaryFormat where
  /-- The number of significant bits. -/
  precision : ℕ
  /-- The exponent of the least positive number. -/
  minExp : ℤ
  /-- The exponent of the least power of two that is too large. -/
  maxExp : ℤ
  /-- There is a significant bit. -/
  precision_pos : 0 < precision

namespace BinaryFormat

/-- Single precision. -/
def single : BinaryFormat := ⟨24, -149, 128, by decide⟩

/-- Double precision. -/
def double : BinaryFormat := ⟨53, -1074, 1024, by decide⟩

variable (f : BinaryFormat)

/-- The numbers of a format, where none is too large. -/
def Holds (x : ℚ) : Prop :=
  ∃ (m : ℕ) (e : ℤ), f.minExp ≤ e ∧ m < 2 ^ f.precision ∧ x = m * 2 ^ e

/-- No number of the format is closer to `x` than `y`. -/
def Nearest (x y : ℚ) : Prop := f.Holds y ∧ ∀ z, f.Holds z → |x - y| ≤ |x - z|

/-- The exponent of the last significant bit of a number. -/
def unitExp (x : ℚ) : ℤ :=
  if x ≤ 0 then f.minExp else max f.minExp (Int.log 2 x - (f.precision - 1))

/-- The nearest integer, with ties to even. -/
def roundHalfEven (q : ℚ) : ℕ :=
  if q - ⌊q⌋₊ < 1 / 2 then ⌊q⌋₊
  else if 1 / 2 < q - ⌊q⌋₊ then ⌊q⌋₊ + 1
  else ⌊q⌋₊ + ⌊q⌋₊ % 2

/-- The significant bits of a number after rounding, as an integer. -/
def significand (x : ℚ) : ℕ := roundHalfEven (x / 2 ^ f.unitExp x)

/-- Rounding to the nearest number of the format, with ties to even. -/
def round (x : ℚ) : ℚ := f.significand x * 2 ^ f.unitExp x

/-- The bits of infinity. -/
def infinityBits : ℕ := (f.maxExp - f.precision - f.minExp + 2).toNat * 2 ^ (f.precision - 1)

/-- The bits of a number after rounding. -/
def bits (x : ℚ) : ℕ :=
  min ((f.unitExp x - f.minExp).toNat * 2 ^ (f.precision - 1) + f.significand x) f.infinityBits

/-- The number of the given bits, where none is too large. -/
def numberOfBits (b : ℕ) : ℚ :=
  if b / 2 ^ (f.precision - 1) = 0 then b * 2 ^ f.minExp
  else (2 ^ (f.precision - 1) + b % 2 ^ (f.precision - 1) : ℕ) *
    2 ^ (f.minExp + (b / 2 ^ (f.precision - 1) : ℕ) - 1)

/-- The number of the given bits, unless they are infinite or no number. -/
def ofBits (b : ℕ) : Option ℚ := if b < f.infinityBits then some (f.numberOfBits b) else none

variable {f}

/-- Twice the weight of the first bit. -/
theorem two_pow_precision (f : BinaryFormat) :
    2 ^ f.precision = 2 * 2 ^ (f.precision - 1) := by
  have hpos := f.precision_pos
  rw [← pow_succ']
  congr 1
  omega

/-! ### The numbers of a format -/

/-- A number of the format is not negative. -/
theorem Holds.nonneg {x : ℚ} (hx : f.Holds x) : 0 ≤ x := by
  obtain ⟨m, e, -, -, rfl⟩ := hx
  positivity

/-- A significand may also be the power of two that is one too large. -/
theorem holds_of_le {m : ℕ} {e : ℤ} (he : f.minExp ≤ e) (hm : m ≤ 2 ^ f.precision) :
    f.Holds (m * 2 ^ e) := by
  rcases hm.lt_or_eq with hlt | rfl
  · exact ⟨m, e, he, hlt, rfl⟩
  · refine ⟨2 ^ (f.precision - 1), e + 1, by omega, ?_, ?_⟩
    · have hpos := f.precision_pos
      exact Nat.pow_lt_pow_right (by omega) (by omega)
    · rw [f.two_pow_precision, zpow_add_one₀ (by norm_num)]
      push_cast
      ring

/-- A number with a larger exponent is a multiple of the unit. -/
theorem exists_multiple {m : ℕ} {d e : ℤ} (hle : d ≤ e) :
    ∃ k : ℕ, (m : ℚ) * 2 ^ e = k * 2 ^ d := by
  refine ⟨m * 2 ^ (e - d).toNat, ?_⟩
  have hexp : e = ((e - d).toNat : ℤ) + d := by omega
  conv_lhs => rw [hexp, zpow_add₀ (by norm_num), zpow_natCast]
  push_cast
  ring

/-- Above a number of the format, the next step is not beyond any other one. -/
theorem exists_step_up {a b : ℚ} (ha : f.Holds a) (hb : f.Holds b) (hlt : a < b) :
    ∃ (n : ℕ) (e : ℤ), f.minExp ≤ e ∧ n < 2 ^ f.precision ∧ a = n * 2 ^ e ∧
      ((n + 1 : ℕ) : ℚ) * 2 ^ e ≤ b := by
  obtain ⟨m₁, e₁, he₁, hm₁, rfl⟩ := ha
  obtain ⟨m₂, e₂, he₂, hm₂, rfl⟩ := hb
  rcases le_total e₁ e₂ with hle | hle
  · obtain ⟨k, hk⟩ := exists_multiple (m := m₂) hle
    have hpos : (0 : ℚ) < 2 ^ e₁ := by positivity
    rw [hk] at hlt ⊢
    have hmk : m₁ < k := by exact_mod_cast lt_of_mul_lt_mul_right hlt hpos.le
    refine ⟨m₁, e₁, he₁, hm₁, rfl, ?_⟩
    gcongr
    exact_mod_cast hmk
  · obtain ⟨k, hk⟩ := exists_multiple (m := m₁) hle
    have hpos : (0 : ℚ) < 2 ^ e₂ := by positivity
    rw [hk] at hlt ⊢
    have hkm : k < m₂ := by exact_mod_cast lt_of_mul_lt_mul_right hlt hpos.le
    refine ⟨k, e₂, he₂, by omega, rfl, ?_⟩
    gcongr
    exact_mod_cast hkm

/-- Below a number of the format, the next step is not beyond any other one. -/
theorem exists_step_down {a b : ℚ} (ha : f.Holds a) (hb : f.Holds b) (hlt : a < b) :
    ∃ (n : ℕ) (e : ℤ), f.minExp ≤ e ∧ n < 2 ^ f.precision ∧
      b = ((n + 1 : ℕ) : ℚ) * 2 ^ e ∧ a ≤ n * 2 ^ e := by
  obtain ⟨m₁, e₁, he₁, hm₁, rfl⟩ := ha
  obtain ⟨m₂, e₂, he₂, hm₂, rfl⟩ := hb
  rcases le_total e₂ e₁ with hle | hle
  · obtain ⟨k, hk⟩ := exists_multiple (m := m₁) hle
    have hpos : (0 : ℚ) < 2 ^ e₂ := by positivity
    rw [hk] at hlt ⊢
    have hkm : k < m₂ := by exact_mod_cast lt_of_mul_lt_mul_right hlt hpos.le
    refine ⟨m₂ - 1, e₂, he₂, by omega, by rw [Nat.sub_add_cancel (by omega)], ?_⟩
    gcongr
    exact_mod_cast Nat.le_sub_one_of_lt hkm
  · -- lower the exponent of `b` until a step below it is not smaller than `a`
    obtain ⟨d, rfl⟩ : ∃ d : ℕ, e₂ = e₁ + d := ⟨(e₂ - e₁).toNat, by omega⟩
    have hle₂ : m₂ ≤ 2 ^ f.precision := hm₂.le
    clear hm₂ he₂ hle
    induction d generalizing m₂ with
    | zero =>
      rw [Nat.cast_zero, add_zero] at hlt ⊢
      have hpos : (0 : ℚ) < 2 ^ e₁ := by positivity
      have hmm : m₁ < m₂ := by exact_mod_cast lt_of_mul_lt_mul_right hlt hpos.le
      refine ⟨m₂ - 1, e₁, he₁, by omega, by rw [Nat.sub_add_cancel (by omega)], ?_⟩
      gcongr
      exact_mod_cast Nat.le_sub_one_of_lt hmm
    | succ d ih =>
      have hshift : (m₂ : ℚ) * 2 ^ (e₁ + (d + 1 : ℕ)) = ((2 * m₂ : ℕ) : ℚ) * 2 ^ (e₁ + d) := by
        rw [show e₁ + ((d + 1 : ℕ) : ℤ) = e₁ + d + 1 by push_cast; ring,
          zpow_add_one₀ (by norm_num)]
        push_cast
        ring
      by_cases hsmall : 2 * m₂ ≤ 2 ^ f.precision
      · rw [hshift] at hlt ⊢
        exact ih _ hlt hsmall
      · have htwo := f.two_pow_precision
        refine ⟨m₂ - 1, e₁ + (d + 1 : ℕ), by omega, by omega,
          by rw [Nat.sub_add_cancel (by omega)], ?_⟩
        have hm₁' : (m₁ : ℚ) ≤ ((2 * (m₂ - 1) : ℕ) : ℚ) := by
          exact_mod_cast (by omega : m₁ ≤ 2 * (m₂ - 1))
        have hone : (2 : ℚ) * 2 ^ e₁ ≤ 2 ^ (e₁ + ((d + 1 : ℕ) : ℤ)) := by
          rw [mul_comm, ← zpow_add_one₀ (by norm_num)]
          exact zpow_le_zpow_right₀ (by norm_num) (by omega)
        calc (m₁ : ℚ) * 2 ^ e₁ ≤ ((2 * (m₂ - 1) : ℕ) : ℚ) * 2 ^ e₁ := by gcongr
          _ = ((m₂ - 1 : ℕ) : ℚ) * (2 * 2 ^ e₁) := by push_cast; ring
          _ ≤ ((m₂ - 1 : ℕ) : ℚ) * 2 ^ (e₁ + ((d + 1 : ℕ) : ℤ)) := by gcongr

/-! ### Rounding -/

/-- A number is rounded down or up. -/
theorem roundHalfEven_eq (q : ℚ) : roundHalfEven q = ⌊q⌋₊ ∨ roundHalfEven q = ⌊q⌋₊ + 1 := by
  unfold roundHalfEven
  split
  · exact Or.inl rfl
  split
  · exact Or.inr rfl
  · omega

/-- A number is not rounded down if it is closer to the next integer, and not up if it is closer
to the last one. -/
theorem abs_sub_roundHalfEven_le {q : ℚ} (hq : 0 ≤ q) :
    |q - roundHalfEven q| ≤ q - ⌊q⌋₊ ∧ |q - roundHalfEven q| ≤ ⌊q⌋₊ + 1 - q := by
  have hfloor : (⌊q⌋₊ : ℚ) ≤ q := Nat.floor_le hq
  have hnext : q < ⌊q⌋₊ + 1 := Nat.lt_floor_add_one q
  have hdown : |q - (⌊q⌋₊ : ℕ)| = q - ⌊q⌋₊ := abs_of_nonneg (by linarith)
  have hup : |q - (⌊q⌋₊ + 1 : ℕ)| = ⌊q⌋₊ + 1 - q := by
    rw [abs_of_nonpos (by push_cast; linarith)]
    push_cast
    ring
  unfold roundHalfEven
  split
  · next hless =>
    rw [hdown]
    constructor <;> linarith
  split
  · next hmore =>
    rw [hup]
    constructor <;> linarith
  · next hless hmore =>
    -- a tie: both neighbours are equally close
    rcases Nat.mod_two_eq_zero_or_one ⌊q⌋₊ with hmod | hmod
    · rw [hmod, Nat.add_zero, hdown]
      constructor <;> linarith
    · rw [hmod, hup]
      constructor <;> linarith

/-- The exponent of the unit is not too small for the format. -/
theorem minExp_le_unitExp (x : ℚ) : f.minExp ≤ f.unitExp x := by
  unfold unitExp
  split
  · exact le_rfl
  · exact le_max_left _ _

/-- The unit is large enough for the significant bits. -/
theorem div_unit_lt (x : ℚ) : x / 2 ^ f.unitExp x < 2 ^ f.precision := by
  have hunit : (0 : ℚ) < 2 ^ f.unitExp x := by positivity
  rw [div_lt_iff₀ hunit]
  by_cases hx : x ≤ 0
  · exact hx.trans_lt (by positivity)
  · have hlog := Int.lt_zpow_succ_log_self (b := 2) (by norm_num) x
    refine hlog.trans_le ?_
    rw [← zpow_natCast, ← zpow_add₀ (by norm_num), unitExp, if_neg hx]
    refine zpow_le_zpow_right₀ (by norm_num) ?_
    have hmax := le_max_right f.minExp (Int.log 2 x - (f.precision - 1))
    omega

/-- The integer part of a number in units has the significant bits of the format. -/
theorem floor_lt (x : ℚ) : ⌊x / 2 ^ f.unitExp x⌋₊ < 2 ^ f.precision := by
  have hlt := f.div_unit_lt x
  by_contra hge
  have hpos : 2 ^ f.precision ≠ 0 := by positivity
  have hle := (Nat.le_floor_iff' hpos).mp (not_lt.mp hge)
  push_cast at hle
  linarith

/-- The significand may be one too large. -/
theorem significand_le (x : ℚ) : f.significand x ≤ 2 ^ f.precision := by
  have hlt := f.floor_lt x
  rcases roundHalfEven_eq (x / 2 ^ f.unitExp x) with heq | heq <;>
    (unfold significand; omega)

/-- What is rounded is a number of the format. -/
theorem holds_round (x : ℚ) : f.Holds (f.round x) :=
  f.holds_of_le (f.minExp_le_unitExp x) (f.significand_le x)

/-- A unit above the least one leaves all significant bits to the integer part. -/
theorem two_pow_le_floor {x : ℚ} (hx : 0 < x) (hexp : f.minExp < f.unitExp x) :
    2 ^ (f.precision - 1) ≤ ⌊x / 2 ^ f.unitExp x⌋₊ := by
  have hunit : (0 : ℚ) < 2 ^ f.unitExp x := by positivity
  have heq : f.unitExp x = Int.log 2 x - (f.precision - 1) := by
    have hmax : f.unitExp x = max f.minExp (Int.log 2 x - (f.precision - 1)) :=
      if_neg (not_le.mpr hx)
    omega
  rw [Nat.le_floor_iff (by positivity), le_div_iff₀ hunit]
  push_cast
  have hlog := Int.zpow_log_le_self (b := 2) (by norm_num) hx
  rw [← zpow_natCast, ← zpow_add₀ (by norm_num)]
  refine le_trans (zpow_le_zpow_right₀ (by norm_num) ?_) hlog
  have hpos := f.precision_pos
  omega

/-- No number of the format lies between the two neighbours of a number. -/
theorem not_between {x z : ℚ} (hx : 0 < x) (hz : f.Holds z) :
    z ≤ ⌊x / 2 ^ f.unitExp x⌋₊ * 2 ^ f.unitExp x ∨
      (⌊x / 2 ^ f.unitExp x⌋₊ + 1) * 2 ^ f.unitExp x ≤ z := by
  obtain ⟨m, e, he, hm, rfl⟩ := hz
  have hunit : (0 : ℚ) < 2 ^ f.unitExp x := by positivity
  generalize hn : ⌊x / 2 ^ f.unitExp x⌋₊ = n
  rcases le_or_gt (f.unitExp x) e with hle | hlt
  · -- a multiple of the unit
    obtain ⟨k, hk⟩ := exists_multiple (m := m) hle
    rw [hk]
    rcases le_or_gt k n with hkn | hkn
    · left
      gcongr
    · right
      gcongr
      exact_mod_cast hkn
  · -- smaller than the power of two below `x`
    left
    have hfloor := f.two_pow_le_floor hx (by omega)
    rw [hn] at hfloor
    have htwo : (2 : ℚ) * 2 ^ e ≤ 2 ^ f.unitExp x := by
      rw [mul_comm, ← zpow_add_one₀ (by norm_num)]
      exact zpow_le_zpow_right₀ (by norm_num) (by omega)
    have hmn : (m : ℚ) ≤ n * 2 := by
      have hbits := f.two_pow_precision
      exact_mod_cast (by omega : m ≤ n * 2)
    calc (m : ℚ) * 2 ^ e ≤ n * 2 * 2 ^ e := by gcongr
      _ = n * (2 * 2 ^ e) := by ring
      _ ≤ n * 2 ^ f.unitExp x := by gcongr

/-- Zero is rounded to zero. -/
@[simp]
theorem round_zero : f.round 0 = 0 := by
  unfold round significand roundHalfEven
  simp

/-- **Rounding yields a nearest number of the format.** -/
theorem nearest_round {x : ℚ} (hx : 0 ≤ x) : f.Nearest x (f.round x) := by
  refine ⟨f.holds_round x, fun z hz => ?_⟩
  rcases hx.eq_or_lt with rfl | hpos
  · rw [round_zero, sub_zero, abs_zero]
    exact abs_nonneg _
  have hunit : (0 : ℚ) < 2 ^ f.unitExp x := by positivity
  obtain ⟨hdown, hup⟩ := abs_sub_roundHalfEven_le (q := x / 2 ^ f.unitExp x) (by positivity)
  have hscale : |x - f.round x| =
      |x / 2 ^ f.unitExp x - f.significand x| * 2 ^ f.unitExp x := by
    rw [← abs_of_pos hunit, ← abs_mul, abs_of_pos hunit, sub_mul, div_mul_cancel₀ _ hunit.ne']
    rfl
  have hcancel : x / 2 ^ f.unitExp x * 2 ^ f.unitExp x = x := div_mul_cancel₀ _ hunit.ne'
  rw [hscale]
  rcases not_between hpos hz with hle | hge
  · calc _ ≤ (x / 2 ^ f.unitExp x - ⌊x / 2 ^ f.unitExp x⌋₊) * 2 ^ f.unitExp x := by
          gcongr
          exact hdown
      _ = x - ⌊x / 2 ^ f.unitExp x⌋₊ * 2 ^ f.unitExp x := by rw [sub_mul, hcancel]
      _ ≤ x - z := by linarith
      _ ≤ |x - z| := le_abs_self _
  · calc _ ≤ (⌊x / 2 ^ f.unitExp x⌋₊ + 1 - x / 2 ^ f.unitExp x) * 2 ^ f.unitExp x := by
          gcongr
          exact hup
      _ = (⌊x / 2 ^ f.unitExp x⌋₊ + 1) * 2 ^ f.unitExp x - x := by rw [sub_mul, hcancel]
      _ ≤ z - x := by linarith
      _ ≤ |x - z| := by
          rw [abs_sub_comm]
          exact le_abs_self _

/-- Of two neighbours at equal or smaller distance, the nearest number is on the side of `x`. -/
theorem Nearest.le_mid {x y z : ℚ} (hnearest : f.Nearest x y) (hz : f.Holds z) (hlt : y < z) :
    x ≤ (y + z) / 2 := by
  have hle := hnearest.2 z hz
  by_contra hgt
  rw [not_le] at hgt
  have hy : |x - y| = x - y := abs_of_pos (by linarith)
  rw [hy, le_abs] at hle
  rcases hle with hle | hle <;> linarith

/-- The same from above. -/
theorem Nearest.mid_le {x y z : ℚ} (hnearest : f.Nearest x y) (hz : f.Holds z) (hlt : z < y) :
    (z + y) / 2 ≤ x := by
  have hle := hnearest.2 z hz
  by_contra hgt
  rw [not_le] at hgt
  have hy : |x - y| = -(x - y) := abs_of_neg (by linarith)
  rw [hy, le_abs] at hle
  rcases hle with hle | hle <;> linarith

/-- A nearest number does not decrease. -/
theorem Nearest.mono {x₁ x₂ y₁ y₂ : ℚ} (h₁ : f.Nearest x₁ y₁) (h₂ : f.Nearest x₂ y₂)
    (hlt : x₁ < x₂) : y₁ ≤ y₂ := by
  by_contra hgt
  rw [not_le] at hgt
  have hlow := h₁.mid_le h₂.1 hgt
  have hhigh := h₂.le_mid h₁.1 hgt
  linarith

/-- Rounding does not change the order. -/
theorem round_mono {x₁ x₂ : ℚ} (hx₁ : 0 ≤ x₁) (hle : x₁ ≤ x₂) : f.round x₁ ≤ f.round x₂ := by
  rcases hle.eq_or_lt with rfl | hlt
  · exact le_rfl
  · exact (nearest_round hx₁).mono (nearest_round (hx₁.trans hle)) hlt

/-- Only a number of the format is nearest to itself. -/
theorem Nearest.eq_of_holds {x y : ℚ} (hnearest : f.Nearest x y) (hx : f.Holds x) : y = x := by
  have hle := hnearest.2 x hx
  rw [sub_self, abs_zero] at hle
  have hzero := abs_nonpos_iff.mp hle
  linarith

/-! ### Bits -/

/-- A rounded number has the least exponent or all its significant bits. -/
theorem unitExp_eq_or_le_significand (x : ℚ) :
    f.unitExp x = f.minExp ∨ 2 ^ (f.precision - 1) ≤ f.significand x := by
  by_cases hx : x ≤ 0
  · exact Or.inl (if_pos hx)
  rw [not_le] at hx
  rcases (f.minExp_le_unitExp x).eq_or_lt with heq | hlt
  · exact Or.inl heq.symm
  right
  have hfloor := two_pow_le_floor hx hlt
  unfold significand
  rcases roundHalfEven_eq (x / 2 ^ f.unitExp x) with heq | heq <;> omega

/-- The bits of an exponent and a significand stand for their number, also where the significand
is one too large. -/
theorem numberOfBits_mul_add {j m : ℕ} (hm : m ≤ 2 ^ f.precision)
    (hcanonical : j = 0 ∨ 2 ^ (f.precision - 1) ≤ m) :
    f.numberOfBits (j * 2 ^ (f.precision - 1) + m) = m * 2 ^ (f.minExp + j) := by
  have htwo := f.two_pow_precision
  have hpos : 0 < 2 ^ (f.precision - 1) := by positivity
  generalize hh : 2 ^ (f.precision - 1) = h at *
  unfold numberOfBits
  rw [hh]
  rcases lt_or_ge m h with hlow | hhigh
  · -- a subnormal number
    obtain rfl : j = 0 := by omega
    rw [if_pos (Nat.div_eq_of_lt (by omega)), Nat.zero_mul, Nat.zero_add, Nat.cast_zero, add_zero]
  rcases (show m < 2 * h ∨ m = 2 * h by omega) with hlt | rfl
  · obtain ⟨r, rfl⟩ : ∃ r, m = h + r := ⟨m - h, by omega⟩
    have hdiv : (j * h + (h + r)) / h = j + 1 := by
      rw [show j * h + (h + r) = r + h * (j + 1) by ring, Nat.add_mul_div_left _ _ hpos,
        Nat.div_eq_of_lt (by omega), Nat.zero_add]
    have hmod : (j * h + (h + r)) % h = r := by
      rw [show j * h + (h + r) = r + h * (j + 1) by ring, Nat.add_mul_mod_self_left,
        Nat.mod_eq_of_lt (by omega)]
    rw [hdiv, hmod, if_neg (by omega)]
    congr 2
    push_cast
    ring
  · -- the carry into the next exponent
    have hdiv : (j * h + 2 * h) / h = j + 2 := by
      rw [show j * h + 2 * h = h * (j + 2) by ring, Nat.mul_div_cancel_left _ hpos]
    have hmod : (j * h + 2 * h) % h = 0 := by
      rw [show j * h + 2 * h = h * (j + 2) by ring, Nat.mul_mod_right]
    rw [hdiv, hmod, if_neg (by omega), Nat.add_zero,
      show f.minExp + ((j + 2 : ℕ) : ℤ) - 1 = f.minExp + j + 1 by push_cast; ring,
      zpow_add_one₀ (by norm_num)]
    push_cast
    ring

/-- The bits of infinity are the first ones whose number would be too large. -/
theorem numberOfBits_lt_iff (hroom : f.minExp + f.precision ≤ f.maxExp) (b : ℕ) :
    f.numberOfBits b < 2 ^ f.maxExp ↔ b < f.infinityBits := by
  have htwo := f.two_pow_precision
  have hpos : 0 < 2 ^ (f.precision - 1) := by positivity
  have hpower : (2 : ℚ) ^ f.maxExp =
      ((2 * 2 ^ (f.precision - 1) : ℕ) : ℚ) * 2 ^ (f.maxExp - f.precision) := by
    rw [← htwo]
    push_cast
    rw [← zpow_natCast, ← zpow_add₀ (by norm_num)]
    congr 1
    ring
  obtain ⟨k, hk⟩ : ∃ k : ℕ, f.maxExp - f.precision - f.minExp = k :=
    ⟨(f.maxExp - f.precision - f.minExp).toNat, by omega⟩
  have hmax : f.maxExp - f.precision = f.minExp + k := by omega
  unfold numberOfBits infinityBits
  rw [hpower, hk, hmax, show ((k : ℤ) + 2).toNat = k + 2 by omega]
  generalize 2 ^ (f.precision - 1) = h at *
  have hsplit := Nat.div_add_mod b h
  have hmod := Nat.mod_lt b hpos
  generalize b / h = j at *
  generalize b % h = r at *
  split
  · next hj =>
    subst hj
    rw [Nat.mul_zero, Nat.zero_add] at hsplit
    have hlt : b < (k + 2) * h := by nlinarith
    refine iff_of_true ?_ hlt
    have hone : (1 : ℚ) ≤ 2 ^ (k : ℤ) := one_le_zpow₀ (by norm_num) (by omega)
    rw [zpow_add₀ (by norm_num)]
    have hbh : (b : ℚ) < ((2 * h : ℕ) : ℚ) := by exact_mod_cast (by omega : b < 2 * h)
    have hunit : (0 : ℚ) < 2 ^ f.minExp := by positivity
    calc (b : ℚ) * 2 ^ f.minExp < ((2 * h : ℕ) : ℚ) * 2 ^ f.minExp := by gcongr
      _ ≤ ((2 * h : ℕ) : ℚ) * (2 ^ f.minExp * 2 ^ (k : ℤ)) := by
          gcongr
          exact le_mul_of_one_le_right hunit.le hone
  · next hj =>
    have hbound : b < (k + 2) * h ↔ j ≤ k + 1 := by
      constructor
      · intro hlt
        by_contra hgt
        have hle : (k + 2) * h ≤ h * j := by nlinarith
        omega
      · intro hle
        have hle' : h * j ≤ h * (k + 1) := Nat.mul_le_mul_left h hle
        nlinarith
    rw [hbound]
    constructor
    · intro hlt
      by_contra hgt
      have hexp : (2 : ℚ) * 2 ^ (f.minExp + (k : ℤ)) ≤ 2 ^ (f.minExp + (j : ℤ) - 1) := by
        rw [mul_comm, ← zpow_add_one₀ (by norm_num)]
        exact zpow_le_zpow_right₀ (by norm_num) (by omega)
      have hge : ((2 * h : ℕ) : ℚ) * 2 ^ (f.minExp + (k : ℤ)) ≤
          ((h + r : ℕ) : ℚ) * 2 ^ (f.minExp + (j : ℤ) - 1) := by
        calc ((2 * h : ℕ) : ℚ) * 2 ^ (f.minExp + (k : ℤ)) =
            (h : ℚ) * (2 * 2 ^ (f.minExp + (k : ℤ))) := by push_cast; ring
          _ ≤ (h : ℚ) * 2 ^ (f.minExp + (j : ℤ) - 1) := by gcongr
          _ ≤ ((h + r : ℕ) : ℚ) * 2 ^ (f.minExp + (j : ℤ) - 1) := by
              gcongr
              omega
      linarith
    · intro hle
      have hexp : (2 : ℚ) ^ (f.minExp + (j : ℤ) - 1) ≤ 2 ^ (f.minExp + (k : ℤ)) :=
        zpow_le_zpow_right₀ (by norm_num) (by omega)
      calc ((h + r : ℕ) : ℚ) * 2 ^ (f.minExp + (j : ℤ) - 1) ≤
          ((h + r : ℕ) : ℚ) * 2 ^ (f.minExp + (k : ℤ)) := by gcongr
        _ < ((2 * h : ℕ) : ℚ) * 2 ^ (f.minExp + (k : ℤ)) := by
            gcongr
            omega

/-- **The bits of a number stand for what it is rounded to**, unless that is too large. -/
theorem ofBits_bits (hroom : f.minExp + f.precision ≤ f.maxExp) (x : ℚ) :
    f.ofBits (f.bits x) = if f.round x < 2 ^ f.maxExp then some (f.round x) else none := by
  have hround : f.numberOfBits
      ((f.unitExp x - f.minExp).toNat * 2 ^ (f.precision - 1) + f.significand x) =
        f.round x := by
    have hexp := f.minExp_le_unitExp x
    have hcanonical := f.unitExp_eq_or_le_significand x
    rw [numberOfBits_mul_add (f.significand_le x) (hcanonical.imp_left fun heq => by omega),
      show f.minExp + ((f.unitExp x - f.minExp).toNat : ℤ) = f.unitExp x by omega]
    rfl
  have hsmall := f.numberOfBits_lt_iff hroom
    ((f.unitExp x - f.minExp).toNat * 2 ^ (f.precision - 1) + f.significand x)
  rw [hround] at hsmall
  unfold ofBits bits
  by_cases hlt : f.round x < 2 ^ f.maxExp
  · have hbits := hsmall.mp hlt
    rw [min_eq_left hbits.le, if_pos hbits, if_pos hlt, hround]
  · have hbits := not_lt.mp (mt hsmall.mpr hlt)
    rw [min_eq_right hbits, if_neg (lt_irrefl _), if_neg hlt]

/-! ### The largest number -/

/-- The number halfway between the largest number and the first one that is too large. -/
def overflowBound (f : BinaryFormat) : ℚ := 2 ^ f.maxExp - 2 ^ (f.maxExp - f.precision - 1)

/-- The first number that is too large, in units of the last exponent. -/
theorem two_zpow_maxExp (f : BinaryFormat) :
    (2 : ℚ) ^ f.maxExp = 2 ^ f.precision * 2 ^ (f.maxExp - f.precision) := by
  rw [← zpow_natCast, ← zpow_add₀ (by norm_num)]
  congr 1
  ring

/-- The bound in half units. -/
theorem overflowBound_eq (f : BinaryFormat) :
    f.overflowBound = (2 ^ f.precision - 1 / 2) * 2 ^ (f.maxExp - f.precision) := by
  have hhalf : (2 : ℚ) ^ (f.maxExp - f.precision - 1) = 1 / 2 * 2 ^ (f.maxExp - f.precision) := by
    rw [zpow_sub_one₀ (by norm_num)]
    ring
  unfold overflowBound
  rw [hhalf, two_zpow_maxExp]
  ring

/-- The bound is not below the largest power of two of the format. -/
theorem le_overflowBound (f : BinaryFormat) : (2 : ℚ) ^ (f.maxExp - 1) ≤ f.overflowBound := by
  have hsplit : (2 : ℚ) ^ f.maxExp = 2 ^ (f.maxExp - 1) * 2 := by
    rw [← zpow_add_one₀ (by norm_num), sub_add_cancel]
  have hle : (2 : ℚ) ^ (f.maxExp - f.precision - 1) ≤ 2 ^ (f.maxExp - 1) :=
    zpow_le_zpow_right₀ (by norm_num) (by omega)
  unfold overflowBound
  linarith

/-- The bound is positive. -/
theorem overflowBound_pos (f : BinaryFormat) : 0 < f.overflowBound :=
  lt_of_lt_of_le (by positivity) f.le_overflowBound

/-- The bound has the last exponent. -/
theorem log_overflowBound (f : BinaryFormat) : Int.log 2 f.overflowBound = f.maxExp - 1 := by
  have hsmall : (0 : ℚ) < 2 ^ (f.maxExp - f.precision - 1) := by positivity
  have hlow := Int.zpow_log_le_self (b := 2) (by norm_num) f.overflowBound_pos
  have hhigh := Int.lt_zpow_succ_log_self (b := 2) (by norm_num) f.overflowBound
  push_cast at hlow hhigh
  have hbelow : (2 : ℚ) ^ Int.log 2 f.overflowBound < 2 ^ f.maxExp := by
    have hlt : f.overflowBound < 2 ^ f.maxExp := by
      unfold overflowBound
      linarith
    exact hlow.trans_lt hlt
  have habove := f.le_overflowBound.trans_lt hhigh
  rw [zpow_lt_zpow_iff_right₀ (by norm_num)] at hbelow habove
  omega

/-- The bound itself is rounded up, to a number that is too large. -/
theorem round_overflowBound (hroom : f.minExp + f.precision ≤ f.maxExp) :
    f.round f.overflowBound = 2 ^ f.maxExp := by
  have htwo := f.two_pow_precision
  have hunit : (0 : ℚ) < 2 ^ (f.maxExp - f.precision) := by positivity
  have hexp : f.unitExp f.overflowBound = f.maxExp - f.precision := by
    rw [unitExp, if_neg (not_le.mpr f.overflowBound_pos), log_overflowBound]
    omega
  have hquotient : f.overflowBound / 2 ^ f.unitExp f.overflowBound =
      ((2 ^ f.precision - 1 : ℕ) : ℚ) + 1 / 2 := by
    rw [hexp, overflowBound_eq, mul_div_cancel_right₀ _ hunit.ne',
      Nat.cast_sub Nat.one_le_two_pow]
    push_cast
    ring
  have hfloor : ⌊((2 ^ f.precision - 1 : ℕ) : ℚ) + 1 / 2⌋₊ = 2 ^ f.precision - 1 := by
    rw [Nat.floor_eq_iff (by positivity)]
    constructor <;> linarith
  have hsignificand : f.significand f.overflowBound = 2 ^ f.precision := by
    -- a tie that is rounded up, since the largest significand is odd
    have hpos : 0 < 2 ^ (f.precision - 1) := by positivity
    unfold significand roundHalfEven
    rw [hquotient, hfloor, add_sub_cancel_left, if_neg (lt_irrefl _), if_neg (lt_irrefl _)]
    omega
  unfold round
  rw [hsignificand, hexp, two_zpow_maxExp]
  push_cast
  rfl

/-- **A number is rounded to one that is not too large exactly below the bound.** -/
theorem round_lt_iff (hroom : f.minExp + f.precision ≤ f.maxExp) {x : ℚ} (hx : 0 ≤ x) :
    f.round x < 2 ^ f.maxExp ↔ x < f.overflowBound := by
  constructor
  · intro hlt
    by_contra hge
    have hmono := f.round_mono f.overflowBound_pos.le (not_lt.mp hge)
    rw [round_overflowBound hroom] at hmono
    linarith
  · intro hlt
    by_contra hge
    rw [not_lt] at hge
    have hlargest : f.Holds (((2 ^ f.precision - 1 : ℕ) : ℚ) * 2 ^ (f.maxExp - f.precision)) :=
      f.holds_of_le (by omega) (Nat.sub_le _ _)
    rw [Nat.cast_sub Nat.one_le_two_pow] at hlargest
    push_cast at hlargest
    have hunit : (0 : ℚ) < 2 ^ (f.maxExp - f.precision) := by positivity
    have hbelow : ((2 : ℚ) ^ f.precision - 1) * 2 ^ (f.maxExp - f.precision) < f.round x := by
      refine lt_of_lt_of_le ?_ hge
      rw [two_zpow_maxExp]
      linarith
    have hmid := (nearest_round hx).mid_le hlargest hbelow
    rw [overflowBound_eq] at hlt
    rw [two_zpow_maxExp] at hge
    linarith

end BinaryFormat

end ModalRust
