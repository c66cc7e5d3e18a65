import ModalRust.Binary
import ModalRust.Decimal

/-!
# Floats

Reading and displaying the floats of Rust: `str::parse` for single precision, and nonnegative
doubles with the shortest decimal that is read back. A double that is displayed and read in
single precision becomes a single nearest to it. Nothing in this file refers to a particular
program.
-/

namespace ModalRust

namespace BinaryFormat

variable (f : BinaryFormat)

/-- The decimal with `k + 1` digits that is closest to a number among those that are read back as
the number, as digits and the exponent of the last one. -/
def shortestAt (x : ℚ) (k : ℕ) : Option (ℕ × ℤ) :=
  let s := Int.log 10 x - k
  let n := ⌊x / 10 ^ s⌋₊
  let candidates := if x / 10 ^ s - n < 1 / 2 then [n, n + 1] else [n + 1, n]
  (candidates.find? fun m : ℕ => f.round (m * 10 ^ s) = x).map fun m => (m, s)

/-- The shortest decimal that is read back as a number, as digits and the exponent of the last
one. -/
def shortest (digits : ℕ) (x : ℚ) : ℕ × ℤ :=
  ((List.range digits).findSome? (f.shortestAt x)).getD (0, 0)

/-- The shortest decimal that is read back as a number. -/
def shortestDecimal (digits : ℕ) (x : ℚ) : ℚ :=
  (f.shortest digits x).1 * 10 ^ (f.shortest digits x).2

variable {f}

/-- What is close enough to a number of the format is rounded to it. -/
theorem round_eq_of_close {x v : ℚ} (hx : f.Holds x) (hv : 0 ≤ v)
    (hclose : |v - x| * (2 * 2 ^ f.precision) < x) : f.round v = x := by
  have hnearest := f.nearest_round hv
  have hroom : ∀ {n : ℕ} {e : ℤ}, x ≤ 2 ^ f.precision * 2 ^ e → |v - x| < 2 ^ e / 2 := by
    intro n e hle
    have hpos : (0 : ℚ) < 2 * 2 ^ f.precision := by positivity
    rw [← mul_lt_mul_iff_left₀ hpos]
    linarith
  rcases lt_trichotomy (f.round v) x with hlt | heq | hgt
  · obtain ⟨n, e, -, hn, hxn, hstep⟩ := exists_step_down hnearest.1 hx hlt
    have hmid := hnearest.le_mid hx hlt
    have hle : x ≤ 2 ^ f.precision * 2 ^ e := by
      rw [hxn]
      gcongr
      exact_mod_cast hn
    have hsmall := (abs_lt.mp (hroom (n := n) hle)).1
    push_cast at hxn
    linarith
  · exact heq
  · obtain ⟨n, e, -, hn, hxn, hstep⟩ := exists_step_up hx hnearest.1 hgt
    have hmid := hnearest.mid_le hx hgt
    have hle : x ≤ 2 ^ f.precision * 2 ^ e := by
      rw [hxn]
      gcongr
      exact_mod_cast hn.le
    have hsmall := (abs_lt.mp (hroom (n := n) hle)).2
    push_cast at hstep
    linarith

/-- A decimal that was found is read back. -/
theorem round_of_shortestAt {x : ℚ} {k m : ℕ} {s : ℤ} (hfound : f.shortestAt x k = some (m, s)) :
    f.round (m * 10 ^ s) = x := by
  unfold shortestAt at hfound
  obtain ⟨n, hn, heq⟩ := Option.map_eq_some_iff.mp hfound
  cases heq
  have hread := List.find?_some hn
  exact of_decide_eq_true hread

/-- With enough digits, the closest decimal is read back. -/
theorem isSome_shortestAt {x : ℚ} {k : ℕ} (hx : f.Holds x) (hk : 2 ^ f.precision < 10 ^ k) :
    (f.shortestAt x k).isSome := by
  rcases hx.nonneg.eq_or_lt with rfl | hpos
  · simp [shortestAt]
  unfold shortestAt
  dsimp only
  generalize hs : Int.log 10 x - k = s
  have hunit : (0 : ℚ) < 10 ^ s := by positivity
  have hscale : (10 : ℚ) ^ s * 10 ^ k ≤ x := by
    have hlog := Int.zpow_log_le_self (b := 10) (by norm_num) hpos
    rw [← zpow_natCast, ← zpow_add₀ (by norm_num)]
    refine le_trans (le_of_eq ?_) hlog
    push_cast
    congr 1
    omega
  have hfloor : (⌊x / 10 ^ s⌋₊ : ℚ) ≤ x / 10 ^ s := Nat.floor_le (by positivity)
  have hnext : x / 10 ^ s < ⌊x / 10 ^ s⌋₊ + 1 := Nat.lt_floor_add_one _
  generalize ⌊x / 10 ^ s⌋₊ = n at hfloor hnext
  have hquotient : x / 10 ^ s * 10 ^ s = x := div_mul_cancel₀ _ hunit.ne'
  -- half a unit is small in comparison with the number
  have hclose : ∀ m : ℕ, |(m : ℚ) - x / 10 ^ s| ≤ 1 / 2 → f.round (m * 10 ^ s) = x := by
    intro m hm
    refine round_eq_of_close hx (by positivity) ?_
    have hdistance : |(m : ℚ) * 10 ^ s - x| ≤ 1 / 2 * 10 ^ s := by
      have hfactor : (m : ℚ) * 10 ^ s - x = ((m : ℚ) - x / 10 ^ s) * 10 ^ s := by
        rw [sub_mul, hquotient]
      rw [hfactor, abs_mul, abs_of_pos hunit]
      gcongr
    have hpower : (2 : ℚ) ^ f.precision < 10 ^ k := by exact_mod_cast hk
    calc |(m : ℚ) * 10 ^ s - x| * (2 * 2 ^ f.precision)
        ≤ 1 / 2 * 10 ^ s * (2 * 2 ^ f.precision) := by gcongr
      _ = 10 ^ s * 2 ^ f.precision := by ring
      _ < 10 ^ s * 10 ^ k := by gcongr
      _ ≤ x := hscale
  rw [Option.isSome_map, List.find?_isSome]
  by_cases hlow : x / 10 ^ s - n < 1 / 2
  · rw [if_pos hlow]
    refine ⟨n, by simp, decide_eq_true (hclose n ?_)⟩
    rw [abs_le]
    constructor <;> linarith
  · rw [if_neg hlow]
    refine ⟨n + 1, by simp, decide_eq_true (hclose (n + 1) ?_)⟩
    rw [abs_le]
    push_cast
    constructor <;> linarith

/-- **The shortest decimal is read back**, if there are enough digits. -/
theorem round_shortestDecimal {x : ℚ} {k : ℕ} (hx : f.Holds x) (hk : 2 ^ f.precision < 10 ^ k) :
    f.round (f.shortestDecimal (k + 1) x) = x := by
  have hfound : ((List.range (k + 1)).findSome? (f.shortestAt x)).isSome := by
    rw [List.findSome?_isSome_iff]
    exact ⟨k, by simp, isSome_shortestAt hx hk⟩
  obtain ⟨⟨m, s⟩, hms⟩ := Option.isSome_iff_exists.mp hfound
  obtain ⟨i, -, hi⟩ := List.exists_of_findSome?_eq_some hms
  unfold shortestDecimal shortest
  rw [hms]
  exact round_of_shortestAt hi

/-- The shortest decimal of a number is not negative. -/
theorem shortestDecimal_nonneg (digits : ℕ) (x : ℚ) : 0 ≤ f.shortestDecimal digits x := by
  unfold shortestDecimal
  positivity

end BinaryFormat

open BinaryFormat

/-! ### Single precision -/

/-- The bits that a text without a sign is read as. -/
def magnitudeBits (f : BinaryFormat) (t : Text) : Option ℕ :=
  match parseDecimal t with
  | some q => some (f.bits q)
  | none =>
    if t.map Char.toLower = "inf".toList ∨ t.map Char.toLower = "infinity".toList then
      some f.infinityBits
    else if t.map Char.toLower = "nan".toList then
      some (f.infinityBits + 2 ^ (f.precision - 2))
    else none

/-- `str::parse::<f32>`, as bits. -/
def parseF32 (t : Text) : Option UInt32 :=
  if t.head? = some '-' then
    (magnitudeBits single t.tail).map fun b => UInt32.ofNat (2 ^ 31 + b)
  else (magnitudeBits single (if t.head? = some '+' then t.tail else t)).map UInt32.ofNat

/-- The number of the bits of an `f32`, unless they are infinite or no number. -/
def valueF32 (b : UInt32) : Option ℚ :=
  if b.toNat < 2 ^ 31 then single.ofBits b.toNat
  else (single.ofBits (b.toNat - 2 ^ 31)).map fun x => -x

/-- Decimals are rounded to the nearest single, and large ones to infinity. -/
example : parseF32 "0.1".toList = some 0x3DCCCCCD ∧ parseF32 "-1e39".toList = some 0xFF800000 ∧
    parseF32 "1,5".toList = none := by
  decide +kernel

/-- The bits of a number after rounding are those of the number that it is rounded to, unless that
is too large. -/
theorem valueF32_bits (q : ℚ) :
    valueF32 (UInt32.ofNat (single.bits q)) =
      if single.round q < 2 ^ single.maxExp then some (single.round q) else none := by
  have hbits : single.bits q < 2 ^ 31 :=
    (Nat.min_le_right _ _).trans_lt (by decide : single.infinityBits < 2 ^ 31)
  have hnat : (UInt32.ofNat (single.bits q)).toNat = single.bits q :=
    UInt32.toNat_ofNat_of_lt' (by
      have hsize : (2 : ℕ) ^ 31 < UInt32.size := by decide
      omega)
  rw [valueF32, hnat, if_pos hbits]
  exact ofBits_bits (by decide) q

/-- **A decimal is read as the single that it is rounded to**, unless that is too large. -/
theorem exists_parseF32 {t : Text} {q : ℚ} (ht : parseDecimal t = some q) :
    ∃ b, parseF32 t = some b ∧
      valueF32 b = if single.round q < 2 ^ single.maxExp then some (single.round q) else none := by
  obtain ⟨hminus, hplus⟩ := head_of_parseDecimal ht
  refine ⟨UInt32.ofNat (single.bits q), ?_, valueF32_bits q⟩
  rw [parseF32, if_neg hminus, if_neg hplus, magnitudeBits, ht]
  rfl

/-! ### Double precision -/

/-- A nonnegative double. -/
structure F64 where
  /-- The number, unless it is infinite. -/
  value : Option ℚ
  /-- The number is one of double precision. -/
  held : ∀ x ∈ value, double.Holds x

/-- A number in double precision. -/
def F64.ofRat (q : ℚ) : F64 where
  value := if double.round q < 2 ^ double.maxExp then some (double.round q) else none
  held := by
    intro x hx
    split at hx
    · cases hx
      exact double.holds_round q
    · cases hx

/-- The product with a positive number. -/
def F64.times (x : F64) (factor : ℚ) : F64 :=
  match x.value with
  | some y => .ofRat (y * factor)
  | none => x

/-- `x as u32`: the integer part, or the largest integer. -/
def F64.toU32 (x : F64) : ℕ := (x.value.map fun y => min ⌊y⌋₊ (2 ^ 32 - 1)).getD (2 ^ 32 - 1)

/-- A number that is not too large is rounded. -/
theorem F64.value_ofRat {q : ℚ} (hfinite : double.round q < 2 ^ double.maxExp) :
    (F64.ofRat q).value = some (double.round q) := if_pos hfinite

/-- A number that is too large becomes infinite. -/
theorem F64.value_ofRat_eq_none {q : ℚ} (hlarge : ¬ double.round q < 2 ^ double.maxExp) :
    (F64.ofRat q).value = none := if_neg hlarge

/-- A double as an integer fits 32 bits. -/
theorem F64.toU32_lt (x : F64) : x.toU32 < 2 ^ 32 := by
  unfold F64.toU32
  cases x.value with
  | none => decide
  | some y =>
    rw [Option.map_some, Option.getD_some]
    omega

/-- A number in double precision as an integer: its integer part, or the largest integer. -/
theorem F64.toU32_ofRat (q : ℚ) : (F64.ofRat q).toU32 = min ⌊double.round q⌋₊ (2 ^ 32 - 1) := by
  unfold F64.toU32
  by_cases hfinite : double.round q < 2 ^ double.maxExp
  · rw [F64.value_ofRat hfinite]
    rfl
  · rw [F64.value_ofRat_eq_none hfinite]
    have hlarge : 2 ^ 32 ≤ ⌊double.round q⌋₊ := by
      rw [Nat.le_floor_iff (double.holds_round q).nonneg]
      have hpower : (2 : ℚ) ^ (32 : ℤ) ≤ 2 ^ double.maxExp :=
        zpow_le_zpow_right₀ (by norm_num) (by decide)
      exact le_trans (by norm_num) (hpower.trans (not_lt.mp hfinite))
    rw [min_eq_right (by omega)]
    rfl

/-- A double under `{}`: the shortest decimal that is read back. -/
def F64.display (x : F64) : Text :=
  match x.value with
  | some y => decimalText (double.shortest 17 y).1 (double.shortest 17 y).2
  | none => "inf".toList

/-- Doubles are displayed without an exponent, and with no more digits than needed. -/
example : (F64.ofRat (1 / 10)).display = "0.1".toList ∧
    (F64.ofRat (10 ^ 23)).display = "100000000000000000000000".toList := by
  decide +kernel

/-- The decimal that is displayed. -/
theorem parseDecimal_display {x : F64} {y : ℚ} (hvalue : x.value = some y) :
    parseDecimal x.display = some (double.shortestDecimal 17 y) := by
  unfold F64.display
  rw [hvalue]
  exact parseDecimal_decimalText _ _

/-- The decimal that is displayed is read back. -/
theorem F64.round_shortestDecimal {x : F64} {y : ℚ} (hvalue : x.value = some y) :
    double.round (double.shortestDecimal 17 y) = y :=
  BinaryFormat.round_shortestDecimal (k := 16) (x.held y hvalue) (by decide)

/-- The largest double that is read in single precision as a finite number, after it was
displayed, is the bound itself: its shortest decimal is below it. -/
theorem shortestDecimal_lt_iff {x : F64} {y : ℚ} (hvalue : x.value = some y) :
    double.shortestDecimal 17 y < single.overflowBound ↔ y ≤ single.overflowBound := by
  have hround := F64.round_shortestDecimal hvalue
  have hnonneg := double.shortestDecimal_nonneg 17 y
  have hbound : double.Holds single.overflowBound :=
    ⟨2 ^ 25 - 1, 103, by decide, by decide, by decide +kernel⟩
  have hself : double.round single.overflowBound = single.overflowBound :=
    (double.nearest_round single.overflowBound_pos.le).eq_of_holds hbound
  constructor
  · intro hlt
    have hmono := double.round_mono hnonneg hlt.le
    rwa [hround, hself] at hmono
  · intro hle
    rcases hle.eq_or_lt with rfl | hlt
    · decide +kernel
    · by_contra hge
      have hmono := double.round_mono single.overflowBound_pos.le (not_lt.mp hge)
      rw [hround, hself] at hmono
      linarith

end ModalRust
