import ModalRust.JsonValue

/-!
# The numbers of serde_json

What becomes of a number between a serializer and a `serde_json::Value`. Serializers
write integers of any width; a value holds an integer only as an unsigned or a signed
word of 64 bits, and any other literal as a float. What a literal is as a float, and how
that float is written again, is a parameter: the conversion need not return the literal
it was given. Nothing in this file refers to a particular program.
-/

namespace ModalRust

/-- A negative integer that fits a word is negative as a word. -/
theorem ofInt_lt_zero {z : ℤ} (hz : -2 ^ 63 ≤ z ∧ z < 0) : Int64.ofInt z < 0 := by
  rw [Int64.lt_iff_toInt_lt, Int64.toInt_ofInt_of_le hz.1 (by omega), Int64.toInt_zero]
  exact hz.2

/-- An integer as a number, if it fits one of the two words. -/
def Number.ofInt (z : ℤ) : Option Number :=
  if 0 ≤ z then if z < 2 ^ 64 then some (.posInt (.ofNat z.toNat)) else none
  else if hz : -2 ^ 63 ≤ z ∧ z < 0 then some (.negInt (.ofInt z) (ofInt_lt_zero hz)) else none

/-- The integer that an integer literal stands for. There is no negative zero among the
integers. -/
def Literal.integer (l : Literal) : Option ℤ :=
  let n := Nat.ofDigitChars 10 l.whole 0
  if l.fraction ≠ [] ∨ l.exponent ≠ [] then none
  else if l.negative then if n = 0 then none else some (-n)
  else some n

section Read

variable (readFloat : Literal → Option FloatText)

/-- A literal as a number: an integer that fits a word, or else a float. -/
def readNumber (l : Literal) : Option Number :=
  (l.integer.bind Number.ofInt).or ((readFloat l).map .float)

/-- `serde_json::from_str::<Value>`. -/
def fromStr (t : Text) : Option Json := parseJson (readNumber readFloat) t

/-- A number that is read back from its literal. -/
def Number.Exact : Number → Prop
  | .float f => readFloat f.literal = some f
  | _ => True

end Read

/-- A number as a serializer writes it. -/
inductive WideNumber
  /-- An integer of any width. -/
  | int (z : ℤ)
  /-- A finite float. -/
  | float (f : FloatText)

/-- What a serializer writes. -/
abbrev Doc := JsonTree WideNumber

namespace WideNumber

/-- The literal of a number. -/
def literal : WideNumber → Literal
  | int z => intLiteral (z < 0) z.natAbs
  | float f => f.literal

instance : Numeric WideNumber where
  literal := literal
  wellFormed n := by
    cases n with
    | int z => exact intLiteral_wellFormed _ _
    | float f => exact f.wellFormed

/-- The representation that holds exactly the written number. -/
def exact : WideNumber → Option Number
  | int z => Number.ofInt z
  | float f => some (.float f)

/-- An integer that fits a word, or a float that is read back from its literal. -/
def Exact (readFloat : Literal → Option FloatText) : WideNumber → Prop
  | int z => -2 ^ 63 ≤ z ∧ z < 2 ^ 64
  | float f => readFloat f.literal = some f

end WideNumber

/-- The value that holds exactly the written numbers. -/
def JsonTree.exactValue (d : Doc) : Option Json := d.toValue WideNumber.exact

/-- The literal of an integer stands for it. -/
theorem integer_intLiteral (z : ℤ) : (intLiteral (z < 0) z.natAbs).integer = some z := by
  have hvalue : Nat.ofDigitChars 10 (Nat.toDigits 10 z.natAbs) 0 = z.natAbs :=
    Nat.ofDigitChars_ten_toDigits
  simp only [Literal.integer, intLiteral, hvalue, ne_eq, not_true_eq_false, or_self, if_false,
    decide_eq_true_eq]
  by_cases hz : z < 0
  · rw [if_pos hz, if_neg (by omega)]
    congr 1
    omega
  · rw [if_neg hz]
    congr 1
    omega

/-- A literal with a point or an exponent stands for no integer. -/
theorem integer_of_fractional (f : FloatText) : f.literal.integer = none := by
  rw [Literal.integer]
  exact if_pos f.fractional

/-- The integers that fit a word. -/
theorem exists_ofInt_iff {z : ℤ} :
    (∃ m, Number.ofInt z = some m) ↔ -2 ^ 63 ≤ z ∧ z < 2 ^ 64 := by
  unfold Number.ofInt
  constructor
  · rintro ⟨m, hm⟩
    split_ifs at hm <;> omega
  · rintro ⟨hlow, hhigh⟩
    by_cases hz : 0 ≤ z
    · rw [if_pos hz, if_pos hhigh]
      exact ⟨_, rfl⟩
    · rw [if_neg hz, dif_pos ⟨hlow, by omega⟩]
      exact ⟨_, rfl⟩

section Exact

variable {readFloat : Literal → Option FloatText}

/-- How the literal of a float is read. -/
theorem readNumber_float (f : FloatText) :
    readNumber readFloat f.literal = (readFloat f.literal).map .float := by
  rw [readNumber, integer_of_fractional, Option.bind_none, Option.none_or]

/-- **A number of a value is read back exactly if it is exact.** -/
theorem Number.exact_iff {n : Number} :
    n.Exact readFloat ↔ readNumber readFloat (Numeric.literal n) = some n := by
  cases n with
  | posInt n =>
    refine iff_of_true trivial ?_
    have hliteral : Numeric.literal (Number.posInt n) =
        intLiteral ((n.toNat : ℤ) < 0) (n.toNat : ℤ).natAbs := by
      rw [decide_eq_false (by omega), Int.natAbs_natCast]
      rfl
    have hbound : (n.toNat : ℤ) < 2 ^ 64 := by
      have hn := n.toNat_lt
      omega
    rw [hliteral, readNumber, integer_intLiteral, Option.bind_some, ofInt, if_pos (by omega),
      if_pos hbound, Int.toNat_natCast, UInt64.ofNat_toNat, Option.some_or]
  | negInt n hn =>
    refine iff_of_true trivial ?_
    have hneg : n.toInt < 0 := by
      rw [Int64.lt_iff_toInt_lt, Int64.toInt_zero] at hn
      exact hn
    have hliteral : Numeric.literal (Number.negInt n hn) =
        intLiteral (n.toInt < 0) n.toInt.natAbs := by
      rw [decide_eq_true hneg]
      rfl
    rw [hliteral, readNumber, integer_intLiteral, Option.bind_some, ofInt, if_neg (by omega),
      dif_pos ⟨n.le_toInt, hneg⟩, Option.some_or]
    simp only [Int64.ofInt_toInt]
  | float f =>
    have hliteral : Numeric.literal (Number.float f) = f.literal := rfl
    rw [hliteral, readNumber_float, Option.map_eq_some_iff]
    constructor
    · exact fun hexact => ⟨f, hexact, rfl⟩
    · rintro ⟨f', hread, hfloat⟩
      obtain rfl := Number.float.inj hfloat
      exact hread

/-- **A written number is read as the value that holds it exactly if it is exact.** -/
theorem WideNumber.exact_iff {n : WideNumber} :
    n.Exact readFloat ↔
      ∃ m, JsonTree.reread (readNumber readFloat) n = some m ∧ n.exact = some m := by
  cases n with
  | int z =>
    have hliteral : Numeric.literal (int z) = intLiteral (z < 0) z.natAbs := rfl
    rw [Exact, ← exists_ofInt_iff, exact, JsonTree.reread, hliteral, readNumber,
      integer_intLiteral, Option.bind_some]
    constructor
    · rintro ⟨m, hm⟩
      exact ⟨m, by rw [hm, Option.some_or], hm⟩
    · rintro ⟨m, -, hm⟩
      exact ⟨m, hm⟩
  | float f =>
    have hliteral : Numeric.literal (float f) = f.literal := rfl
    rw [exact, JsonTree.reread, hliteral, readNumber_float]
    constructor
    · exact fun hexact => ⟨.float f, Option.map_eq_some_iff.mpr ⟨f, hexact, rfl⟩, rfl⟩
    · rintro ⟨m, hread, hexact⟩
      obtain rfl := Option.some.inj hexact
      obtain ⟨f', hread, hfloat⟩ := Option.map_eq_some_iff.mp hread
      obtain rfl := Number.float.inj hfloat
      exact hread

/-- The value of an exact number is exact. -/
theorem WideNumber.Exact.number {n : WideNumber} {m : Number} (hn : n.Exact readFloat)
    (hm : n.exact = some m) : m.Exact readFloat := by
  cases n with
  | int z =>
    rw [WideNumber.exact, Number.ofInt] at hm
    split_ifs at hm <;>
    · obtain rfl := Option.some.inj hm
      trivial
  | float f =>
    obtain rfl := Option.some.inj hm
    exact hn

namespace JsonTree

/-- **Reading what a serializer wrote.** -/
theorem fromStr_print {N : Type} [Numeric N] (d : JsonTree N)
    (readFloat : Literal → Option FloatText) (space : Text)
    (hspace : space.all isJsonSpace = true) :
    fromStr readFloat (d.print ++ space) =
      if d.depth ≤ 127 then d.toValue (reread (readNumber readFloat)) else none :=
  parseJson_print _ d hspace

/-- A stored value of exact numbers is read back as it is. -/
theorem reread_eq_self {v : Json} (hstored : v.Stored)
    (hexact : ∀ n ∈ v.numbers, n.Exact readFloat) :
    v.toValue (reread (readNumber readFloat)) = some v :=
  toValue_eq_self hstored fun n hn => Number.exact_iff.mp (hexact n hn)

/-- A stored value that is read back as it is has exact numbers. -/
theorem exact_of_reread_eq_self {v : Json} (hstored : v.Stored)
    (hread : v.toValue (reread (readNumber readFloat)) = some v) :
    ∀ n ∈ v.numbers, n.Exact readFloat := by
  intro n hn
  have hself : v.toValue some = some v := toValue_eq_self hstored fun _ _ => rfl
  obtain ⟨m, hm, hsome⟩ := read_eq_of_toValue hstored.duplicateFree hread hself n hn
  obtain rfl := Option.some.inj hsome
  exact Number.exact_iff.mpr hm

end JsonTree

end Exact

end ModalRust
