import ModalRust.Floats

/-!
# Durations

The durations of Rust: seconds in 64 bits and nanoseconds below a second, with checked and
saturating arithmetic, conversion from and to floating-point seconds, and the product with a
double. What panics in Rust is `none` here. Nothing in this file refers to a particular program.
-/

namespace ModalRust

open BinaryFormat

/-- The nanoseconds of a second. -/
def nanosPerSec : ℕ := 10 ^ 9

/-- A duration in nanoseconds, where the seconds fit 64 bits. -/
@[ext]
structure Duration where
  /-- The nanoseconds. -/
  nanos : ℕ
  /-- The seconds fit 64 bits. -/
  bounded : nanos < 2 ^ 64 * nanosPerSec
  deriving DecidableEq

namespace Duration

/-- The duration of that many nanoseconds, if it is not too long. -/
def ofNanos? (n : ℕ) : Option Duration :=
  if hn : n < 2 ^ 64 * nanosPerSec then some ⟨n, hn⟩ else none

/-- The number of nanoseconds of a duration. -/
theorem nanos_of_ofNanos? {n : ℕ} {d : Duration} (hd : ofNanos? n = some d) : d.nanos = n := by
  unfold ofNanos? at hd
  split at hd
  · cases hd
    rfl
  · cases hd

/-- Which numbers of nanoseconds make a duration. -/
theorem isSome_ofNanos? {n : ℕ} : (ofNanos? n).isSome ↔ n < 2 ^ 64 * nanosPerSec := by
  unfold ofNanos?
  split
  · exact ⟨fun _ => ‹_›, fun _ => rfl⟩
  · exact ⟨fun h => (Bool.false_ne_true h).elim, fun h => absurd h ‹_›⟩

/-- `Duration::ZERO`. -/
def zero : Duration := ⟨0, by decide⟩

/-- `Duration::from_secs`. -/
def fromSecs (secs : UInt64) : Duration :=
  ⟨secs.toNat * nanosPerSec, by
    have hlt := secs.toNat_lt
    unfold nanosPerSec
    omega⟩

/-- `Duration::from_nanos`. -/
def fromNanos (n : UInt64) : Duration :=
  ⟨n.toNat, by
    have hlt := n.toNat_lt
    unfold nanosPerSec
    omega⟩

/-- `min` of two durations. -/
def min (d e : Duration) : Duration := if d.nanos ≤ e.nanos then d else e

/-- The nanoseconds of the shorter duration. -/
theorem nanos_min (d e : Duration) : (d.min e).nanos = Min.min d.nanos e.nanos := by
  unfold min
  split <;> omega

/-- `+` of durations. -/
def add? (d e : Duration) : Option Duration := ofNanos? (d.nanos + e.nanos)

/-- The duration between two instants, which are nanoseconds of one clock, or zero when they are in
the other order. -/
def since (later earlier : ℕ) : Duration :=
  ⟨Min.min (later - earlier) (2 ^ 64 * nanosPerSec - 1), by
    unfold nanosPerSec
    omega⟩

/-- `as_secs_f32` and `as_secs_f64`: the whole seconds and the rest are converted one by one. -/
def asSecs (f : BinaryFormat) (d : Duration) : ℚ :=
  f.round (f.round (d.nanos / nanosPerSec : ℕ) +
    f.round (f.round (d.nanos % nanosPerSec : ℕ) / f.round nanosPerSec))

/-- `from_secs_f32` and `from_secs_f64` of a nonnegative number, which is rounded to nanoseconds. -/
def ofSecs? (secs : ℚ) : Option Duration := ofNanos? (roundHalfEven (secs * nanosPerSec))

end Duration

/-- A double of either sign. Its magnitude has no value when it is infinite or no number. -/
structure SignedF64 where
  /-- The sign bit. -/
  negative : Bool
  /-- The magnitude. -/
  magnitude : F64

/-- `Duration::mul_f64`: the seconds are multiplied as doubles, and the product is rounded to
nanoseconds. A product that is negative, too large or no number panics. -/
def Duration.mulF64? (d : Duration) (factor : SignedF64) : Option Duration :=
  match factor.magnitude.value with
  | none => none
  | some x =>
    let secs := double.round (x * d.asSecs double)
    if factor.negative ∧ secs ≠ 0 then none else ofSecs? secs

end ModalRust
