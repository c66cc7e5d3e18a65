import ModalRust.Sdk.Error
import ModalRust.Str

/-!
# Spec strings

The parsers of `ops/function/parse.rs`, which read the string forms that the attribute
macros emit for retries, GPUs and schedules. A malformed spec is an error of the SDK.
-/

namespace ModalRust.Sdk

/-- A 32-bit floating-point number, as its bits. -/
abbrev F32 := UInt32

/-- What is taken from Rust's standard library as it is. -/
structure Std where
  /-- `str::parse::<f32>`. -/
  readF32 : Text → Option F32
  /-- `str::to_uppercase`. -/
  toUppercase : Text → Text
  /-- A string under `{:?}`. -/
  debug : Text → Text

/-- `FunctionRetryPolicy`. -/
structure FunctionRetryPolicy where
  /-- The factor between two delays. -/
  backoffCoefficient : F32
  /-- The first delay, in milliseconds. -/
  initialDelayMs : ℕ
  /-- The largest delay, in milliseconds. -/
  maxDelayMs : ℕ
  /-- How often a failed call is run again. -/
  retries : ℕ
  deriving DecidableEq

/-- `GpuConfig`. -/
structure GpuConfig where
  /-- The type, with its memory suffix. -/
  gpuType : Text
  /-- How many. -/
  count : ℕ
  deriving DecidableEq

/-- The period of a schedule. -/
structure Period where
  /-- Years. -/
  years : ℤ
  /-- Months. -/
  months : ℤ
  /-- Weeks. -/
  weeks : ℤ
  /-- Days. -/
  days : ℤ
  /-- Hours. -/
  hours : ℤ
  /-- Minutes. -/
  minutes : ℤ
  /-- Seconds. -/
  seconds : F32
  deriving DecidableEq

/-- `Schedule`. -/
inductive Schedule
  /-- A cron expression in a time zone. -/
  | cron (cronString timezone : Text)
  /-- A fixed period. -/
  | period (period : Period)
  deriving DecidableEq

/-- The coefficient `1.0` of the bare `retries = N` form. -/
def retryDefaultBackoffCoefficient : F32 := 0x3F800000

/-- The default delay before the first retry. -/
def retryDefaultInitialDelayMs : ℕ := 1000

/-- The default largest delay. -/
def retryDefaultMaxDelayMs : ℕ := 60000

/-- The components of a spec: its parts between commas, without the empty ones. -/
def components (rest : Text) : List Text := (rest.splitOn ',').filter fun part => !part.isEmpty

/-- The components that were joined with commas. -/
theorem components_intercalate {parts : List Text}
    (hparts : ∀ part ∈ parts, part ≠ [] ∧ ',' ∉ part) :
    components ([','].intercalate parts) = parts := by
  unfold components
  cases parts with
  | nil => rfl
  | cons part parts =>
    rw [List.splitOn_intercalate ',' (fun part hpart => (hparts part hpart).2) (by simp)]
    refine List.filter_eq_self.mpr fun part hpart => ?_
    simpa using (hparts part hpart).1

/-- A number of a component, or the error that names the component as it is given. -/
def numberOf {α : Type} (std : Std) (kind component value : Text) (number : Option α) :
    Except Error α :=
  match number with
  | some n => .ok n
  | none =>
    .error (.invalid ("Invalid ".toList ++ kind ++ " ".toList ++ std.debug value ++
      " for ".toList ++ component))

/-- The components of a retries spec that were read so far. -/
structure RetriesSoFar where
  /-- The count, once it was given. -/
  retries : Option ℕ
  /-- The coefficient. -/
  backoffCoefficient : F32
  /-- The first delay. -/
  initialDelayMs : ℕ
  /-- The largest delay. -/
  maxDelayMs : ℕ

/-- One component of a retries spec. -/
def retriesComponent (std : Std) (spec : Text) (acc : RetriesSoFar) (part : Text) :
    Except Error RetriesSoFar :=
  match splitOnce '=' part with
  | none =>
    .error (.invalid ("Invalid retries component ".toList ++ std.debug part ++
      " in spec ".toList ++ std.debug spec ++ ": expected key=value".toList))
  | some (key, value) =>
    let integer :=
      numberOf std "integer".toList ("retries ".toList ++ std.debug key) value
        (parseU32 (trim value))
    if trim key = "max".toList then do
      return { acc with retries := some (← integer) }
    else if trim key = "backoff".toList then do
      let coefficient ←
        numberOf std "float".toList "retries \"backoff\"".toList value (std.readF32 (trim value))
      return { acc with backoffCoefficient := coefficient }
    else if trim key = "initial_ms".toList then do
      return { acc with initialDelayMs := (← integer) }
    else if trim key = "max_ms".toList then do
      return { acc with maxDelayMs := (← integer) }
    else
      .error (.invalid ("Unknown retries component ".toList ++ std.debug (trim key) ++
        " in spec ".toList ++ std.debug spec))

/-- `parse_retries_spec`. -/
def parseRetriesSpec (std : Std) (spec : Text) : Except Error FunctionRetryPolicy :=
  match "retries:".toList.isPrefixOf? spec with
  | none =>
    .error (.invalid ("Invalid retries spec ".toList ++ std.debug spec ++
      ": expected a \"retries:..\" prefix".toList))
  | some rest => do
    let acc ← (components rest).foldlM (retriesComponent std spec)
      ⟨none, retryDefaultBackoffCoefficient, retryDefaultInitialDelayMs, retryDefaultMaxDelayMs⟩
    match acc.retries with
    | none =>
      .error (.invalid ("Invalid retries spec ".toList ++ std.debug spec ++
        ": missing required \"max\" (the retry count)".toList))
    | some retries =>
      return ⟨acc.backoffCoefficient, acc.initialDelayMs, acc.maxDelayMs, retries⟩

/-- `parse_gpu_config`. -/
def parseGpuConfig (std : Std) (spec : Text) : Except Error GpuConfig :=
  match splitOnce ':' spec with
  | none => .ok ⟨std.toUppercase spec, 1⟩
  | some (type, count) =>
    match parseU32 (trim count) with
    | some n => .ok ⟨std.toUppercase type, n⟩
    | none =>
      .error (.invalid ("Invalid GPU count: ".toList ++ count ++
        ". Value must be an integer.".toList))

/-- One component of a period. -/
def periodComponent (std : Std) (spec : Text) (period : Period) (part : Text) :
    Except Error Period :=
  match splitOnce '=' part with
  | none =>
    .error (.invalid ("Invalid period component ".toList ++ std.debug part ++
      " in schedule spec ".toList ++ std.debug spec ++ ": expected key=value".toList))
  | some (key, value) =>
    let integer :=
      numberOf std "integer".toList ("period ".toList ++ std.debug key) value
        (parseI32 (trim value))
    if trim key = "years".toList then do return { period with years := (← integer) }
    else if trim key = "months".toList then do return { period with months := (← integer) }
    else if trim key = "weeks".toList then do return { period with weeks := (← integer) }
    else if trim key = "days".toList then do return { period with days := (← integer) }
    else if trim key = "hours".toList then do return { period with hours := (← integer) }
    else if trim key = "minutes".toList then do return { period with minutes := (← integer) }
    else if trim key = "seconds".toList then do
      let seconds ←
        numberOf std "float".toList "period \"seconds\"".toList value (std.readF32 (trim value))
      return { period with seconds := seconds }
    else
      .error (.invalid ("Unknown period component ".toList ++ std.debug (trim key) ++
        " in schedule spec ".toList ++ std.debug spec))

/-- `parse_schedule`. -/
def parseSchedule (std : Std) (spec : Text) : Except Error Schedule :=
  match "cron:".toList.isPrefixOf? spec, "period:".toList.isPrefixOf? spec with
  | some rest, _ =>
    match splitOnce ':' rest with
    | some (timezone, cronString) => .ok (.cron cronString timezone)
    | none =>
      .error (.invalid ("Invalid cron schedule spec ".toList ++ std.debug spec ++
        ": expected \"cron:<timezone>:<cron_string>\"".toList))
  | none, some rest => do
    return .period (← (components rest).foldlM (periodComponent std spec) ⟨0, 0, 0, 0, 0, 0, 0⟩)
  | none, none =>
    .error (.invalid ("Invalid schedule spec ".toList ++ std.debug spec ++
      ": expected a \"cron:..\" or \"period:..\" prefix".toList))

end ModalRust.Sdk
