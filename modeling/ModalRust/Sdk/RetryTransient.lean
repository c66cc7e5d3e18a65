import ModalRust.Duration
import ModalRust.Sdk.Retry

/-!
# The retry loop and its clock

`retry_transient` with the durations of its policy, the time that passes and the jitter of its
sleeps. The operation may answer every attempt in any way and at any time, or not at all, and a
duration that does not fit panics. The promises of the loop are a predicate on runs, and they
hold for exactly the policies and histories whose durations fit.
-/

namespace ModalRust.Sdk.Timed

/-- `RetryPolicy`. -/
structure RetryPolicy where
  /-- Initial backoff before the first retry. -/
  baseDelay : Duration
  /-- Cap on the (pre-jitter) backoff between retries. -/
  maxDelay : Duration
  /-- Multiplier applied to the backoff after each retry. -/
  delayFactor : SignedF64
  /-- Total tries (1 initial + N-1 retries). -/
  maxAttempts : ℕ
  /-- Hard wall-clock cap for the whole retry loop of a single RPC. -/
  totalDeadline : Duration

/-- The default control-plane unary policy. -/
def RetryPolicy.default : RetryPolicy where
  baseDelay := .fromNanos 100000000
  maxDelay := .fromSecs 5
  delayFactor := ⟨false, .ofRat 2⟩
  maxAttempts := 8
  totalDeadline := .fromSecs 120

/-- How the operation answers an attempt, and what the loop reads from its surroundings then. -/
structure Answer (α : Type*) where
  /-- The outcome. -/
  result : Except Error α
  /-- `start.elapsed()` after the attempt. -/
  elapsed : Duration
  /-- The random number that the jitter draws after the attempt. -/
  draw : UInt64

/-- The answers to the attempts, which are numbered from `1`. An attempt without an answer never
ends. -/
abbrev History (α : Type*) := ℕ → Option (Answer α)

/-- How a run ends. -/
inductive Ending (α : Type*)
  /-- The loop returns. -/
  | returned (result : Except Error α)
  /-- A duration does not fit. -/
  | panicked
  /-- The last attempt is not answered. -/
  | waiting

/-- A sleep between two attempts. -/
structure Sleep where
  /-- The backoff before the jitter. -/
  delay : Duration
  /-- The jittered backoff. -/
  slept : Duration
  /-- The time since the start of the loop when the sleep starts. -/
  elapsed : Duration
  deriving DecidableEq

/-- What a run of the loop does. -/
structure Run (α : Type*) where
  /-- The number of the last attempt. -/
  attempts : ℕ
  /-- The sleeps between the attempts. -/
  sleeps : List Sleep
  /-- How the run ends. -/
  ending : Ending α

/-- Full jitter: a random delay in `[0, delay]`. The addition of one overflows when the delay does
not fit 64 bits. -/
def jitter (delay : Duration) (draw : UInt64) : Option Duration :=
  if delay.nanos = 0 then some delay
  else
    let largest := min delay.nanos (2 ^ 64 - 1)
    if largest + 1 < 2 ^ 64 then Duration.ofNanos? (draw.toNat % (largest + 1)) else none

/-- What an attempt leads to: the end of the run after some sleeps, or a sleep and another attempt
with a new delay. -/
inductive Turn (α : Type*)
  /-- The run ends. -/
  | stop (sleeps : List Sleep) (ending : Ending α)
  /-- Another attempt follows. -/
  | again (sleep : Sleep) (delay : Duration)

variable {α : Type*}

/-- The body of the loop. The end of the backoff is computed for every error, and the next delay
after the sleep. -/
def turn (policy : RetryPolicy) (answer : Option (Answer α)) (attempt : ℕ) (delay : Duration) :
    Turn α :=
  match answer with
  | none => .stop [] .waiting
  | some answer =>
    match answer.result with
    | .ok v => .stop [] (.returned (.ok v))
    | .error e =>
      match answer.elapsed.add? delay with
      | none => .stop [] .panicked
      | some wakeUp =>
        if ¬ e.isTransient ∨ policy.maxAttempts ≤ attempt ∨
            policy.totalDeadline.nanos ≤ wakeUp.nanos then
          .stop [] (.returned (.error e))
        else
          match jitter delay answer.draw with
          | none => .stop [] .panicked
          | some slept =>
            match delay.mulF64? policy.delayFactor with
            | none => .stop [⟨delay, slept, answer.elapsed⟩] .panicked
            | some longer => .again ⟨delay, slept, answer.elapsed⟩ (longer.min policy.maxDelay)

/-- What the loop has done when another attempt follows. -/
theorem turn_eq_again {policy : RetryPolicy} {answer : Option (Answer α)} {attempt : ℕ}
    {delay : Duration} {sleep : Sleep} {next : Duration}
    (hturn : turn policy answer attempt delay = .again sleep next) :
    ∃ a e wakeUp longer, answer = some a ∧ a.result = .error e ∧ e.isTransient = true ∧
      attempt < policy.maxAttempts ∧ a.elapsed.add? delay = some wakeUp ∧
      wakeUp.nanos < policy.totalDeadline.nanos ∧ jitter delay a.draw = some sleep.slept ∧
      sleep.delay = delay ∧ sleep.elapsed = a.elapsed ∧
      delay.mulF64? policy.delayFactor = some longer ∧ next = longer.min policy.maxDelay := by
  unfold turn at hturn
  cases answer with
  | none => cases hturn
  | some a =>
    dsimp only at hturn
    cases hresult : a.result with
    | ok v =>
      rw [hresult] at hturn
      cases hturn
    | error e =>
      rw [hresult] at hturn
      dsimp only at hturn
      cases hsum : a.elapsed.add? delay with
      | none =>
        rw [hsum] at hturn
        cases hturn
      | some wakeUp =>
        rw [hsum] at hturn
        dsimp only at hturn
        by_cases hstop : ¬ e.isTransient ∨ policy.maxAttempts ≤ attempt ∨
            policy.totalDeadline.nanos ≤ wakeUp.nanos
        · rw [if_pos hstop] at hturn
          cases hturn
        · rw [if_neg hstop] at hturn
          cases hjitter : jitter delay a.draw with
          | none =>
            rw [hjitter] at hturn
            cases hturn
          | some slept =>
            rw [hjitter] at hturn
            dsimp only at hturn
            cases hlonger : delay.mulF64? policy.delayFactor with
            | none =>
              rw [hlonger] at hturn
              cases hturn
            | some longer =>
              rw [hlonger] at hturn
              cases hturn
              push Not at hstop
              exact ⟨a, e, wakeUp, longer, rfl, hresult, hstop.1, hstop.2.1, hsum, hstop.2.2,
                hjitter, rfl, rfl, rfl, rfl⟩

/-- A run that starts after one more sleep. -/
def Run.after (sleep : Sleep) (run : Run α) : Run α := { run with sleeps := sleep :: run.sleeps }

/-- The loop from an attempt on. -/
def retryLoop (policy : RetryPolicy) (history : History α) (attempt : ℕ) (delay : Duration) :
    Run α :=
  match hturn : turn policy (history attempt) attempt delay with
  | .stop sleeps ending => ⟨attempt, sleeps, ending⟩
  | .again sleep next => (retryLoop policy history (attempt + 1) next).after sleep
termination_by policy.maxAttempts - attempt
decreasing_by
  obtain ⟨-, -, -, -, -, -, -, hlt, -⟩ := turn_eq_again hturn
  omega

/-- `retry_transient`. -/
def retryTransient (policy : RetryPolicy) (history : History α) : Run α :=
  retryLoop policy history 1 policy.baseDelay

/-! ### What the loop promises -/

/-- The backoff that the policy plans after attempt `i + 1`: the base delay, multiplied again and
again and capped. -/
def RetryPolicy.planned (policy : RetryPolicy) : ℕ → Option Duration
  | 0 => some policy.baseDelay
  | i + 1 => do
    let delay ← policy.planned i
    let longer ← delay.mulF64? policy.delayFactor
    return longer.min policy.maxDelay

/-- Attempt `i + 1` fails with a transient error, it is not the last one that the policy allows,
and the planned backoff ends before the deadline. -/
def Retries (policy : RetryPolicy) (history : History α) (i : ℕ) : Prop :=
  ∃ answer e delay, history (i + 1) = some answer ∧ answer.result = .error e ∧
    e.isTransient = true ∧ i + 1 < policy.maxAttempts ∧ policy.planned i = some delay ∧
    answer.elapsed.nanos + delay.nanos < policy.totalDeadline.nanos

/-- A sleep after attempt `i + 1` is as the policy promises: the planned backoff within the cap,
jittered within it, with an end before the deadline. -/
structure Within (policy : RetryPolicy) (history : History α) (i : ℕ) (sleep : Sleep) : Prop where
  /-- The backoff is the planned one. -/
  planned : policy.planned i = some sleep.delay
  /-- The backoff is within the cap. -/
  capped : sleep.delay.nanos ≤ policy.maxDelay.nanos
  /-- The jitter only shortens the backoff. -/
  jittered : sleep.slept.nanos ≤ sleep.delay.nanos
  /-- The sleep starts when the attempt has failed. -/
  clocked : ∃ answer, history (i + 1) = some answer ∧ sleep.elapsed = answer.elapsed
  /-- The sleep ends before the deadline. -/
  inTime : sleep.elapsed.nanos + sleep.slept.nanos < policy.totalDeadline.nanos

/-- A run that starts with attempt `i + 1` is as the policy promises. -/
structure Meets (policy : RetryPolicy) (history : History α) (i : ℕ) (run : Run α) : Prop where
  /-- The operation is invoked. -/
  invoked : i + 1 ≤ run.attempts
  /-- The operation is not invoked more often than the policy allows. -/
  limited : run.attempts ≤ max (i + 1) policy.maxAttempts
  /-- All attempts but the last one fail with transient errors. -/
  earlier : ∀ k, i ≤ k → k + 1 < run.attempts → ∃ answer e,
    history (k + 1) = some answer ∧ answer.result = .error e ∧ e.isTransient = true
  /-- The outcome of the last attempt is returned. -/
  last : run.ending =
    ((history run.attempts).map fun answer => Ending.returned answer.result).getD .waiting
  /-- A transient error is returned only when the attempts or the time are exhausted. -/
  exhausted : ∀ k, run.attempts = k + 1 → ¬ Retries policy history k
  /-- There is one sleep between two attempts. -/
  slept : i + 1 + run.sleeps.length = run.attempts
  /-- Every sleep is within the bounds. -/
  within : ∀ k sleep, run.sleeps[k]? = some sleep → Within policy history (i + k) sleep

/-- The durations around attempt `i + 1` fit: the end of the backoff is a duration if the attempt
fails, and if another attempt follows, then the backoff is within the cap and short enough for the
jitter, and its product is a duration. -/
def Sound (policy : RetryPolicy) (history : History α) (i : ℕ) : Prop :=
  ∀ answer e delay, history (i + 1) = some answer → answer.result = .error e →
    policy.planned i = some delay →
      answer.elapsed.nanos + delay.nanos < 2 ^ 64 * nanosPerSec ∧
      (Retries policy history i → delay.nanos ≤ policy.maxDelay.nanos ∧
        delay.nanos < 2 ^ 64 - 1 ∧ (delay.mulF64? policy.delayFactor).isSome)

/-- The durations fit around attempt `i + 1` and every later one that is reached from it. -/
def FitsFrom (policy : RetryPolicy) (history : History α) (i : ℕ) : Prop :=
  ∀ k, i ≤ k → (∀ j, i ≤ j → j < k → Retries policy history j) → Sound policy history k

/-- The durations fit around every attempt that is reached. -/
def Fits (policy : RetryPolicy) (history : History α) : Prop :=
  ∀ k, (∀ j < k, Retries policy history j) → Sound policy history k

/-! ### The loop step by step -/

variable {policy : RetryPolicy} {history : History α}

/-- The jitter does not lengthen a delay. -/
theorem jitter_le {delay slept : Duration} {draw : UInt64}
    (hslept : jitter delay draw = some slept) : slept.nanos ≤ delay.nanos := by
  unfold jitter at hslept
  by_cases hzero : delay.nanos = 0
  · rw [if_pos hzero] at hslept
    cases hslept
    exact le_rfl
  · rw [if_neg hzero] at hslept
    dsimp only at hslept
    split at hslept
    · rw [Duration.nanos_of_ofNanos? hslept]
      have hmod : draw.toNat % (min delay.nanos (2 ^ 64 - 1) + 1) <
          min delay.nanos (2 ^ 64 - 1) + 1 := Nat.mod_lt _ (Nat.succ_pos _)
      omega
    · cases hslept

/-- The jitter needs a delay whose nanoseconds fit 64 bits, and one more. -/
theorem isSome_jitter {delay : Duration} (draw : UInt64) :
    (jitter delay draw).isSome ↔ delay.nanos < 2 ^ 64 - 1 := by
  unfold jitter
  by_cases hzero : delay.nanos = 0
  · rw [if_pos hzero, hzero]
    exact ⟨fun _ => by decide, fun _ => rfl⟩
  · rw [if_neg hzero]
    dsimp only
    by_cases hfits : min delay.nanos (2 ^ 64 - 1) + 1 < 2 ^ 64
    · rw [if_pos hfits, Duration.isSome_ofNanos?]
      have hmod : draw.toNat % (min delay.nanos (2 ^ 64 - 1) + 1) <
          min delay.nanos (2 ^ 64 - 1) + 1 := Nat.mod_lt _ (Nat.succ_pos _)
      unfold nanosPerSec
      omega
    · rw [if_neg hfits]
      constructor
      · intro h
        cases h
      · intro hlt
        omega

/-- What the next planned backoff is. -/
theorem planned_succ {i : ℕ} {delay : Duration} (hdelay : policy.planned i = some delay) :
    policy.planned (i + 1) =
      (delay.mulF64? policy.delayFactor).map fun longer => longer.min policy.maxDelay := by
  rw [RetryPolicy.planned, hdelay, Option.bind_eq_bind, Option.bind_some]
  cases delay.mulF64? policy.delayFactor <;> rfl

/-- The durations fit from an attempt on if they fit around it and, when another attempt follows,
from that one on. -/
theorem fitsFrom_iff {i : ℕ} :
    FitsFrom policy history i ↔
      Sound policy history i ∧ (Retries policy history i → FitsFrom policy history (i + 1)) := by
  constructor
  · intro hfits
    refine ⟨hfits i le_rfl fun j hle hlt => absurd hle (by omega), fun hretry k hk hall => ?_⟩
    refine hfits k (by omega) fun j hle hlt => ?_
    rcases hle.eq_or_lt with rfl | hgt
    · exact hretry
    · exact hall j hgt hlt
  · rintro ⟨hsound, hrest⟩ k hk hall
    rcases hk.eq_or_lt with rfl | hlt
    · exact hsound
    · exact hrest (hall i le_rfl hlt) k hlt fun j hle hj => hall j (by omega) hj

/-- The cases of one attempt: it is not answered, its outcome is returned, a duration does not
fit, or another attempt follows after the planned backoff. -/
inductive TurnCase (policy : RetryPolicy) (history : History α) (i : ℕ) (delay : Duration) :
    Turn α → Prop
  /-- The attempt is not answered. -/
  | waiting (hanswer : history (i + 1) = none) : TurnCase policy history i delay (.stop [] .waiting)
  /-- The outcome is returned. -/
  | returned {answer : Answer α} (hanswer : history (i + 1) = some answer)
      (hlast : ¬ Retries policy history i) (hsound : Sound policy history i) :
      TurnCase policy history i delay (.stop [] (.returned answer.result))
  /-- A duration does not fit. -/
  | panicked {sleeps : List Sleep} {answer : Answer α} (hanswer : history (i + 1) = some answer)
      (hsound : ¬ Sound policy history i) :
      TurnCase policy history i delay (.stop sleeps .panicked)
  /-- Another attempt follows. -/
  | again {sleep : Sleep} {next : Duration} (hretry : Retries policy history i)
      (hnext : policy.planned (i + 1) = some next)
      (hsound : Sound policy history i ↔ Within policy history i sleep) :
      TurnCase policy history i delay (.again sleep next)

section Attempt

variable {history : History α} {i : ℕ} {delay : Duration} {answer : Answer α}

/-- After an answer that is a value, no attempt follows and nothing has to fit. -/
theorem not_retries_of_ok (policy : RetryPolicy) (hanswer : history (i + 1) = some answer) {v : α}
    (hresult : answer.result = .ok v) :
    ¬ Retries policy history i ∧ Sound policy history i := by
  constructor
  · rintro ⟨a, e, -, ha, he, -⟩
    obtain rfl := Option.some.inj (hanswer.symm.trans ha)
    rw [hresult] at he
    cases he
  · intro a e _ ha he
    obtain rfl := Option.some.inj (hanswer.symm.trans ha)
    rw [hresult] at he
    cases he

/-- What has to fit around an attempt that failed, in terms of its answer. -/
theorem sound_iff_of_error (hdelay : policy.planned i = some delay)
    (hanswer : history (i + 1) = some answer) {e : Error} (hresult : answer.result = .error e) :
    Sound policy history i ↔
      answer.elapsed.nanos + delay.nanos < 2 ^ 64 * nanosPerSec ∧
      (Retries policy history i → delay.nanos ≤ policy.maxDelay.nanos ∧
        delay.nanos < 2 ^ 64 - 1 ∧ (delay.mulF64? policy.delayFactor).isSome) := by
  constructor
  · intro h
    exact h answer e delay hanswer hresult hdelay
  · intro h a _ d ha _ hd
    obtain rfl := Option.some.inj (hanswer.symm.trans ha)
    obtain rfl := Option.some.inj (hdelay.symm.trans hd)
    exact h

/-- When an attempt follows one that failed, in terms of its answer. -/
theorem retries_iff_of_error (hdelay : policy.planned i = some delay)
    (hanswer : history (i + 1) = some answer) {e : Error} (hresult : answer.result = .error e) :
    Retries policy history i ↔ e.isTransient = true ∧ i + 1 < policy.maxAttempts ∧
      answer.elapsed.nanos + delay.nanos < policy.totalDeadline.nanos := by
  constructor
  · rintro ⟨a, e', d, ha, he, htransient, hlt, hd, htime⟩
    obtain rfl := Option.some.inj (hanswer.symm.trans ha)
    obtain rfl := Option.some.inj (hdelay.symm.trans hd)
    obtain rfl := Except.error.inj (hresult.symm.trans he)
    exact ⟨htransient, hlt, htime⟩
  · rintro ⟨htransient, hlt, htime⟩
    exact ⟨answer, e, delay, hanswer, hresult, htransient, hlt, hdelay, htime⟩

end Attempt

/-- **One attempt** ends in one of the four ways. -/
theorem turnCase_turn (history : History α) {i : ℕ} {delay : Duration}
    (hdelay : policy.planned i = some delay) :
    TurnCase policy history i delay (turn policy (history (i + 1)) (i + 1) delay) := by
  unfold turn
  cases hanswer : history (i + 1) with
  | none => exact .waiting hanswer
  | some answer =>
    dsimp only
    cases hresult : answer.result with
    | ok v =>
      obtain ⟨hlast, hsound⟩ := not_retries_of_ok policy hanswer hresult
      dsimp only
      rw [← hresult]
      exact .returned hanswer hlast hsound
    | error e =>
      dsimp only
      have hsound := sound_iff_of_error hdelay hanswer hresult
      have hretries := retries_iff_of_error hdelay hanswer hresult
      cases hsum : answer.elapsed.add? delay with
      | none =>
        refine .panicked hanswer fun h => ?_
        have hsome := Duration.isSome_ofNanos?.mpr (hsound.mp h).1
        unfold Duration.add? at hsum
        rw [hsum] at hsome
        cases hsome
      | some wakeUp =>
        dsimp only
        have hfits : answer.elapsed.nanos + delay.nanos < 2 ^ 64 * nanosPerSec := by
          rw [← Duration.isSome_ofNanos?]
          exact Option.isSome_of_eq_some hsum
        have hwake := Duration.nanos_of_ofNanos? hsum
        rw [← hwake] at hretries
        by_cases hstop : ¬ e.isTransient ∨ policy.maxAttempts ≤ i + 1 ∨
            policy.totalDeadline.nanos ≤ wakeUp.nanos
        · rw [if_pos hstop, ← hresult]
          have hlast : ¬ Retries policy history i := by
            rw [hretries]
            rintro ⟨htransient, hlt, htime⟩
            rcases hstop with h | h | h
            · exact h htransient
            · omega
            · omega
          exact .returned hanswer hlast (hsound.mpr ⟨hfits, fun h => absurd h hlast⟩)
        · rw [if_neg hstop]
          push Not at hstop
          have hretry := hretries.mpr hstop
          cases hjitter : jitter delay answer.draw with
          | none =>
            refine .panicked hanswer fun h => ?_
            have hsome := (isSome_jitter answer.draw).mpr ((hsound.mp h).2 hretry).2.1
            rw [hjitter] at hsome
            cases hsome
          | some slept =>
            dsimp only
            cases hlonger : delay.mulF64? policy.delayFactor with
            | none =>
              refine .panicked hanswer fun h => ?_
              have hsome := ((hsound.mp h).2 hretry).2.2
              rw [hlonger] at hsome
              cases hsome
            | some longer =>
              refine .again hretry ?_ ?_
              · rw [planned_succ hdelay, hlonger]
                rfl
              · have hshort := jitter_le hjitter
                have hdraw := (isSome_jitter answer.draw).mp (Option.isSome_of_eq_some hjitter)
                rw [hsound]
                constructor
                · rintro ⟨-, hcap⟩
                  refine ⟨hdelay, (hcap hretry).1, hshort, ⟨answer, hanswer, rfl⟩, ?_⟩
                  have htime := hstop.2.2
                  dsimp only
                  omega
                · intro hwithin
                  refine ⟨hfits, fun _ => ⟨hwithin.capped, hdraw, ?_⟩⟩
                  rw [hlonger]
                  rfl

/-! ### Whole runs -/

/-- A run after one more sleep is as promised if the sleep and the run are. -/
theorem meets_after {i : ℕ} {sleep : Sleep} {run : Run α} (hretry : Retries policy history i) :
    Meets policy history i (run.after sleep) ↔
      Within policy history i sleep ∧ Meets policy history (i + 1) run := by
  have hretried := hretry
  obtain ⟨answer, e, -, hanswer, hresult, htransient, hlt, -, -⟩ := hretried
  constructor
  · intro hmeets
    have hslept := hmeets.slept
    have hlimited := hmeets.limited
    simp only [Run.after, List.length_cons] at hslept hlimited
    refine ⟨hmeets.within 0 sleep rfl, ?_, ?_, ?_, hmeets.last, hmeets.exhausted, ?_, ?_⟩
    · omega
    · omega
    · intro k hk
      exact hmeets.earlier k (by omega)
    · omega
    · intro k other hother
      have hwithin := hmeets.within (k + 1) other hother
      rwa [show i + (k + 1) = i + 1 + k by omega] at hwithin
  · rintro ⟨hwithin, hmeets⟩
    have hinvoked := hmeets.invoked
    have hlimited := hmeets.limited
    have hslept := hmeets.slept
    refine ⟨?_, ?_, ?_, hmeets.last, hmeets.exhausted, ?_, ?_⟩
    · simp only [Run.after]
      omega
    · simp only [Run.after]
      omega
    · intro k hk hattempts
      rcases hk.eq_or_lt with rfl | hgt
      · exact ⟨answer, e, hanswer, hresult, htransient⟩
      · exact hmeets.earlier k hgt hattempts
    · simp only [Run.after, List.length_cons]
      omega
    · intro k other hother
      cases k with
      | zero =>
        cases hother
        exact hwithin
      | succ k =>
        have hrest := hmeets.within k other hother
        rwa [show i + 1 + k = i + (k + 1) by omega] at hrest

/-- A run that ends with its first attempt is as promised if it returns the outcome. -/
theorem meets_stop {i : ℕ} {ending : Ending α} (hlast : ¬ Retries policy history i)
    (hending : ending =
      ((history (i + 1)).map fun answer => Ending.returned answer.result).getD .waiting) :
    Meets policy history i ⟨i + 1, [], ending⟩ where
  invoked := le_rfl
  limited := le_max_left _ _
  earlier k hk hlt := absurd hlt (by dsimp only; omega)
  last := hending
  exhausted k hk := by
    cases hk
    exact hlast
  slept := rfl
  within k sleep hsleep := by
    rw [List.getElem?_nil] at hsleep
    cases hsleep

/-- What the loop does from an attempt on. -/
theorem retryLoop_eq (policy : RetryPolicy) (history : History α) (attempt : ℕ) (delay : Duration) :
    retryLoop policy history attempt delay =
      match turn policy (history attempt) attempt delay with
      | .stop sleeps ending => ⟨attempt, sleeps, ending⟩
      | .again sleep next => (retryLoop policy history (attempt + 1) next).after sleep := by
  rw [retryLoop]
  split <;> rename_i hturn <;> rw [hturn]

/-- **The loop from an attempt on** keeps its promises exactly if the durations fit. -/
theorem meets_retryLoop_iff (history : History α) {i : ℕ} {delay : Duration}
    (hdelay : policy.planned i = some delay) :
    Meets policy history i (retryLoop policy history (i + 1) delay) ↔
      FitsFrom policy history i := by
  induction hleft : policy.maxAttempts - i using Nat.strong_induction_on generalizing i delay with
  | _ left ih =>
    rw [retryLoop_eq, fitsFrom_iff]
    have hcase := turnCase_turn history hdelay
    generalize turn policy (history (i + 1)) (i + 1) delay = step at hcase ⊢
    cases hcase with
    | waiting hanswer =>
      have hlast : ¬ Retries policy history i := by
        rintro ⟨answer, -, -, hsome, -⟩
        rw [hanswer] at hsome
        cases hsome
      have hsound : Sound policy history i := by
        intro answer _ _ hsome
        rw [hanswer] at hsome
        cases hsome
      have hmeets : Meets policy history i ⟨i + 1, [], .waiting⟩ :=
        meets_stop hlast (by rw [hanswer]; rfl)
      exact ⟨fun _ => ⟨hsound, fun h => absurd h hlast⟩, fun _ => hmeets⟩
    | returned hanswer hlast hsound =>
      have hmeets := meets_stop hlast (by rw [hanswer, Option.map_some, Option.getD_some])
      exact ⟨fun _ => ⟨hsound, fun h => absurd h hlast⟩, fun _ => hmeets⟩
    | panicked hanswer hsound =>
      constructor
      · intro hmeets
        have hlast := hmeets.last
        rw [hanswer] at hlast
        cases hlast
      · intro hfits
        exact absurd hfits.1 hsound
    | again hretry hnext hsound =>
      have hlt : i + 1 < policy.maxAttempts := by
        obtain ⟨-, -, -, -, -, -, hlt, -⟩ := hretry
        exact hlt
      dsimp only
      rw [meets_after hretry, hsound, ih _ (by omega) hnext rfl]
      exact and_congr_right fun _ => ⟨fun h _ => h, fun h => h hretry⟩

/-- **The retry loop keeps its promises exactly if the durations fit**: in every history it invokes
the operation at least once and as often as the policy allows, it stops at the first outcome that
is no transient error and returns the last outcome, every backoff is the planned one within the
cap, and no sleep ends after the deadline. -/
theorem meets_retryTransient_iff (policy : RetryPolicy) (history : History α) :
    Meets policy history 0 (retryTransient policy history) ↔ Fits policy history := by
  have hstart : policy.planned 0 = some policy.baseDelay := rfl
  have hloop := meets_retryLoop_iff history hstart
  unfold retryTransient
  rw [hloop]
  constructor
  · intro hfits k hall
    exact hfits k (Nat.zero_le _) fun j _ hj => hall j hj
  · intro hfits k _ hall
    exact hfits k fun j hj => hall j (Nat.zero_le _) hj

/-- A policy whose base delay is above its cap. -/
def slowStart : RetryPolicy := { RetryPolicy.default with baseDelay := .fromSecs 10 }

/-- A connection that is reset once. -/
def oneReset : History ℕ := fun attempt =>
  if attempt = 1 then some ⟨.error connectionReset, .fromSecs 1, 9000000000⟩
  else some ⟨.ok 0, .fromSecs 11, 0⟩

/-- The base delay is not capped: with a cap of five seconds the loop sleeps for nine. -/
theorem base_delay_above_the_cap :
    ¬ Meets slowStart oneReset 0 (retryTransient slowStart oneReset) := by
  intro hmeets
  have hsleep : (retryTransient slowStart oneReset).sleeps[0]? =
      some ⟨.fromSecs 10, .fromSecs 9, .fromSecs 1⟩ := by
    decide +kernel
  exact absurd (hmeets.within 0 _ hsleep).capped (by decide)

/-! ### The default policy -/

/-- The default policy doubles a tenth of a second up to five seconds. -/
theorem planned_default :
    ∀ i < 8, (RetryPolicy.default.planned i).map Duration.nanos =
      some (min (100000000 * 2 ^ i) 5000000000) := by
  decide +kernel

/-- The backoff that the default policy plans before its last attempt. -/
theorem exists_planned_default {i : ℕ} (hi : i < 8) :
    ∃ delay, RetryPolicy.default.planned i = some delay ∧
      delay.nanos = min (100000000 * 2 ^ i) 5000000000 :=
  Option.map_eq_some_iff.mp (planned_default i hi)

/-- Under the default policy the durations fit around an attempt that ends before the clock does. -/
theorem sound_default {i : ℕ} (hi : i < 8)
    (hclock : ∀ answer, history (i + 1) = some answer →
      answer.elapsed.nanos + 5000000000 < 2 ^ 64 * nanosPerSec) :
    Sound RetryPolicy.default history i := by
  intro answer e delay hanswer hresult hdelay
  obtain ⟨planned, hplanned, hnanos⟩ := exists_planned_default hi
  rw [hdelay] at hplanned
  cases hplanned
  have hfits := hclock answer hanswer
  refine ⟨by omega, fun hretry => ⟨?_, by omega, ?_⟩⟩
  · have hcap : RetryPolicy.default.maxDelay.nanos = 5000000000 := rfl
    omega
  · obtain ⟨-, -, -, -, -, -, hlt, -⟩ := hretry
    obtain ⟨next, hnext, -⟩ := exists_planned_default hlt
    rw [planned_succ hdelay] at hnext
    obtain ⟨longer, hlonger, -⟩ := Option.map_eq_some_iff.mp hnext
    exact Option.isSome_of_eq_some hlonger

/-- **The default policy fits** every history that ends before the clock does. -/
theorem fits_default
    (hclock : ∀ i answer, history i = some answer →
      answer.elapsed.nanos + 5000000000 < 2 ^ 64 * nanosPerSec) :
    Fits RetryPolicy.default history := by
  intro i hall
  have hi : i < 8 := by
    cases i with
    | zero => decide
    | succ i =>
      obtain ⟨-, -, -, -, -, -, hlt, -⟩ := hall i (Nat.lt_succ_self i)
      exact hlt
  exact sound_default hi (hclock (i + 1))

/-- Under the default policy an attempt is the last one, or another one follows. -/
theorem turn_default {answers : ℕ → Answer α} {i : ℕ} {delay : Duration} (hi : i < 8)
    (hclock : (answers (i + 1)).elapsed.nanos + 5000000000 < 2 ^ 64 * nanosPerSec)
    (hdelay : RetryPolicy.default.planned i = some delay) :
    let retries := Retries RetryPolicy.default (fun k => some (answers k)) i
    let step := turn RetryPolicy.default (some (answers (i + 1))) (i + 1) delay
    (¬ retries ∧ step = .stop [] (.returned (answers (i + 1)).result)) ∨
      ∃ sleep next, retries ∧ step = .again sleep next ∧
        RetryPolicy.default.planned (i + 1) = some next := by
  dsimp only
  have hsound : Sound RetryPolicy.default (fun k => some (answers k)) i :=
    sound_default hi fun answer hanswer => by
      cases hanswer
      exact hclock
  have hcase := turnCase_turn (fun k => some (answers k)) hdelay
  generalize turn RetryPolicy.default (some (answers (i + 1))) (i + 1) delay = step at hcase ⊢
  cases hcase with
  | waiting hanswer => cases hanswer
  | returned hanswer hlast _ =>
    cases hanswer
    exact Or.inl ⟨hlast, rfl⟩
  | panicked _ hbad => exact absurd hsound hbad
  | again hretry hnext _ => exact Or.inr ⟨_, _, hretry, rfl, hnext⟩

/-- The loop without a clock makes another attempt exactly when the timed one does. -/
theorem retries_default_iff (answers : ℕ → Answer α) {i : ℕ} {delay : Duration} (hi : i < 7)
    (hdelay : RetryPolicy.default.planned i = some delay) :
    Retries RetryPolicy.default (fun k => some (answers k)) i ↔
      ∃ e, (answers (i + 1)).result = .error e ∧ (!e.isTransient ||
        Sdk.RetryPolicy.default.totalDeadline ≤
          (answers (i + 1)).elapsed.nanos + delay.nanos) = false := by
  have hdeadline : RetryPolicy.default.totalDeadline.nanos =
      Sdk.RetryPolicy.default.totalDeadline := rfl
  have hmax : RetryPolicy.default.maxAttempts = 8 := rfl
  unfold Retries
  rw [hdelay, hdeadline, hmax]
  simp only [Bool.or_eq_false_iff, Bool.not_eq_false', decide_eq_false_iff_not, not_le]
  constructor
  · rintro ⟨answer, e, d, hanswer, hresult, htransient, -, hd, htime⟩
    cases hanswer
    cases hd
    exact ⟨e, hresult, htransient, htime⟩
  · rintro ⟨e, hresult, htransient, htime⟩
    exact ⟨_, e, delay, rfl, hresult, htransient, by omega, rfl, htime⟩

/-- From an attempt on, the loop without a clock makes the same attempts as the timed one under the
default policy and returns the same outcome. -/
theorem retryLoop_default {answers : ℕ → Answer α} {i : ℕ} {delay : Duration}
    (hclock : ∀ k, (answers k).elapsed.nanos + 5000000000 < 2 ^ 64 * nanosPerSec)
    (hi : i < 8) (hdelay : RetryPolicy.default.planned i = some delay) :
    let run := retryLoop RetryPolicy.default (fun k => some (answers k)) (i + 1) delay
    let outcome := Sdk.retryLoop Sdk.RetryPolicy.default
      (fun k (s : Unit) => (s, (answers k).result)) (fun k => (answers k).elapsed.nanos)
      (8 - (i + 1)) (i + 1) delay.nanos ()
    run.attempts = outcome.attempts ∧ run.ending = .returned outcome.result := by
  dsimp only
  induction hleft : 8 - (i + 1) generalizing i delay with
  | zero =>
    rw [retryLoop_eq]
    rcases turn_default hi (hclock _) hdelay with ⟨-, hstop⟩ | ⟨-, -, hretry, -, -⟩
    · rw [hstop]
      exact ⟨rfl, rfl⟩
    · obtain ⟨-, -, -, -, -, -, hlt, -⟩ := hretry
      have hmax : RetryPolicy.default.maxAttempts = 8 := rfl
      omega
  | succ left ih =>
    have hretries := retries_default_iff answers (by omega) hdelay
    rw [retryLoop_eq, Sdk.retryLoop]
    rcases turn_default hi (hclock _) hdelay with
      ⟨hlast, hstop⟩ | ⟨sleep, next, hretry, hagain, hnext⟩
    · rw [hstop]
      rw [hretries] at hlast
      cases hresult : (answers (i + 1)).result with
      | ok v => exact ⟨rfl, rfl⟩
      | error e =>
        dsimp only
        rw [if_pos (Bool.of_not_eq_false fun h => hlast ⟨e, hresult, h⟩)]
        exact ⟨rfl, rfl⟩
    · rw [hagain]
      obtain ⟨e, hresult, hstop⟩ := hretries.mp hretry
      obtain ⟨_, hplanned, hnanos⟩ := exists_planned_default hi
      rw [hdelay] at hplanned
      cases hplanned
      obtain ⟨_, hplanned, hnext_nanos⟩ := exists_planned_default (i := i + 1) (by omega)
      rw [hnext] at hplanned
      cases hplanned
      have hdouble : min (delay.nanos * Sdk.RetryPolicy.default.delayFactor)
          Sdk.RetryPolicy.default.maxDelay = next.nanos := by
        have hfactor : Sdk.RetryPolicy.default.delayFactor = 2 := rfl
        have hcap : Sdk.RetryPolicy.default.maxDelay = 5000000000 := rfl
        rw [hfactor, hcap, hnext_nanos, hnanos, pow_succ]
        omega
      have hrest := ih (by omega) hnext (by omega)
      rw [hresult]
      dsimp only
      rw [hstop, hdouble]
      exact hrest

/-- **The loop without a clock** that the control plane uses makes the same attempts as the timed
one under the default policy and returns the same outcome. -/
theorem retryTransient_default {answers : ℕ → Answer α}
    (hclock : ∀ k, (answers k).elapsed.nanos + 5000000000 < 2 ^ 64 * nanosPerSec) :
    let run := retryTransient RetryPolicy.default fun k => some (answers k)
    let outcome := Sdk.retryTransient Sdk.RetryPolicy.default
      (fun k (s : Unit) => (s, (answers k).result)) (fun k => (answers k).elapsed.nanos) ()
    run.attempts = outcome.attempts ∧ run.ending = .returned outcome.result :=
  retryLoop_default hclock (by decide) rfl

end ModalRust.Sdk.Timed
