import Mathlib.Data.List.Range
import ModalRust.Sdk.Error

/-!
# The transient-retry loop

`retry_transient` repeats one operation while it fails with a transient error. The
operation acts on a state, here of an arbitrary type, and each attempt may act
differently on it. The retry rule reduces a statement about the whole loop to one
about a single attempt that failed.
-/

namespace ModalRust.Sdk

/-- Tunables of the loop. Durations are in nanoseconds. -/
structure RetryPolicy where
  /-- Initial backoff before the first retry. -/
  baseDelay : ℕ
  /-- Cap on the backoff between retries. -/
  maxDelay : ℕ
  /-- Multiplier applied to the backoff after each retry. -/
  delayFactor : ℕ
  /-- Total tries. -/
  maxAttempts : ℕ
  /-- Wall-clock cap for the whole loop. -/
  totalDeadline : ℕ

/-- The policy of control-plane unary RPCs. -/
def RetryPolicy.default : RetryPolicy where
  baseDelay := 100 * 1000000
  maxDelay := 5 * 1000000000
  delayFactor := 2
  maxAttempts := 8
  totalDeadline := 120 * 1000000000

/-- What the loop leaves behind. -/
structure Outcome (σ α : Type*) where
  /-- The state after the last attempt. -/
  state : σ
  /-- The result of the last attempt. -/
  result : Except Error α
  /-- How many attempts were made. -/
  attempts : ℕ

variable {σ α : Type*}

/-- The loop with `left` retries left. Attempt number `attempt` fails at `elapsed
attempt` after the start, which covers the jittered sleeps in between. -/
def retryLoop (policy : RetryPolicy) (op : ℕ → σ → σ × Except Error α) (elapsed : ℕ → ℕ) :
    ℕ → ℕ → ℕ → σ → Outcome σ α
  | 0, attempt, _, s => ⟨(op attempt s).1, (op attempt s).2, attempt⟩
  | left + 1, attempt, delay, s =>
    match (op attempt s).2 with
    | .ok v => ⟨(op attempt s).1, .ok v, attempt⟩
    | .error e =>
      if !e.isTransient || policy.totalDeadline ≤ elapsed attempt + delay then
        ⟨(op attempt s).1, .error e, attempt⟩
      else
        retryLoop policy op elapsed left (attempt + 1)
          (min (delay * policy.delayFactor) policy.maxDelay) (op attempt s).1

/-- `retry_transient`: attempts are numbered from `1`, and at least one is made. -/
def retryTransient (policy : RetryPolicy) (op : ℕ → σ → σ × Except Error α)
    (elapsed : ℕ → ℕ) (s : σ) : Outcome σ α :=
  retryLoop policy op elapsed (policy.maxAttempts - 1) 1 policy.baseDelay s

/-- The retry rule for a running loop, after `n` failed attempts. -/
theorem retryLoop_rule {policy : RetryPolicy} {op : ℕ → σ → σ × Except Error α}
    {elapsed : ℕ → ℕ} {P : ℕ → σ → Prop}
    (hstep : ∀ i s e, P i s → (op (i + 1) s).2 = .error e → P (i + 1) (op (i + 1) s).1)
    (left n delay : ℕ) (s : σ) (hs : P n s) :
    ∃ k t, k ≤ n + left ∧ P k t ∧
      retryLoop policy op elapsed left (n + 1) delay s =
        ⟨(op (k + 1) t).1, (op (k + 1) t).2, k + 1⟩ := by
  induction left generalizing n delay s with
  | zero => exact ⟨n, s, le_rfl, hs, rfl⟩
  | succ left ih =>
    have hstop : ∀ r, (op (n + 1) s).2 = r → ∃ k t, k ≤ n + (left + 1) ∧ P k t ∧
        (⟨(op (n + 1) s).1, r, n + 1⟩ : Outcome σ α) =
          ⟨(op (k + 1) t).1, (op (k + 1) t).2, k + 1⟩ := fun r hr =>
      ⟨n, s, by omega, hs, by rw [hr]⟩
    cases hresult : (op (n + 1) s).2 with
    | ok v => simpa only [retryLoop, hresult] using hstop _ hresult
    | error e =>
      simp only [retryLoop, hresult]
      split
      · exact hstop _ hresult
      · obtain ⟨k, t, hk, ht, heq⟩ := ih (n + 1) _ _ (hstep n s e hs hresult)
        exact ⟨k, t, by omega, ht, heq⟩

/-- The retry rule: what holds at the start and is kept by every attempt that fails
also holds before the attempt whose outcome is returned, and that attempt is within
the retry limit. `P k` speaks about the state after `k` failed attempts. -/
theorem retryTransient_rule (policy : RetryPolicy) (op : ℕ → σ → σ × Except Error α)
    (elapsed : ℕ → ℕ) {P : ℕ → σ → Prop} {s : σ} (hs : P 0 s)
    (hstep : ∀ i s e, P i s → (op (i + 1) s).2 = .error e → P (i + 1) (op (i + 1) s).1) :
    ∃ k t, k < max 1 policy.maxAttempts ∧ P k t ∧
      retryTransient policy op elapsed s = ⟨(op (k + 1) t).1, (op (k + 1) t).2, k + 1⟩ := by
  obtain ⟨k, t, hk, ht, heq⟩ :=
    retryLoop_rule hstep (policy.maxAttempts - 1) 0 policy.baseDelay s hs
  exact ⟨k, t, by omega, ht, heq⟩

end ModalRust.Sdk
