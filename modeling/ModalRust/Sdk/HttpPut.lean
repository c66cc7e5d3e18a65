import ModalRust.Sdk.RetryTransient

/-!
# Uploads to a presigned URL

`put_blob_bytes` and `put_block_bytes` repeat an HTTP put with a loop of their own, which decides by
the status of the response or the kind of the failure whether to repeat. Both loops make the same
turns as `retry_transient` on outcomes that are relabelled, and so keep its promises.
-/

namespace ModalRust.Sdk.HttpPut

open Timed (Ending Run Sleep Turn jitter)

/-- How an HTTP put turns out. -/
inductive HttpOutcome
  /-- A response, with what reading its body yields. -/
  | response (status : ℕ) (body : Except Text Bytes)
  /-- A failure, with `is_timeout`, `is_connect` and its message. -/
  | failure (isTimeout isConnect : Bool) (message : Text)

/-- How a put turns out, and what the loop reads from its surroundings then. -/
structure Reply where
  /-- The outcome. -/
  outcome : HttpOutcome
  /-- `start.elapsed()` after the attempt. -/
  elapsed : Duration
  /-- The random number that the jitter draws after the attempt. -/
  draw : UInt64

/-- The outcomes of the attempts, which are numbered from `1`. An attempt without an outcome never
ends. -/
abbrev History := ℕ → Option Reply

/-- `is_success`. -/
def isSuccess (status : ℕ) : Bool := 200 ≤ status && status < 300

/-- `is_server_error`. -/
def isServerError (status : ℕ) : Bool := 500 ≤ status && status < 600

/-- `TOO_MANY_REQUESTS`. -/
def tooManyRequests : ℕ := 429

/-- What differs between the two loops: the name in the messages, and what is made of the response
body of a success. -/
structure Put (α : Type) where
  /-- The name. -/
  what : Text
  /-- The result of a success. -/
  onSuccess : Except Text Bytes → Except Error α

/-- What an outcome means for the loop. -/
inductive Verdict (α : Type)
  /-- The loop returns. -/
  | done (result : Except Error α)
  /-- The put has failed, for a transient reason or not. -/
  | failed (error : Error) (transient : Bool)

variable {α : Type} (statusText : ℕ → Text) (put : Put α)

/-- The match on the outcome; statuses are displayed by `statusText`. -/
def Put.judge : HttpOutcome → Verdict α
  | .response status body =>
    if isSuccess status then .done (put.onSuccess body)
    else .failed (.build (put.what ++ " returned non-success status ".toList ++ statusText status))
      (isServerError status || status = tooManyRequests)
  | .failure isTimeout isConnect message =>
    .failed (.build (put.what ++ " failed: ".toList ++ message)) (isTimeout || isConnect)

/-- The body of the loop. -/
def turn (policy : Timed.RetryPolicy) (reply : Option Reply) (attempt : ℕ) (delay : Duration) :
    Turn α :=
  match reply with
  | none => .stop [] .waiting
  | some reply =>
    match put.judge statusText reply.outcome with
    | .done result => .stop [] (.returned result)
    | .failed err transient =>
      match reply.elapsed.add? delay with
      | none => .stop [] .panicked
      | some wakeUp =>
        if ¬ transient ∨ policy.maxAttempts ≤ attempt ∨
            policy.totalDeadline.nanos ≤ wakeUp.nanos then
          .stop [] (.returned (.error err))
        else
          match jitter delay reply.draw with
          | none => .stop [] .panicked
          | some slept =>
            match delay.mulF64? policy.delayFactor with
            | none => .stop [⟨delay, slept, reply.elapsed⟩] .panicked
            | some longer => .again ⟨delay, slept, reply.elapsed⟩ (longer.min policy.maxDelay)

/-! ### The same loop -/

/-- An outcome as `retry_transient` would be told of it. -/
def Verdict.relabelled : Verdict α → Except Error (Except Error α)
  | .done result => .ok result
  | .failed err transient => .error (if transient then connectionReset else err)

/-- The result of the loop if this is its last outcome. -/
def Verdict.result : Verdict α → Except Error α
  | .done result => result
  | .failed err _ => .error err

/-- A reply as `retry_transient` would be given it. -/
def Reply.relabelled (reply : Reply) : Timed.Answer (Except Error α) :=
  ⟨(put.judge statusText reply.outcome).relabelled, reply.elapsed, reply.draw⟩

/-- A reply with the result that it stands for. -/
def ending (reply : Option Reply) : Ending (Except Error α) → Ending α
  | .returned _ =>
    ((reply.map fun reply => (put.judge statusText reply.outcome).result).map
      Ending.returned).getD .waiting
  | .panicked => .panicked
  | .waiting => .waiting

/-- A turn with the result that the reply stands for. -/
def relabelTurn (reply : Option Reply) : Turn (Except Error α) → Turn α
  | .stop sleeps e => .stop sleeps (ending statusText put reply e)
  | .again sleep delay => .again sleep delay

variable {put}

/-- Whether an attempt with this outcome may be followed by another one. -/
def HttpOutcome.isTransient : HttpOutcome → Bool
  | .response status _ =>
    !isSuccess status && (isServerError status || status = tooManyRequests)
  | .failure isTimeout isConnect _ => isTimeout || isConnect

/-- An outcome ends the loop, or it is a failure for a reason that is transient or not. -/
theorem judge_cases (put : Put α) (outcome : HttpOutcome) :
    (∃ result, put.judge statusText outcome = .done result ∧ outcome.isTransient = false) ∨
      ∃ msg, put.judge statusText outcome = .failed (.build msg) outcome.isTransient := by
  cases outcome with
  | failure isTimeout isConnect message => exact .inr ⟨_, rfl⟩
  | response status body =>
    unfold Put.judge HttpOutcome.isTransient
    dsimp only
    cases isSuccess status with
    | true => exact .inl ⟨_, rfl, rfl⟩
    | false =>
      rw [if_neg Bool.false_ne_true, Bool.not_false, Bool.true_and]
      exact .inr ⟨_, rfl⟩

/-- Each turn of the loop is one of `retry_transient`. -/
theorem turn_eq (policy : Timed.RetryPolicy) (reply : Option Reply) (attempt : ℕ)
    (delay : Duration) :
    turn statusText put policy reply attempt delay =
      relabelTurn statusText put reply
        (Timed.turn policy (reply.map (Reply.relabelled statusText put)) attempt delay) := by
  cases reply with
  | none => rfl
  | some reply =>
    rw [Option.map_some]
    unfold turn Timed.turn Reply.relabelled
    dsimp only
    cases hjudge : put.judge statusText reply.outcome with
    | done result =>
      unfold relabelTurn ending
      simp only [Verdict.relabelled, Option.map_some, hjudge, Option.getD_some, Verdict.result]
    | failed err transient =>
      have hreturned (e : Except Error (Except Error α)) :
          ending statusText put (some reply) (.returned e) = .returned (.error err) := by
        simp only [ending, Option.map_some, hjudge, Option.getD_some, Verdict.result]
      have htransient :
          (if transient then connectionReset else err).isTransient = transient := by
        cases transient with
        | true => rfl
        | false =>
          obtain ⟨result, hdone, -⟩ | ⟨msg, hbuild⟩ := judge_cases statusText put reply.outcome
          · rw [hdone] at hjudge
            cases hjudge
          · rw [hbuild] at hjudge
            rw [← (Verdict.failed.inj hjudge).1]
            rfl
      simp only [Verdict.relabelled, htransient]
      cases reply.elapsed.add? delay with
      | none => rfl
      | some wakeUp =>
        dsimp only
        split
        · exact congrArg (Turn.stop []) (hreturned _).symm
        · cases jitter delay reply.draw with
          | none => rfl
          | some slept =>
            dsimp only
            cases delay.mulF64? policy.delayFactor <;> rfl

variable (put)

/-- The loop from an attempt on. -/
def putLoop (policy : Timed.RetryPolicy) (history : History) (attempt : ℕ) (delay : Duration) :
    Run α :=
  match hturn : turn statusText put policy (history attempt) attempt delay with
  | .stop sleeps e => ⟨attempt, sleeps, e⟩
  | .again sleep next => (putLoop policy history (attempt + 1) next).after sleep
termination_by policy.maxAttempts - attempt
decreasing_by
  rw [turn_eq] at hturn
  cases hstep : Timed.turn policy ((history attempt).map (Reply.relabelled statusText put)) attempt
      delay with
  | stop sleeps e =>
    rw [hstep] at hturn
    cases hturn
  | again sleep next =>
    obtain ⟨-, -, -, -, -, -, -, hlt, -⟩ := Timed.turn_eq_again hstep
    omega

/-- The put with the default policy. -/
def putBytes (history : History) : Run α :=
  putLoop statusText put .default history 1 Timed.RetryPolicy.default.baseDelay

/-- `put_blob_bytes`: the body of the response is not read. -/
def putBlobBytes (history : History) : Run Unit :=
  putBytes statusText ⟨"blob upload PUT".toList, fun _ => .ok ()⟩ history

/-- `put_block_bytes`: the body of the response is returned, and a failure to read it is final. -/
def putBlockBytes (history : History) : Run Bytes :=
  putBytes statusText ⟨"block upload PUT".toList, fun body =>
    body.mapError fun e => .build ("block PUT response read failed: ".toList ++ e)⟩ history

variable {put}

/-- **The loop is that of `retry_transient`**: it makes the same attempts and sleeps, and returns
what its last reply stands for. -/
theorem putLoop_eq (policy : Timed.RetryPolicy) (history : History) (attempt : ℕ)
    (delay : Duration) :
    let run := Timed.retryLoop policy (fun k => (history k).map (Reply.relabelled statusText put))
      attempt delay
    putLoop statusText put policy history attempt delay =
      ⟨run.attempts, run.sleeps, ending statusText put (history run.attempts) run.ending⟩ := by
  dsimp only
  induction hleft : policy.maxAttempts - attempt using Nat.strong_induction_on
    generalizing attempt delay with
  | _ left ih =>
    rw [Timed.retryLoop_eq, putLoop]
    split
    · next sleeps e hturn =>
      rw [turn_eq] at hturn
      cases hstep : Timed.turn policy ((history attempt).map (Reply.relabelled statusText put))
          attempt delay with
      | stop sleeps' e' =>
        rw [hstep] at hturn
        cases hturn
        rfl
      | again sleep next =>
        rw [hstep] at hturn
        cases hturn
    · next sleep next hturn =>
      rw [turn_eq] at hturn
      cases hstep : Timed.turn policy ((history attempt).map (Reply.relabelled statusText put))
          attempt delay with
      | stop sleeps' e' =>
        rw [hstep] at hturn
        cases hturn
      | again sleep' next' =>
        rw [hstep] at hturn
        cases hturn
        obtain ⟨-, -, -, -, -, -, -, hlt, -⟩ := Timed.turn_eq_again hstep
        rw [ih _ (by omega) (attempt + 1) next rfl]
        rfl

/-! ### What a put promises -/

/-- What a put promises: between one and eight attempts, of which all but the last have failed for a
transient reason, and the result of the last one; a transient failure is returned only when the
attempts or the two minutes are exhausted; and between two attempts a sleep of at most a tenth of a
second, doubled with each attempt up to five seconds, that ends within the two minutes. -/
structure Promises (put : Put α) (history : History) (run : Run α) : Prop where
  /-- How many attempts there are. -/
  attempts : 1 ≤ run.attempts ∧ run.attempts ≤ 8
  /-- The attempts before the last one. -/
  earlier : ∀ k, 1 ≤ k → k < run.attempts →
    ∃ reply, history k = some reply ∧ reply.outcome.isTransient = true
  /-- The last attempt. -/
  last : run.ending = match history run.attempts with
    | none => .waiting
    | some reply => .returned (put.judge statusText reply.outcome).result
  /-- Transient failures are not returned too early. -/
  exhausted : ∀ reply, history run.attempts = some reply → reply.outcome.isTransient = true →
    run.attempts = 8 ∨ 120000000000 ≤
      reply.elapsed.nanos + min (100000000 * 2 ^ (run.attempts - 1)) 5000000000
  /-- How many sleeps there are. -/
  slept : run.sleeps.length + 1 = run.attempts
  /-- The sleeps. -/
  within : ∀ k sleep, run.sleeps[k]? = some sleep →
    sleep.slept.nanos ≤ min (100000000 * 2 ^ k) 5000000000 ∧
      sleep.elapsed.nanos + sleep.slept.nanos < 120000000000

/-- `retry_transient` repeats a relabelled attempt exactly if its outcome is transient. -/
theorem exists_relabelled_error_iff {reply : Reply} :
    (∃ e, (reply.relabelled statusText put).result = .error e ∧ e.isTransient = true) ↔
      reply.outcome.isTransient = true := by
  unfold Reply.relabelled
  dsimp only
  rcases judge_cases statusText put reply.outcome with ⟨result, hjudge, hfalse⟩ | ⟨msg, hjudge⟩
  · rw [hjudge, hfalse]
    refine ⟨?_, nofun⟩
    rintro ⟨e, he, -⟩
    cases he
  · rw [hjudge]
    cases reply.outcome.isTransient with
    | true => exact ⟨fun _ => rfl, fun _ => ⟨_, rfl, rfl⟩⟩
    | false =>
      refine ⟨?_, nofun⟩
      rintro ⟨e, he, htransient⟩
      cases he
      cases htransient

/-- **A put repeats transient failures only, within the bounds of the policy**, in every history
that ends before the clock does. -/
theorem put_keeps_promises (put : Put α) {history : History}
    (hclock : ∀ k reply, history k = some reply →
      reply.elapsed.nanos + 5000000000 < 2 ^ 64 * nanosPerSec) :
    Promises statusText put history (putBytes statusText put history) := by
  let answers := fun k => (history k).map (Reply.relabelled statusText put)
  let run := Timed.retryLoop .default answers 1 Timed.RetryPolicy.default.baseDelay
  have hfits : Timed.Fits .default answers := Timed.fits_default fun k answer hanswer => by
    obtain ⟨reply, hreply, rfl⟩ := Option.map_eq_some_iff.mp hanswer
    exact hclock k reply hreply
  have hmeets : Timed.Meets .default answers 0 run :=
    (Timed.meets_retryLoop_iff answers (i := 0) rfl).mpr fun k _ hall =>
      hfits k fun j hj => hall j (Nat.zero_le _) hj
  have hput : putBytes statusText put history =
      ⟨run.attempts, run.sleeps, ending statusText put (history run.attempts) run.ending⟩ :=
    putLoop_eq statusText .default history 1 _
  rw [hput]
  have hattempts : 1 ≤ run.attempts ∧ run.attempts ≤ 8 := ⟨hmeets.invoked, hmeets.limited⟩
  have hslept : run.sleeps.length + 1 = run.attempts := by
    have hslept := hmeets.slept
    omega
  refine ⟨hattempts, fun k hk hlt => ?_, ?_, fun reply hreply htransient => ?_, hslept,
    fun k sleep hsleep => ?_⟩
  · dsimp only at hlt
    obtain ⟨answer, e, hanswer, hresult, htransient⟩ := hmeets.earlier (k - 1) (Nat.zero_le _)
      (by omega)
    rw [Nat.sub_add_cancel hk] at hanswer
    obtain ⟨reply, hreply, rfl⟩ := Option.map_eq_some_iff.mp hanswer
    exact ⟨reply, hreply, (exists_relabelled_error_iff statusText).mp ⟨e, hresult, htransient⟩⟩
  · have hlast := hmeets.last
    dsimp only
    cases hreply : history run.attempts with
    | none =>
      have hanswer : answers run.attempts = none := by
        change (history run.attempts).map _ = none
        rw [hreply]
        rfl
      rw [hanswer] at hlast
      rw [hlast]
      rfl
    | some reply =>
      have hanswer : answers run.attempts = some (reply.relabelled statusText put) := by
        change (history run.attempts).map _ = _
        rw [hreply]
        rfl
      rw [hanswer] at hlast
      rw [hlast]
      rfl
  · by_contra hmore
    obtain ⟨hnot, htime⟩ := not_or.mp hmore
    dsimp only at hreply hnot htime
    have hsucc : run.attempts = run.attempts - 1 + 1 := by omega
    obtain ⟨delay, hdelay, hnanos⟩ := Timed.exists_planned_default
      (show run.attempts - 1 < 8 by omega)
    obtain ⟨e, hresult, he⟩ : ∃ e, (reply.relabelled statusText put).result = .error e ∧
        e.isTransient = true := (exists_relabelled_error_iff statusText).mpr htransient
    refine hmeets.exhausted _ hsucc
      ⟨reply.relabelled statusText put, e, delay, ?_, hresult, he, ?_, hdelay, ?_⟩
    · change (history _).map _ = _
      rw [← hsucc, hreply]
      rfl
    · change run.attempts - 1 + 1 < 8
      omega
    · change reply.elapsed.nanos + delay.nanos < 120000000000
      omega
  · dsimp only at hsleep
    have hwithin := hmeets.within k sleep hsleep
    rw [Nat.zero_add] at hwithin
    have hk : k < run.sleeps.length := (List.getElem?_eq_some_iff.mp hsleep).1
    obtain ⟨delay, hdelay, hnanos⟩ := Timed.exists_planned_default (show k < 8 by omega)
    have hplanned := hwithin.planned
    rw [hdelay] at hplanned
    cases hplanned
    have hjittered := hwithin.jittered
    exact ⟨by omega, hwithin.inTime⟩

/-- A server that is busy at first. -/
def busyOnce : History := fun attempt =>
  some ⟨.response (if attempt = 1 then 503 else 200) (.ok [1]), .fromSecs 1, 7⟩

/-- A block is put at the second attempt. -/
theorem put_keeps_promises_busy :
    Promises (fun _ => []) (⟨[], fun body => body.mapError .build⟩ : Put Bytes) busyOnce
        (putBytes (fun _ => []) ⟨[], fun body => body.mapError .build⟩ busyOnce) := by
  refine put_keeps_promises (fun _ => []) _ fun k reply hreply => ?_
  cases hreply
  exact (by decide : (Duration.fromSecs 1).nanos + 5000000000 < 2 ^ 64 * nanosPerSec)

end ModalRust.Sdk.HttpPut
