import ModalRust.Duration
import ModalRust.Sdk.Client

/-!
# The blocking get of a queue

`queue_get_blocking` polls a queue until a deadline. The server may answer every poll in any way
and after any time. The promises of the loop are a predicate on runs, and they hold for every
timeout whose end is an instant of the clock.
-/

namespace ModalRust.Sdk.Queue

/-- `QueueGetRequest`. -/
structure QueueGetRequest where
  /-- The queue. -/
  queueId : Text
  /-- The server-side blocking window in seconds, in single precision. -/
  timeout : ℚ
  /-- How many items are asked for. -/
  nValues : ℕ
  /-- The partition. -/
  partitionKey : Bytes

/-- `QUEUE_GET_PER_RPC_TIMEOUT_SECS`. -/
def queueGetPerRpcTimeoutSecs : ℚ := 50

/-- The cap on the window of one RPC. -/
def cap : Duration := .fromSecs 50

/-- The cap is the documented number of seconds. -/
example : Duration.ofSecs? queueGetPerRpcTimeoutSecs = some cap := by decide +kernel

/-- `build_queue_get_request`. -/
def buildQueueGetRequest (queueId : Text) (nValues : ℕ) (timeoutSecs : ℚ) (partitionKey : Bytes) :
    QueueGetRequest where
  queueId := queueId
  timeout := timeoutSecs
  nValues := Sdk.buildQueueGetRequest nValues
  partitionKey := partitionKey

/-- One `QueueGet` as the client sees it. -/
structure Poll where
  /-- The time until the client reads the clock for the window of the RPC. -/
  idle : ℕ
  /-- The outcome of the RPC. -/
  reply : Except Error (List Bytes)
  /-- The time until the client has the outcome and reads the clock again. -/
  took : ℕ

/-- An RPC that is issued. -/
structure Issue where
  /-- The instant at which the window is computed. -/
  asked : ℕ
  /-- The request. -/
  request : QueueGetRequest

/-- How a run ends. -/
inductive Ending
  /-- The call returns. -/
  | returned (result : Except Error (List Bytes))
  /-- The deadline is no instant. -/
  | panicked
  /-- The call goes on after the last poll. -/
  | polling

/-- What a call does. -/
structure Run where
  /-- The RPCs, in the order in which they are issued. -/
  issues : List Issue
  /-- The clock when the run ends. -/
  now : ℕ
  /-- How the run ends. -/
  ending : Ending

/-- A run after one more RPC. -/
def Run.after (issue : Issue) (run : Run) : Run := { run with issues := issue :: run.issues }

/-- The window of an RPC that is issued at an instant. -/
def perRpc (deadline : Option ℕ) (now : ℕ) : Duration :=
  match deadline with
  | none => cap
  | some dl => (Duration.since dl now).min cap

/-- Whether the deadline has passed. -/
def timedOut (deadline : Option ℕ) (now : ℕ) : Prop := ∃ dl ∈ deadline, dl ≤ now

instance (deadline : Option ℕ) (now : ℕ) : Decidable (timedOut deadline now) :=
  match deadline with
  | none => .isFalse fun ⟨_, h, _⟩ => nomatch h
  | some dl => decidable_of_iff (dl ≤ now) (by simp [timedOut])

/-- The polling loop from an instant on. -/
def pollLoop (queueId : Text) (nValues : ℕ) (deadline : Option ℕ) : ℕ → List Poll → Run
  | now, [] => ⟨[], now, .polling⟩
  | now, poll :: polls =>
    let asked := now + poll.idle
    let answered := asked + poll.took
    let issue : Issue :=
      ⟨asked, buildQueueGetRequest queueId nValues ((perRpc deadline asked).asSecs .single) []⟩
    match poll.reply with
    | .error e => ⟨[issue], answered, .returned (.error e)⟩
    | .ok values =>
      if values ≠ [] then ⟨[issue], answered, .returned (.ok values)⟩
      else if timedOut deadline answered then ⟨[issue], answered, .returned (.ok [])⟩
      else (pollLoop queueId nValues deadline answered polls).after issue

/-- `queue_get_blocking`, where the instants of the clock are below `limit`. -/
def queueGetBlocking (limit : ℕ) (queueId : Text) (nValues : ℕ) (timeout : Option Duration)
    (start : ℕ) (polls : List Poll) : Run :=
  match timeout with
  | none => pollLoop queueId nValues none start polls
  | some d =>
    if start + d.nanos < limit then
      pollLoop queueId nValues (some (start + d.nanos)) start polls
    else ⟨[], start, .panicked⟩

/-! ### What the call promises -/

/-- An RPC of a call that starts at an instant is as promised. -/
structure Asks (queueId : Text) (timeout : Option Duration) (start : ℕ) (issue : Issue) : Prop where
  /-- The RPC asks the queue of the call. -/
  queue : issue.request.queueId = queueId
  /-- The RPC asks for at least one value. -/
  values : 1 ≤ issue.request.nValues
  /-- The RPC is issued after the call began. -/
  later : start ≤ issue.asked
  /-- The window is within the cap and the remaining time, before it is rounded. -/
  window : ∃ w : Duration, issue.request.timeout = w.asSecs .single ∧
    w.nanos ≤ 50 * nanosPerSec ∧
      ∀ d, timeout = some d → w.nanos ≤ start + d.nanos - issue.asked

/-- A run that starts at an instant is as promised. -/
structure Meets (queueId : Text) (timeout : Option Duration) (start : ℕ) (polls : List Poll)
    (run : Run) : Prop where
  /-- The call does not panic. -/
  calm : run.ending ≠ .panicked
  /-- A call that goes on has found nothing. -/
  goesOn : run.ending = .polling →
    run.issues.length = polls.length ∧ ∀ poll ∈ polls, poll.reply = .ok []
  /-- A call that returns has found nothing before its last poll, and returns the outcome of that
  one unchanged. -/
  returns : ∀ result, run.ending = .returned result → ∃ before poll after,
    polls = before ++ poll :: after ∧ (∀ p ∈ before, p.reply = .ok []) ∧ poll.reply = result ∧
      run.issues.length = before.length + 1
  /-- An empty batch is returned only when the timeout has passed since the call began. -/
  empty : run.ending = .returned (.ok []) → ∃ d, timeout = some d ∧ start + d.nanos ≤ run.now
  /-- A call with a timeout of zero issues one RPC. -/
  once : ∀ d, timeout = some d → d.nanos = 0 → polls ≠ [] → run.issues.length = 1
  /-- Every RPC is as promised. -/
  asks : ∀ issue ∈ run.issues, Asks queueId timeout start issue

/-! ### The loop step by step -/

variable {queueId : Text} {start now : ℕ} {timeout : Option Duration}

/-- The window of an RPC in nanoseconds, when there is a deadline. -/
theorem nanos_perRpc (dl now : ℕ) :
    (perRpc (some dl) now).nanos = min (dl - now) (50 * nanosPerSec) := by
  have hcap : cap.nanos = 50 * nanosPerSec := rfl
  unfold perRpc
  rw [Duration.nanos_min, hcap]
  unfold Duration.since nanosPerSec
  dsimp only
  omega

/-- The deadline of a call has passed when its timeout has. -/
theorem timedOut_iff :
    timedOut (timeout.map fun d => start + d.nanos) now ↔
      ∃ d, timeout = some d ∧ start + d.nanos ≤ now := by
  unfold timedOut
  constructor
  · rintro ⟨dl, hdl, hle⟩
    obtain ⟨d, hd, rfl⟩ := Option.map_eq_some_iff.mp hdl
    exact ⟨d, hd, hle⟩
  · rintro ⟨d, rfl, hle⟩
    exact ⟨_, rfl, hle⟩

/-- Every RPC of the loop is as promised. -/
theorem asks_issue (queueId : Text) (nValues : ℕ) (timeout : Option Duration) (hnow : start ≤ now) :
    Asks queueId timeout start ⟨now, buildQueueGetRequest queueId nValues
      ((perRpc (timeout.map fun d => start + d.nanos) now).asSecs .single) []⟩ where
  queue := rfl
  values := by
    unfold buildQueueGetRequest Sdk.buildQueueGetRequest
    dsimp only
    omega
  later := hnow
  window := by
    refine ⟨_, rfl, ?_, ?_⟩
    · cases timeout with
      | none => exact le_rfl
      | some d =>
        rw [Option.map_some, nanos_perRpc]
        exact min_le_right _ _
    · rintro d rfl
      rw [Option.map_some, nanos_perRpc]
      exact min_le_left _ _

/-- A run that ends with its first RPC is as promised if it returns the outcome, and an empty one
only after the timeout. -/
theorem meets_last {poll : Poll} {polls : List Poll} {issue : Issue}
    {result : Except Error (List Bytes)} (hreply : poll.reply = result)
    (hempty : result = .ok [] → ∃ d, timeout = some d ∧ start + d.nanos ≤ now)
    (hissue : Asks queueId timeout start issue) :
    Meets queueId timeout start (poll :: polls) ⟨[issue], now, .returned result⟩ where
  calm := nofun
  goesOn := nofun
  returns := by
    intro _ heq
    cases heq
    exact ⟨[], poll, polls, rfl, nofun, hreply, rfl⟩
  empty := by
    intro heq
    exact hempty (Ending.returned.inj heq)
  once := fun _ _ _ _ => rfl
  asks := by
    intro other hother
    rw [List.mem_singleton.mp hother]
    exact hissue

/-- A run after one more RPC that finds nothing is as promised if the timeout has not passed. -/
theorem meets_after {poll : Poll} {polls : List Poll} {issue : Issue} {run : Run}
    (hmeets : Meets queueId timeout start polls run) (hreply : poll.reply = .ok [])
    (htime : ¬ ∃ d, timeout = some d ∧ start + d.nanos ≤ now) (hnow : start ≤ now)
    (hissue : Asks queueId timeout start issue) :
    Meets queueId timeout start (poll :: polls) (run.after issue) where
  calm := hmeets.calm
  goesOn := by
    intro hgoes
    obtain ⟨hlength, hnothing⟩ := hmeets.goesOn hgoes
    refine ⟨congrArg (· + 1) hlength, ?_⟩
    intro other hother
    rcases List.mem_cons.mp hother with rfl | hother
    · exact hreply
    · exact hnothing other hother
  returns := by
    intro result hresult
    obtain ⟨before, last, after, hpolls, hbefore, hlast, hlength⟩ := hmeets.returns result hresult
    refine ⟨poll :: before, last, after, by rw [hpolls]; rfl, ?_, hlast, congrArg (· + 1) hlength⟩
    intro other hother
    rcases List.mem_cons.mp hother with rfl | hother
    · exact hreply
    · exact hbefore other hother
  empty := hmeets.empty
  once := by
    intro d hd hzero _
    exact absurd ⟨d, hd, by omega⟩ htime
  asks := by
    intro other hother
    rcases List.mem_cons.mp hother with rfl | hother
    · exact hissue
    · exact hmeets.asks other hother

/-- **The polling loop** is as promised from every instant on. -/
theorem meets_pollLoop (queueId : Text) (nValues : ℕ) (timeout : Option Duration)
    (polls : List Poll) (hnow : start ≤ now) :
    Meets queueId timeout start polls
      (pollLoop queueId nValues (timeout.map fun d => start + d.nanos) now polls) := by
  induction polls generalizing now with
  | nil =>
    exact ⟨nofun, fun _ => ⟨rfl, nofun⟩, nofun, nofun, fun _ _ _ h => absurd rfl h, nofun⟩
  | cons poll polls ih =>
    have hissue := asks_issue queueId nValues timeout
      (hnow.trans (Nat.le_add_right now poll.idle))
    unfold pollLoop
    dsimp only
    cases hreply : poll.reply with
    | error e => exact meets_last hreply nofun hissue
    | ok values =>
      dsimp only
      by_cases hvalues : values ≠ []
      · rw [if_pos hvalues]
        exact meets_last hreply (fun h => absurd (Except.ok.inj h) hvalues) hissue
      · rw [if_neg hvalues]
        rw [not_not.mp hvalues] at hreply
        by_cases htime : timedOut (timeout.map fun d => start + d.nanos)
            (now + poll.idle + poll.took)
        · rw [if_pos htime]
          exact meets_last hreply (fun _ => timedOut_iff.mp htime) hissue
        · rw [if_neg htime]
          rw [timedOut_iff] at htime
          exact meets_after (ih (by omega)) hreply htime (by omega) hissue

/-- **The blocking get keeps its promises exactly if its deadline is an instant of the clock**: it
returns the first batch or error, an empty batch only after the timeout, and every RPC has a
window within the cap and the remaining time. -/
theorem meets_queueGetBlocking_iff (limit : ℕ) (queueId : Text) (nValues : ℕ)
    (timeout : Option Duration) (start : ℕ) (polls : List Poll) :
    Meets queueId timeout start polls
        (queueGetBlocking limit queueId nValues timeout start polls) ↔
      ∀ d, timeout = some d → start + d.nanos < limit := by
  unfold queueGetBlocking
  cases timeout with
  | none =>
    have hloop := meets_pollLoop queueId nValues none polls (le_refl start)
    exact ⟨fun _ => nofun, fun _ => hloop⟩
  | some d =>
    have hloop := meets_pollLoop queueId nValues (some d) polls (le_refl start)
    dsimp only
    by_cases hlimit : start + d.nanos < limit
    · rw [if_pos hlimit]
      refine ⟨fun _ => ?_, fun _ => hloop⟩
      rintro _ ⟨⟩
      exact hlimit
    · rw [if_neg hlimit]
      exact ⟨fun hmeets => absurd rfl hmeets.calm, fun h => absurd (h d rfl) hlimit⟩

/-- With instants of 64-bit seconds, the largest timeout panics. -/
theorem largest_timeout_panics :
    ¬ Meets [] (some ⟨2 ^ 64 * nanosPerSec - 1, by decide⟩) 0 [⟨0, .ok [[1]], 0⟩]
      (queueGetBlocking (2 ^ 63 * nanosPerSec) [] 1
        (some ⟨2 ^ 64 * nanosPerSec - 1, by decide⟩) 0 [⟨0, .ok [[1]], 0⟩]) := by
  intro hmeets
  exact hmeets.calm rfl

end ModalRust.Sdk.Queue
