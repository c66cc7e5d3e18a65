import ModalRust.Sdk.Retry
import ModalRust.Sdk.Server

/-!
# RPCs over an unreliable transport

Every unary RPC goes through `retry_rpc`. Of each attempt the network decides whether
the request reaches the server and whether the response comes back; the server
decides how many of the inputs it accepts and how it names a new function call. The
lemmas say what a retried RPC has done to the server, in terms of its attempts whose
request was applied and whose response was lost.
-/

namespace ModalRust.Sdk

/-- What happens to one attempt of an RPC. -/
inductive Fate
  /-- The request is applied and the response arrives. -/
  | delivered
  /-- The request is applied, but the client only sees an error. -/
  | lost (error : Error)
  /-- The request is not applied, and the client sees an error. -/
  | dropped (error : Error)

/-- One attempt: its fate, its duration, and the server's choices in it. -/
structure Attempt where
  /-- What happens to the request and the response. -/
  fate : Fate
  /-- The time from the start of the retry loop to the end of the attempt. -/
  elapsed : ℕ
  /-- The inputs that the server accepts. -/
  accepts : FunctionPutInputsItem → Bool
  /-- The id that the server gives to a function call opened by the attempt. -/
  functionCallId : Text

/-- Whether the request was applied and its response lost. -/
def Attempt.isLost (a : Attempt) : Bool :=
  match a.fate with
  | .lost _ => true
  | _ => false

/-- Among attempts `1` to `n`, those whose request was applied and response lost. -/
def lostAttempts (net : ℕ → Attempt) : ℕ → List Attempt
  | 0 => []
  | n + 1 => lostAttempts net n ++ if (net (n + 1)).isLost then [net (n + 1)] else []

variable {α : Type}

/-- Send one request that the server handles by `serve`. -/
def attemptRpc (serve : Attempt → Server → Server × Except Error α) (a : Attempt)
    (s : Server) : Server × Except Error α :=
  match a.fate with
  | .delivered => serve a s
  | .lost e => ((serve a s).1, .error e)
  | .dropped e => (s, .error e)

/-- `retry_rpc`: the identical request in every attempt, under the default policy. -/
def retryRpc (net : ℕ → Attempt) (serve : Attempt → Server → Server × Except Error α)
    (s : Server) : Outcome Server α :=
  retryTransient .default (fun i => attemptRpc serve (net i)) (fun i => (net i).elapsed) s

/-- The lost attempts among those that the RPC made. -/
def Outcome.lost (o : Outcome Server α) (net : ℕ → Attempt) : List Attempt :=
  lostAttempts net o.attempts

/-- A lost attempt is among the lost attempts. -/
theorem lostAttempts_succ_of_lost {net : ℕ → Attempt} {n : ℕ} {e : Error}
    (h : (net (n + 1)).fate = .lost e) :
    lostAttempts net (n + 1) = lostAttempts net n ++ [net (n + 1)] := by
  simp [lostAttempts, Attempt.isLost, h]

/-- An attempt with another fate is not among them. -/
theorem lostAttempts_succ_of_not_lost {net : ℕ → Attempt} {n : ℕ}
    (h : (net (n + 1)).isLost = false) : lostAttempts net (n + 1) = lostAttempts net n := by
  simp [lostAttempts, h]

/-- An attempt that was not lost has been applied and answered, or it has failed and
changed nothing. -/
theorem attemptRpc_of_not_lost (serve : Attempt → Server → Server × Except Error α)
    {a : Attempt} (s : Server) (h : a.isLost = false) :
    attemptRpc serve a s = serve a s ∨ ∃ e, attemptRpc serve a s = (s, .error e) := by
  unfold attemptRpc
  unfold Attempt.isLost at h
  cases hfate : a.fate with
  | delivered => exact .inl rfl
  | lost e => simp [hfate] at h
  | dropped e => exact .inr ⟨e, rfl⟩

/-- The retry rule for RPCs: `P k` speaks about the server after `k` failed attempts. -/
theorem retryRpc_rule {net : ℕ → Attempt} {serve : Attempt → Server → Server × Except Error α}
    {P : ℕ → Server → Prop} {s : Server} (hs : P 0 s)
    (hstep : ∀ i t e, P i t → (attemptRpc serve (net (i + 1)) t).2 = .error e →
      P (i + 1) (attemptRpc serve (net (i + 1)) t).1) :
    ∃ k t, P k t ∧ retryRpc net serve s =
      ⟨(attemptRpc serve (net (k + 1)) t).1, (attemptRpc serve (net (k + 1)) t).2, k + 1⟩ := by
  obtain ⟨k, t, -, ht, heq⟩ := retryTransient_rule .default
    (fun i => attemptRpc serve (net i)) (fun i => (net i).elapsed) hs hstep
  exact ⟨k, t, ht, heq⟩

/-- An RPC none of whose attempts was applied and lost has been applied once and
answered, or it has failed and changed nothing. -/
theorem retryRpc_once (net : ℕ → Attempt) {serve : Server → Server × Except Error α}
    {s : Server} (herror : ∀ e, (serve s).2 = .error e → (serve s).1 = s)
    (hlost : (retryRpc net (fun _ => serve) s).lost net = []) :
    ((retryRpc net (fun _ => serve) s).state, (retryRpc net (fun _ => serve) s).result) =
        serve s ∨
      ((retryRpc net (fun _ => serve) s).state = s ∧
        ∃ e, (retryRpc net (fun _ => serve) s).result = .error e) := by
  have hstep : ∀ i t e, (lostAttempts net i = [] → t = s) →
      (attemptRpc (fun _ => serve) (net (i + 1)) t).2 = .error e →
      lostAttempts net (i + 1) = [] → (attemptRpc (fun _ => serve) (net (i + 1)) t).1 = s := by
    intro i t e ht hfail hnone
    obtain ⟨hbefore, hthis⟩ := List.append_eq_nil_iff.mp hnone
    obtain rfl := ht hbefore
    have hnot : (net (i + 1)).isLost = false := by simpa using hthis
    rcases attemptRpc_of_not_lost (fun _ => serve) t hnot with hserve | ⟨e', hserve⟩
    · rw [hserve] at hfail ⊢
      exact herror e hfail
    · rw [hserve]
  obtain ⟨k, t, ht, heq⟩ := retryRpc_rule (P := fun k t => lostAttempts net k = [] → t = s)
    (fun _ => rfl) hstep
  unfold Outcome.lost at hlost
  rw [heq] at hlost ⊢
  obtain ⟨hbefore, hthis⟩ := List.append_eq_nil_iff.mp hlost
  obtain rfl := ht hbefore
  rcases attemptRpc_of_not_lost (fun _ => serve) t (by simpa using hthis) with
    hserve | ⟨e, hserve⟩
  · exact .inl (by rw [hserve])
  · exact .inr ⟨by rw [hserve], e, by rw [hserve]⟩

/-- An RPC whose applied attempts enqueue inputs has enqueued those of its lost
attempts, and after them, if it succeeded, those of the answered attempt. -/
theorem retryRpc_enqueue (net : ℕ → Attempt)
    (copies : Attempt → List (Text × FunctionPutInputsItem)) (answer : Attempt → α)
    (s : Server) :
    let o := retryRpc net (fun a t => (t.enqueue (copies a), .ok (answer a))) s
    (∃ a, o.result = .ok (answer a) ∧
        o.state = s.enqueue ((o.lost net).flatMap copies ++ copies a)) ∨
      ((∃ e, o.result = .error e) ∧ o.state = s.enqueue ((o.lost net).flatMap copies)) := by
  intro o
  have hstep : ∀ i t e, t = s.enqueue ((lostAttempts net i).flatMap copies) →
      (attemptRpc (fun a t => (t.enqueue (copies a), .ok (answer a))) (net (i + 1)) t).2 =
        .error e →
      (attemptRpc (fun a t => (t.enqueue (copies a), Except.ok (answer a))) (net (i + 1)) t).1 =
        s.enqueue ((lostAttempts net (i + 1)).flatMap copies) := by
    rintro i t e rfl hfail
    cases hfate : (net (i + 1)).fate with
    | delivered => simp [attemptRpc, hfate] at hfail
    | lost e' =>
      rw [lostAttempts_succ_of_lost hfate]
      simp [attemptRpc, hfate, Server.enqueue]
    | dropped e' =>
      rw [lostAttempts_succ_of_not_lost (by simp [Attempt.isLost, hfate])]
      simp [attemptRpc, hfate]
  obtain ⟨k, t, ht, heq⟩ := retryRpc_rule (s := s)
    (P := fun k t => t = s.enqueue ((lostAttempts net k).flatMap copies))
    (by simp [lostAttempts, Server.enqueue]) hstep
  rw [show o = _ from heq]
  unfold Outcome.lost
  cases hfate : (net (k + 1)).fate with
  | delivered =>
    left
    refine ⟨net (k + 1), by simp [attemptRpc, hfate], ?_⟩
    rw [lostAttempts_succ_of_not_lost (by simp [Attempt.isLost, hfate]), ht]
    simp [attemptRpc, hfate, Server.enqueue]
  | lost e =>
    right
    refine ⟨⟨e, by simp [attemptRpc, hfate]⟩, ?_⟩
    rw [lostAttempts_succ_of_lost hfate, ht]
    simp [attemptRpc, hfate, Server.enqueue]
  | dropped e =>
    right
    refine ⟨⟨e, by simp [attemptRpc, hfate]⟩, ?_⟩
    rw [lostAttempts_succ_of_not_lost (by simp [Attempt.isLost, hfate]), ht]
    simp [attemptRpc, hfate]

end ModalRust.Sdk
