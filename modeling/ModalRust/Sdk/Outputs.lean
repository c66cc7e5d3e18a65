import Mathlib.Data.Finset.Card
import Mathlib.Logic.Function.Basic
import ModalRust.Machine
import ModalRust.Text

/-!
# Polling the outputs of a function call

One function call with its outputs on the server, and the client that collects them:
`map_cbor`, which polls in batches until it has them all, or a sequence of
`get_by_call` requests, each of which polls for one index. Every request of either is
built with `clear_on_success`, so once a poll has returned something the server may
expire the outputs that the call still holds.
-/

namespace ModalRust.Sdk

/-- The `FunctionGetOutputs` request. -/
structure FunctionGetOutputsRequest where
  /-- The function call. -/
  functionCallId : Text
  /-- The largest number of outputs to return. -/
  maxValues : ℤ
  /-- The length of the poll window in seconds. -/
  timeout : ℕ
  /-- The cursor. -/
  lastEntryId : Text
  /-- Expires any remaining outputs soon after the call, not just the returned ones. -/
  clearOnSuccess : Bool
  /-- The first index to return. -/
  startIdx : Option ℤ
  /-- The last index to return. -/
  endIdx : Option ℤ

/-- The poll window in seconds. -/
def outputsTimeoutSecs : ℕ := 55

/-- The cursor from the beginning. -/
def lastEntryIdInitial : Text := "0-0".toList

/-- The one builder of `FunctionGetOutputs` requests. -/
def buildFunctionGetOutputsRequest (functionCallId : Text) (maxValues : ℤ)
    (lastEntryId : Text) (index : Option ℤ) : FunctionGetOutputsRequest where
  functionCallId := functionCallId
  maxValues := maxValues
  timeout := outputsTimeoutSecs
  lastEntryId := lastEntryId
  clearOnSuccess := true
  startIdx := index
  endIdx := index

/-- What the client makes of one returned output. -/
inductive ItemState
  /-- A success whose inline data decodes. -/
  | value
  /-- A failure, a blob, a missing result or data that does not decode. -/
  | failure
  /-- An unspecified status: keep polling. -/
  | pending
  deriving DecidableEq

/-- One returned output. -/
structure FunctionGetOutputsItem where
  /-- The input ordinal. -/
  idx : ℤ
  /-- What the client makes of it. -/
  state : ItemState
  deriving DecidableEq

/-- One output on the server. -/
inductive Slot
  /-- The input is not finished. -/
  | pending
  /-- The output is available. -/
  | held
  /-- The output is gone. -/
  | expired
  deriving DecidableEq

/-- How far the client of the call has come. -/
inductive Client
  /-- `map_cbor` polls and has the outputs `got`. -/
  | mapping (got : Finset ℤ)
  /-- `map_cbor` returned. -/
  | mapped
  /-- No `get_by_call` request is running. -/
  | idle
  /-- A `get_by_call` request polls for one index; `answered` once it has received
  that output with an unspecified status. -/
  | getting (index : ℤ) (answered : Bool)
  deriving DecidableEq

/-- A function call with `n` inputs, and its client. -/
structure FunctionCall where
  /-- The number of inputs. -/
  n : ℕ
  /-- The outputs on the server. -/
  slot : ℤ → Slot
  /-- The outputs that some response contained. -/
  returned : ℤ → Bool
  /-- Whether a poll with `clear_on_success` returned something. -/
  cleared : Bool
  /-- The cursor of the running poll loop. -/
  lastEntryId : Text
  /-- The client. -/
  client : Client

/-- One step of the server or of the client. -/
inductive CallAction
  /-- An output becomes available. -/
  | complete (i : ℤ)
  /-- The server expires an output. -/
  | expire (i : ℤ)
  /-- A poll window ends with a response. -/
  | poll (outputs : List FunctionGetOutputsItem) (lastEntryId : Text)
  /-- The running poll loop passes its deadline. -/
  | deadline
  /-- `get_by_call(_, index, _)` is called. -/
  | get (index : ℤ)

namespace FunctionCall

/-- A freshly enqueued call of `n` inputs. -/
def enqueued (n : ℕ) (client : Client) : FunctionCall :=
  ⟨n, fun _ => .pending, fun _ => false, false, lastEntryIdInitial, client⟩

/-- `map_cbor` after `open_map_and_enqueue`; without inputs it returns at once. -/
def mapCbor (n : ℕ) : FunctionCall :=
  enqueued n (if n = 0 then .mapped else .mapping ∅)

/-- A call that was enqueued by `spawn` or `spawn_map`. -/
def spawned (n : ℕ) : FunctionCall := enqueued n .idle

/-- The input ordinals of the call. -/
def IsInput (s : FunctionCall) (i : ℤ) : Prop := 0 ≤ i ∧ i < s.n

instance (s : FunctionCall) (i : ℤ) : Decidable (s.IsInput i) :=
  inferInstanceAs (Decidable (0 ≤ i ∧ i < s.n))

/-- The request of the client's poll: `map_cbor` asks for all outputs, a `get` for one
index. The call's id plays no part, since there is only one call. -/
def request (s : FunctionCall) : Option FunctionGetOutputsRequest :=
  match s.client with
  | .mapping _ =>
    some (buildFunctionGetOutputsRequest [] ((s.n : ℤ).bmod (2 ^ 32)) s.lastEntryId none)
  | .getting index _ => some (buildFunctionGetOutputsRequest [] 1 s.lastEntryId (some index))
  | _ => none

/-- Whether the server may answer a request with these outputs. -/
def Answers (s : FunctionCall) (req : FunctionGetOutputsRequest)
    (outputs : List FunctionGetOutputsItem) : Prop :=
  outputs.length ≤ req.maxValues ∧ (outputs.map (·.idx)).Nodup ∧
    ∀ item ∈ outputs, s.slot item.idx = .held ∧
      (∀ start ∈ req.startIdx, start ≤ item.idx) ∧ ∀ stop ∈ req.endIdx, item.idx ≤ stop

instance (s : FunctionCall) (req : FunctionGetOutputsRequest)
    (outputs : List FunctionGetOutputsItem) : Decidable (s.Answers req outputs) :=
  inferInstanceAs (Decidable (_ ∧ _ ∧ _))

/-- The loop of `map_cbor` over one response: `none` when it fails fast. -/
def collect (got : Finset ℤ) : List FunctionGetOutputsItem → Option (Finset ℤ)
  | [] => some got
  | item :: outputs =>
    match item.state with
    | .value => collect (insert item.idx got) outputs
    | .failure => none
    | .pending => collect got outputs

/-- The client after a response. -/
def receive (n : ℕ) (outputs : List FunctionGetOutputsItem) : Client → Client
  | .mapping got =>
    match collect got outputs with
    | none => .mapped
    | some got => if got.card < n then .mapping got else .mapped
  | .getting index answered =>
    match outputs with
    | [] => .getting index answered
    | item :: _ =>
      if item.idx ≠ index then .getting index answered
      else if item.state = .pending then .getting index true
      else .idle
  | client => client

/-- The steps of the server and of the client. -/
def step (s : FunctionCall) : CallAction → Option FunctionCall
  | .complete i =>
    if s.IsInput i ∧ s.slot i = .pending then
      some { s with slot := Function.update s.slot i .held }
    else none
  | .expire i =>
    if s.cleared ∧ s.slot i = .held then
      some { s with slot := Function.update s.slot i .expired }
    else none
  | .poll outputs lastEntryId =>
    match s.request with
    | none => none
    | some req =>
      if s.Answers req outputs then
        some { s with
          returned := fun i => s.returned i || decide (i ∈ outputs.map (·.idx))
          cleared := s.cleared || (!outputs.isEmpty && req.clearOnSuccess)
          lastEntryId := if lastEntryId.isEmpty then s.lastEntryId else lastEntryId
          client := receive s.n outputs s.client }
      else none
  | .deadline =>
    match s.client with
    | .mapping _ => some { s with client := .mapped }
    | .getting _ _ => some { s with client := .idle }
    | _ => none
  | .get index =>
    match s.client with
    | .idle =>
      some { s with client := .getting index false, lastEntryId := lastEntryIdInitial }
    | _ => none

/-- Whether the client is `map_cbor`. -/
def isMap (s : FunctionCall) : Bool :=
  match s.client with
  | .mapping _ | .mapped => true
  | _ => false

/-- No output is lost: none of a map call expired before a response contained it, and
none expired that a running `get` still waits for. -/
def NothingLost (s : FunctionCall) : Prop :=
  (s.isMap = true → ∀ i, s.slot i = .expired → s.returned i = true) ∧
    ∀ index, s.client = .getting index false → s.slot index ≠ .expired

/-- The steps that leave nothing behind: a map poll returns nothing or all outputs at
once, and no `get` is made after one on the same call has been answered. -/
def InOneGo (s : FunctionCall) : CallAction → Prop
  | .poll outputs _ =>
    s.isMap = true → outputs = [] ∨ ∀ i, s.IsInput i → i ∈ outputs.map (·.idx)
  | .get _ => s.cleared = false
  | _ => True

/-- The invariant of runs in one go. -/
structure Intact (s : FunctionCall) : Prop where
  /-- Only outputs of inputs exist. -/
  bounded : ∀ i, s.slot i ≠ .pending → s.IsInput i
  /-- Nothing expires before a poll returned something. -/
  unexpired : s.cleared = false → ∀ i, s.slot i ≠ .expired
  /-- After that, a map call has been answered in full. -/
  mapped : s.cleared = true → s.isMap = true → ∀ i, s.IsInput i → s.returned i = true
  /-- After that, no `get` waits for its output. -/
  gotten : s.cleared = true → ∀ index, s.client ≠ .getting index false

/-- Intact calls have lost nothing. -/
theorem Intact.nothingLost {s : FunctionCall} (h : s.Intact) : s.NothingLost := by
  have hcleared {i : ℤ} (hi : s.slot i = .expired) : s.cleared = true := by
    by_contra hfalse
    exact h.unexpired (by simpa using hfalse) i hi
  refine ⟨fun hmap i hi => ?_, fun index hclient hi => ?_⟩
  · exact h.mapped (hcleared hi) hmap i (h.bounded i (by simp [hi]))
  · exact h.gotten (hcleared hi) index hclient

/-- A freshly enqueued call is intact. -/
theorem enqueued_intact (n : ℕ) (client : Client) : (enqueued n client).Intact where
  bounded i hi := absurd rfl hi
  unexpired _ i := by simp [enqueued]
  mapped hcleared := by cases hcleared
  gotten hcleared := by cases hcleared

/-- A response keeps `map_cbor` a `map_cbor`, and makes no other client one. -/
theorem isMap_receive (n : ℕ) (outputs : List FunctionGetOutputsItem) (s : FunctionCall) :
    isMap { s with client := receive n outputs s.client } = s.isMap := by
  unfold isMap receive
  cases s.client with
  | mapping got =>
    cases hcollect : collect got outputs with
    | none => simp [hcollect]
    | some got' => by_cases hlt : got'.card < n <;> simp [hcollect, hlt]
  | mapped => rfl
  | idle => rfl
  | getting index answered =>
    cases outputs with
    | nil => rfl
    | cons item outputs =>
      by_cases hidx : item.idx = index <;> by_cases hstate : item.state = .pending <;>
        simp [hidx, hstate]

/-- A `get` that still waits after a response was waiting before it, and the response
held nothing for its index. -/
theorem getting_of_receive {n : ℕ} {outputs : List FunctionGetOutputsItem} {client : Client}
    {index : ℤ} (h : receive n outputs client = .getting index false) :
    client = .getting index false ∧ ∀ item ∈ outputs.head?, item.idx ≠ index := by
  cases client with
  | mapping got =>
    simp only [receive] at h
    split at h
    · cases h
    · split at h <;> cases h
  | mapped => cases h
  | idle => cases h
  | getting i answered =>
    cases outputs with
    | nil =>
      simp only [receive] at h
      exact ⟨h, by simp⟩
    | cons item outputs =>
      simp only [receive] at h
      split at h
      · next hidx =>
        cases h
        exact ⟨rfl, by simpa using hidx⟩
      · split at h <;> cases h

/-- The step rule: a step in one go keeps the call intact. -/
theorem step_intact {s t : FunctionCall} {action : CallAction} (h : s.Intact)
    (hgo : s.InOneGo action) (hstep : s.step action = some t) : t.Intact := by
  cases action with
  | complete i =>
    simp only [step] at hstep
    split at hstep <;> [skip; cases hstep]
    next hi =>
    cases hstep
    refine ⟨fun j hj => ?_, fun hcleared j => ?_, h.mapped, h.gotten⟩
    · by_cases hij : j = i
      · exact hij ▸ hi.1
      · exact h.bounded j (by simpa [hij] using hj)
    · by_cases hij : j = i
      · simp [hij]
      · simpa [hij] using h.unexpired hcleared j
  | expire i =>
    simp only [step] at hstep
    split at hstep <;> [skip; cases hstep]
    next hi =>
    cases hstep
    refine ⟨fun j hj => ?_, fun hcleared => ?_, h.mapped, h.gotten⟩
    · by_cases hij : j = i
      · exact hij ▸ h.bounded i (by simp [hi.2])
      · exact h.bounded j (by simpa [hij] using hj)
    · rw [hi.1] at hcleared
      cases hcleared
  | poll outputs lastEntryId =>
    simp only [step] at hstep
    split at hstep <;> [cases hstep; skip]
    next req hreq =>
    split at hstep <;> [skip; cases hstep]
    next hanswers =>
    cases hstep
    refine ⟨h.bounded, fun hcleared => ?_, fun hcleared hmap i hi => ?_, fun hcleared index => ?_⟩
    · exact h.unexpired (Bool.or_eq_false_iff.mp hcleared).1
    · have hmap' : s.isMap = true := (isMap_receive s.n outputs s).symm.trans hmap
      rcases hgo hmap' with hnil | hall
      · have hbefore : s.cleared = true := by simpa [hnil] using hcleared
        simp [h.mapped hbefore hmap' i hi]
      · have hmem := hall i hi
        simp only [Bool.or_eq_true, decide_eq_true_eq]
        exact .inr hmem
    · intro hclient
      obtain ⟨hgetting, hhead⟩ := getting_of_receive hclient
      have hnil : outputs = [] := by
        by_contra hne
        obtain ⟨item, rest, rfl⟩ := List.exists_cons_of_ne_nil hne
        obtain ⟨-, hstart, hstop⟩ := hanswers.2.2 item (by simp)
        simp only [request, hgetting, Option.some.injEq] at hreq
        subst hreq
        exact hhead item rfl (le_antisymm (hstop index rfl) (hstart index rfl))
      exact h.gotten (by simpa [hnil] using hcleared) index hgetting
  | deadline =>
    simp only [step] at hstep
    split at hstep
    · next got hclient =>
      cases hstep
      exact ⟨h.bounded, h.unexpired, fun hcleared _ => h.mapped hcleared (by simp [isMap, hclient]),
        fun _ _ => by simp⟩
    · cases hstep
      exact ⟨h.bounded, h.unexpired, fun _ hmap => by simp [isMap] at hmap, fun _ _ => by simp⟩
    · cases hstep
  | get index =>
    simp only [step] at hstep
    split at hstep <;> [skip; cases hstep]
    cases hstep
    have hfresh : s.cleared = false := hgo
    refine ⟨h.bounded, h.unexpired, fun hcleared => ?_, fun hcleared => ?_⟩
    · exact absurd (hfresh.symm.trans hcleared) (by simp)
    · exact absurd (hfresh.symm.trans hcleared) (by simp)

/-- **No output is lost in one go.** For a map call with any number of inputs and for
any spawned call, in every state that is reached by a run whose map polls return
nothing or everything and whose `get`s precede the first answer, every expired output
of the map call has been returned and no waiting `get` has lost its output. -/
theorem no_output_lost_in_one_go {n : ℕ} {start s : FunctionCall} {schedule : List CallAction}
    (hstart : start = mapCbor n ∨ start = spawned n)
    (hgo : Machine.Guarded step InOneGo start schedule)
    (hrun : Machine.run step start schedule = some s) : s.NothingLost := by
  have hintact : start.Intact := by
    rcases hstart with rfl | rfl <;> exact enqueued_intact n _
  exact (Machine.run_invariant (fun _ _ _ h hok hstep => step_intact h hok hstep)
    hintact hgo hrun).nothingLost

/-- Once a poll has returned something, the server may expire any output that is not
gone yet, whether or not it was finished then. -/
theorem exists_run_expired {s : FunctionCall} {i : ℤ} (hcleared : s.cleared = true)
    (hi : s.IsInput i) (hslot : s.slot i ≠ .expired) :
    ∃ schedule, Machine.run step s schedule =
      some { s with slot := Function.update s.slot i .expired } := by
  cases hi' : s.slot i with
  | expired => exact absurd hi' hslot
  | held => exact ⟨[.expire i], by simp [Machine.run, step, hcleared, hi']⟩
  | pending =>
    refine ⟨[.complete i, .expire i], ?_⟩
    simp [Machine.run, step, hi, hi', hcleared]

/-- A map poll that returns some but not all outputs can be continued to a loss. -/
theorem lost_of_partial_poll {s t : FunctionCall} {outputs : List FunctionGetOutputsItem}
    {lastEntryId : Text} {i : ℤ} (hmap : s.isMap = true) (hne : outputs ≠ [])
    (hi : s.IsInput i) (hmissing : i ∉ outputs.map (·.idx)) (hreturned : s.returned i = false)
    (hslot : s.slot i ≠ .expired) (hstep : s.step (.poll outputs lastEntryId) = some t) :
    ∃ schedule u, Machine.run step t schedule = some u ∧ ¬ u.NothingLost := by
  have hmap' := (isMap_receive s.n outputs s).trans hmap
  simp only [step] at hstep
  split at hstep <;> [cases hstep; skip]
  next req hreq =>
  split at hstep <;> [skip; cases hstep]
  cases hstep
  have hclear : req.clearOnSuccess = true := by
    unfold request at hreq
    split at hreq <;> first | cases hreq; rfl | cases hreq
  obtain ⟨schedule, hrun⟩ := exists_run_expired (i := i) (s := { s with
    returned := fun i => s.returned i || decide (i ∈ outputs.map (·.idx))
    cleared := s.cleared || (!outputs.isEmpty && req.clearOnSuccess)
    lastEntryId := if lastEntryId.isEmpty then s.lastEntryId else lastEntryId
    client := receive s.n outputs s.client }) (by simp [hclear, hne]) hi hslot
  refine ⟨schedule, _, hrun, fun hlost => ?_⟩
  have hgone := hlost.1 hmap' i (by simp)
  simp only [hreturned, Bool.false_or, decide_eq_true_eq] at hgone
  exact hmissing hgone

/-- A `get` after an answered `get` can be made to wait for an expired output. -/
theorem lost_of_repeated_get {s : FunctionCall} {i : ℤ} (hclient : s.client = .idle)
    (hcleared : s.cleared = true) (hi : s.IsInput i) :
    ∃ schedule u, Machine.run step s (schedule ++ [.get i]) = some u ∧ ¬ u.NothingLost := by
  have hget (slot : ℤ → Slot) (hslot : slot i = .expired) :
      ∃ u, step { s with slot := slot } (.get i) = some u ∧ ¬ u.NothingLost := by
    refine ⟨_, by simp only [step, hclient]; rfl, fun hlost => ?_⟩
    exact hlost.2 i rfl hslot
  by_cases hslot : s.slot i = .expired
  · obtain ⟨u, hu, hlost⟩ := hget s.slot hslot
    exact ⟨[], u, by simp [Machine.run, hu], hlost⟩
  · obtain ⟨schedule, hrun⟩ := exists_run_expired hcleared hi hslot
    obtain ⟨u, hu, hlost⟩ := hget (Function.update s.slot i .expired) (by simp)
    exact ⟨schedule, u, by simp [Machine.run_append, hrun, Machine.run, hu], hlost⟩

/-- An output of the input `i` that succeeded. -/
def success (i : ℤ) : FunctionGetOutputsItem := ⟨i, .value⟩

/-- Two inputs whose outputs are returned by one poll. -/
theorem no_output_lost_in_one_go_two : ∃ s,
    Machine.run step (mapCbor 2)
      [.complete 1, .complete 0, .poll [success 0, success 1] [], .expire 0] = some s ∧
    Machine.Guarded step InOneGo (mapCbor 2)
      [.complete 1, .complete 0, .poll [success 0, success 1] [], .expire 0] ∧
    s.NothingLost := by
  have hgo : Machine.Guarded step InOneGo (mapCbor 2)
      [.complete 1, .complete 0, .poll [success 0, success 1] [], .expire 0] := by
    refine ⟨trivial, trivial, fun _ => .inr fun i hi => ?_, trivial, trivial⟩
    have hi0 : 0 ≤ i := hi.1
    have hi2 : i < 2 := hi.2
    simp only [success, List.map_cons, List.map_nil, List.mem_cons, List.not_mem_nil]
    omega
  exact ⟨_, rfl, hgo, no_output_lost_in_one_go (.inl rfl) hgo rfl⟩

/-- A map of two inputs whose outputs become available in different poll windows loses
the second output, and so does a second `get` of the only output of a spawned call. -/
theorem clearOnSuccess_loses_outputs :
    (∃ s, Machine.run step (mapCbor 2)
        [.complete 0, .poll [success 0] [], .complete 1, .expire 1] = some s ∧
      s.client = .mapping {0} ∧ s.slot 1 = .expired ∧ s.returned 1 = false ∧
      ¬ s.NothingLost) ∧
    (∃ s, Machine.run step (spawned 1)
        [.complete 0, .get 0, .poll [success 0] [], .expire 0, .get 0] = some s ∧
      s.client = .getting 0 false ∧ s.slot 0 = .expired ∧ ¬ s.NothingLost) := by
  refine ⟨⟨_, rfl, rfl, rfl, rfl, fun h => ?_⟩, ⟨_, rfl, rfl, rfl, fun h => ?_⟩⟩
  · exact absurd (h.1 rfl 1 rfl) (by decide)
  · exact h.2 0 rfl rfl

end FunctionCall

end ModalRust.Sdk
