import ModalRust.Machine
import ModalRust.Sdk.Client

/-!
# What a mutating call has done to the server

A call on a queue or a dict none of whose own attempts was applied and lost takes
effect exactly once, whatever happens to other calls. A successful `remote`, `spawn`
or `map` enqueues each of its inputs once, after the copies that its own lost attempts
enqueued. A lost attempt does break the rule for one call: a concrete session shows it
for each kind of call.
-/

namespace ModalRust.Sdk

/-- The effect of a call on queues and dicts: a request that succeeded was applied
once, and one that failed was not applied. -/
def Record.AppliedOnce (r : Record) : Prop :=
  match r.op, r.done.result with
  | .queuePut queueId values, .ok _ =>
    ∃ items, r.before.queues queueId = some items ∧
      r.done.state = r.before.setQueue queueId (items ++ values)
  | .queueGet queueId _, .ok reply =>
    ∃ values rest, reply = .values values ∧
      r.before.queues queueId = some (values ++ rest) ∧
      r.done.state = r.before.setQueue queueId rest
  | .dictUpdate dictId entries true, .ok reply =>
    ∃ dict dict' created, reply = .created created ∧ r.before.dicts dictId = some dict ∧
      r.done.state = r.before.setDict dictId dict' ∧
      (∀ key, dict' key = (dict key).or (entries.lookup key)) ∧
      (created = true ↔ (entries.map Prod.fst).Nodup ∧
        ∀ key ∈ entries.map Prod.fst, dict key = none)
  | .dictPop dictId key, .ok reply =>
    ∃ dict, reply = .popped (dict key) ∧ r.before.dicts dictId = some dict ∧
      r.done.state = r.before.setDict dictId (Function.update dict key none)
  | .queuePut _ _, .error _ | .queueGet _ _, .error _ | .dictUpdate _ _ true, .error _
  | .dictPop _ _, .error _ => r.done.state = r.before
  | _, _ => True

/-- The inputs that a call carries in its first RPC. -/
def Op.pipelined : Op → List FunctionPutInputsItem
  | .invokeRaw args _ | .spawnRaw args => [unaryItem args]
  | _ => []

/-- The inputs that a call is to enqueue. -/
def Op.items : Op → Except Error (List FunctionPutInputsItem)
  | .mapCbor inputs _ | .spawnMapCbor inputs => mapItems 0 inputs
  | op => .ok op.pipelined

/-- The effect of a successful function call: its inputs are enqueued once each, after
the copies of its lost attempts. -/
def Record.Enqueued (r : Record) : Prop :=
  ∀ reply, r.done.result = .ok reply → match r.op with
    | .invokeRaw _ _ | .spawnRaw _ | .mapCbor _ _ | .spawnMapCbor _ =>
      ∃ functionCallId items, r.op.items = .ok items ∧
        r.done.state.inputs = r.before.inputs ++
          r.done.firstLost.flatMap (fun a => a.copies a.functionCallId r.op.pipelined) ++
          r.done.putLost.flatMap (fun a => a.copies functionCallId items) ++
          items.map fun item => (functionCallId, item)
    | _ => True

/-- The spec of a call that is one RPC, for a request that the server answers from some
`x` with `P x` or refuses without effect. If no attempt was lost, the request was
applied once and answered, or the call failed and changed nothing. -/
theorem ofRpc_once {α β : Type} {net : Net} {serve : Server → Server × Except Error α}
    (reply : α → Reply) {s : Server} {P : β → Prop} {next : β → Server} {answer : β → α}
    (hcases : (∃ x, P x ∧ serve s = (next x, .ok (answer x))) ∨ ∃ e, serve s = (s, .error e))
    (hlost : (Done.ofRpc net serve s).firstLost = []) :
    let d := (Done.ofRpc net serve s).map fun v => .ok (reply v)
    (∃ x, P x ∧ d.result = .ok (reply (answer x)) ∧ d.state = next x) ∨
      ((∃ e, d.result = .error e) ∧ d.state = s) := by
  simp only [Done.map, Done.ofRpc]
  rcases hcases with ⟨x, hx, hserve⟩ | ⟨e, hserve⟩
  · rcases retryRpc_once net.first (by simp [hserve]) hlost with
      honce | ⟨hstate, e, hresult⟩
    · obtain ⟨hstate, hresult⟩ := Prod.mk.inj (honce.trans hserve)
      exact .inl ⟨x, hx, by rw [hresult]; rfl, hstate⟩
    · exact .inr ⟨⟨e, by rw [hresult]; rfl⟩, hstate⟩
  · rcases retryRpc_once net.first (by simp [hserve]) hlost with
      honce | ⟨hstate, e, hresult⟩
    · obtain ⟨hstate, hresult⟩ := Prod.mk.inj (honce.trans hserve)
      exact .inr ⟨⟨e, by rw [hresult]; rfl⟩, hstate⟩
    · exact .inr ⟨⟨e, by rw [hresult]; rfl⟩, hstate⟩

/-- A call on a queue or a dict with no lost attempt is applied once. -/
theorem perform_appliedOnce {op : Op} {net : Net} {s : Server}
    (hlost : (op.perform net s).firstLost = []) :
    Record.AppliedOnce ⟨op, s, op.perform net s⟩ := by
  cases op with
  | queuePut queueId values =>
    rcases ofRpc_once (fun _ => .unit) (Server.onQueue_cases _ _ s) hlost with
      ⟨items, hitems, hresult, hstate⟩ | ⟨⟨e, hresult⟩, hstate⟩
    · simp only [Record.AppliedOnce, Op.perform, Server.queuePut, hresult]
      exact ⟨items, hitems, hstate⟩
    · simp only [Record.AppliedOnce, Op.perform, Server.queuePut, hresult]
      exact hstate
  | queueGet queueId nValues =>
    rcases ofRpc_once .values (Server.onQueue_cases _ _ s) hlost with
      ⟨items, hitems, hresult, hstate⟩ | ⟨⟨e, hresult⟩, hstate⟩
    · simp only [Record.AppliedOnce, Op.perform, Server.queueGet, hresult]
      exact ⟨_, _, rfl, by rw [hitems, List.take_append_drop], hstate⟩
    · simp only [Record.AppliedOnce, Op.perform, Server.queueGet, hresult]
      exact hstate
  | dictUpdate dictId entries ifNotExists =>
    cases ifNotExists with
    | false => trivial
    | true =>
      rcases ofRpc_once .created (Server.onDict_cases _ _ s) hlost with
        ⟨dict, hdict, hresult, hstate⟩ | ⟨⟨e, hresult⟩, hstate⟩
      · simp only [Record.AppliedOnce, Op.perform, Server.dictUpdate, hresult]
        exact ⟨dict, _, _, rfl, hdict, hstate, Server.updateEntries_apply dict entries,
          Server.updateEntries_created dict entries⟩
      · simp only [Record.AppliedOnce, Op.perform, Server.dictUpdate, hresult]
        exact hstate
  | dictPop dictId key =>
    rcases ofRpc_once .popped (Server.onDict_cases _ _ s) hlost with
      ⟨dict, hdict, hresult, hstate⟩ | ⟨⟨e, hresult⟩, hstate⟩
    · simp only [Record.AppliedOnce, Op.perform, Server.dictPop, hresult]
      exact ⟨dict, rfl, hdict, hstate⟩
    · simp only [Record.AppliedOnce, Op.perform, Server.dictPop, hresult]
      exact hstate
  | invokeRaw args poll => trivial
  | spawnRaw args => trivial
  | mapCbor inputs poll => trivial
  | spawnMapCbor inputs => trivial

/-- The spec of a retried `FunctionMap`. -/
theorem functionMap_rpc (net : ℕ → Attempt) (items : List FunctionPutInputsItem) (s : Server) :
    let o := retryRpc net (functionMap items) s
    let lost := (o.lost net).flatMap fun a => a.copies a.functionCallId items
    (∃ a : Attempt, o.result = .ok (a.functionCallId, a.accepted items) ∧
        o.state.inputs = s.inputs ++ lost ++ a.copies a.functionCallId items) ∨
      ∃ e, o.result = .error e := by
  rcases retryRpc_enqueue net (fun a => a.copies a.functionCallId items)
    (fun a => (a.functionCallId, a.accepted items)) s with
    ⟨a, hresult, hstate⟩ | ⟨herror, -⟩
  · exact .inl ⟨a, hresult, by rw [List.append_assoc]; exact congrArg Server.inputs hstate⟩
  · exact .inr herror

/-- The spec of a retried `FunctionPutInputs`. -/
theorem functionPutInputs_rpc (net : ℕ → Attempt) (functionCallId : Text)
    (items : List FunctionPutInputsItem) (s : Server) :
    let o := retryRpc net (functionPutInputs functionCallId items) s
    let lost := (o.lost net).flatMap fun a => a.copies functionCallId items
    (∃ a : Attempt, o.result = .ok (a.accepted items) ∧
        o.state.inputs = s.inputs ++ lost ++ a.copies functionCallId items) ∨
      ∃ e, o.result = .error e := by
  rcases retryRpc_enqueue net (fun a => a.copies functionCallId items)
    (fun a => a.accepted items) s with
    ⟨a, hresult, hstate⟩ | ⟨herror, -⟩
  · exact .inl ⟨a, hresult, by rw [List.append_assoc]; exact congrArg Server.inputs hstate⟩
  · exact .inr herror

/-- The spec of `enqueue_pipelined`: the input is enqueued once under the returned
call, after the copies of the lost attempts. -/
theorem enqueuePipelined_enqueued {net : Net} {item : FunctionPutInputsItem} {s : Server}
    {id : Text} (hok : (enqueuePipelined net item s).result = .ok id) :
    (enqueuePipelined net item s).state.inputs = s.inputs ++
      (enqueuePipelined net item s).firstLost.flatMap
        (fun a => a.copies a.functionCallId [item]) ++
      (enqueuePipelined net item s).putLost.flatMap (fun a => a.copies id [item]) ++
      [(id, item)] := by
  rcases functionMap_rpc net.first [item] s with ⟨a, hresult, hstate⟩ | ⟨e, hresult⟩
  · unfold enqueuePipelined at hok ⊢
    simp only [hresult] at hok ⊢
    split at hok
    · cases hok
    · next hid =>
      rw [if_neg hid]
      cases haccepts : a.accepts item with
      | true =>
        have hall : a.accepted [item] = [item] := by simp [Attempt.accepted, haccepts]
        simp only [hall, List.isEmpty_cons, Bool.false_eq_true, if_false] at hok ⊢
        cases hok
        simp [hstate, Attempt.copies, hall]
      | false =>
        have hnone : a.accepted [item] = [] := by simp [Attempt.accepted, haccepts]
        simp only [hnone, List.isEmpty_nil, if_true] at hok ⊢
        rcases functionPutInputs_rpc net.put a.functionCallId [item]
          (retryRpc net.first (functionMap [item]) s).state with
          ⟨b, hput, hputstate⟩ | ⟨e, hput⟩
        · simp only [hput, Except.bind] at hok
          split at hok
          · cases hok
          · next hb =>
            cases hok
            have hall : b.accepted [item] = [item] := by
              cases hbaccepts : b.accepts item with
              | true => simp [Attempt.accepted, hbaccepts]
              | false => simp [Attempt.accepted, hbaccepts] at hb
            simp [hputstate, hstate, Attempt.copies, hall, hnone]
        · simp [hput, Except.bind] at hok
  · simp [enqueuePipelined, hresult] at hok

/-- One item for each input. -/
theorem mapItems_length {i : ℕ} {inputs : List (Except Error Bytes)}
    {items : List FunctionPutInputsItem} (h : mapItems i inputs = .ok items) :
    items.length = inputs.length := by
  induction inputs generalizing i items with
  | nil =>
    cases h
    rfl
  | cons input inputs ih =>
    cases input with
    | error e => cases h
    | ok args =>
      cases hrest : mapItems (i + 1) inputs with
      | error e => simp [mapItems, hrest, bind, Except.bind] at h
      | ok rest =>
        simp only [mapItems, hrest, bind, Except.bind, pure, Except.pure, Except.ok.injEq] at h
        rw [← h, List.length_cons, List.length_cons, ih hrest]

/-- The spec of `open_map_and_enqueue`: every input is enqueued once under the returned
call, after the copies of the lost attempts of `FunctionPutInputs`. -/
theorem openMapAndEnqueue_enqueued {net : Net} {inputs : List (Except Error Bytes)}
    {s : Server} {id : Text} (hok : (openMapAndEnqueue net inputs s).result = .ok id) :
    ∃ items, mapItems 0 inputs = .ok items ∧
      (openMapAndEnqueue net inputs s).state.inputs = s.inputs ++
        (openMapAndEnqueue net inputs s).firstLost.flatMap
          (fun a => a.copies a.functionCallId []) ++
        (openMapAndEnqueue net inputs s).putLost.flatMap (fun a => a.copies id items) ++
        items.map fun item => (id, item) := by
  rcases functionMap_rpc net.first [] s with ⟨a, hresult, hstate⟩ | ⟨e, hresult⟩
  · unfold openMapAndEnqueue at hok ⊢
    simp only [hresult] at hok ⊢
    split at hok
    · cases hok
    · next hid =>
      rw [if_neg hid]
      cases hitems : mapItems 0 inputs with
      | error e => simp [hitems] at hok
      | ok items =>
        refine ⟨items, rfl, ?_⟩
        simp only [hitems] at hok ⊢
        rcases functionPutInputs_rpc net.put a.functionCallId items
          (retryRpc net.first (functionMap []) s).state with
          ⟨b, hput, hputstate⟩ | ⟨e, hput⟩
        · simp only [hput, Except.bind] at hok
          split at hok
          · cases hok
          · next hlength =>
            cases hok
            have hall : b.accepted items = items := by
              refine List.filter_eq_self.mpr (List.length_filter_eq_length_iff.mp ?_)
              have hle := List.length_filter_le b.accepts items
              rw [← mapItems_length hitems] at hlength
              exact le_antisymm hle (not_lt.mp hlength)
            have hcopies : b.copies a.functionCallId items =
                items.map fun item => (a.functionCallId, item) := by
              rw [Attempt.copies, hall]
            rw [hputstate, hstate, hcopies]
            simp [Attempt.copies, Attempt.accepted]
        · simp [hput, Except.bind] at hok
  · simp [openMapAndEnqueue, hresult] at hok

/-- A result that is computed from the call id needs a call id. -/
theorem map_eq_ok {α β : Type} {d : Done α} {f : α → Except Error β} {v : β}
    (h : (d.map f).result = .ok v) : ∃ u, d.result = .ok u := by
  unfold Done.map at h
  cases hresult : d.result with
  | ok u => exact ⟨u, rfl⟩
  | error e => simp [hresult, Except.bind] at h

/-- A successful function call has enqueued its inputs, whatever was lost. -/
theorem perform_enqueued (op : Op) (net : Net) (s : Server) :
    Record.Enqueued ⟨op, s, op.perform net s⟩ := by
  intro reply hok
  cases op with
  | queuePut queueId values => trivial
  | queueGet queueId nValues => trivial
  | dictUpdate dictId entries ifNotExists => trivial
  | dictPop dictId key => trivial
  | invokeRaw args poll =>
    obtain ⟨id, hid⟩ := map_eq_ok hok
    exact ⟨id, _, rfl, enqueuePipelined_enqueued hid⟩
  | spawnRaw args =>
    obtain ⟨id, hid⟩ := map_eq_ok hok
    exact ⟨id, _, rfl, enqueuePipelined_enqueued hid⟩
  | mapCbor inputs poll =>
    cases inputs with
    | nil => exact ⟨[], [], rfl, by simp [Op.perform]⟩
    | cons input inputs =>
      obtain ⟨id, hid⟩ := map_eq_ok hok
      obtain ⟨items, hitems, hinputs⟩ := openMapAndEnqueue_enqueued hid
      exact ⟨id, items, hitems, hinputs⟩
  | spawnMapCbor inputs =>
    cases inputs with
    | nil => cases hok
    | cons input inputs =>
      obtain ⟨id, hid⟩ := map_eq_ok hok
      obtain ⟨items, hitems, hinputs⟩ := openMapAndEnqueue_enqueued hid
      exact ⟨id, items, hitems, hinputs⟩

/-- **Effects of the mutating calls.** In every session, under every pattern of lost
and dropped attempts and whatever happens to the other calls: a call on a queue or a
dict none of whose own attempts was lost takes effect exactly once if it succeeds and
not at all if it fails, and a successful function call enqueues each input once,
besides the copies of its own lost attempts. -/
theorem session_effects {server : Server} {calls : List (Op × Net)} {s : Session}
    (hrun : Machine.run Session.call ⟨server, []⟩ calls = some s) :
    ∀ r ∈ s.log, (r.done.firstLost = [] → r.AppliedOnce) ∧ r.Enqueued := by
  refine Machine.run_invariant_of_step
    (I := fun s => ∀ r ∈ s.log, (r.done.firstLost = [] → r.AppliedOnce) ∧ r.Enqueued)
    ?_ (by simp) hrun
  intro s call t hlog hcall
  cases hcall
  intro r hr
  rcases List.mem_append.mp hr with hold | hnew
  · exact hlog r hold
  · rw [List.mem_singleton.mp hnew]
    exact ⟨perform_appliedOnce, perform_enqueued _ _ _⟩

/-- A server with one empty queue and one empty dict. -/
def emptyServer : Server where
  queues id := if id = ['q'] then some [] else none
  dicts id := if id = ['d'] then some fun _ => none else none
  inputs := []

/-- An attempt with a given fate, on a server that accepts everything. -/
def openAttempt (fate : Fate) (i : ℕ) : Attempt := ⟨fate, 0, fun _ => true, Nat.toDigits 10 i⟩

/-- A network that delivers everything. -/
def reliable : Net := ⟨openAttempt .delivered, openAttempt .delivered⟩

/-- A network that loses the response of the first attempt. -/
def lossy : Net where
  first i := openAttempt (if i = 1 then .lost connectionReset else .delivered) i
  put := openAttempt .delivered

/-- A put and a get over a reliable network, around a `spawn` that enqueues twice. -/
theorem session_effects_put_get : ∃ s : Session,
    Machine.run Session.call ⟨emptyServer, []⟩
      [(.queuePut ['q'] [[1]], reliable), (.spawnRaw [7], lossy),
        (.queueGet ['q'] 1, reliable)] = some s ∧
    ∀ r ∈ s.log, (r.done.firstLost = [] → r.AppliedOnce) ∧ r.Enqueued := by
  have hrun : Machine.run Session.call ⟨emptyServer, []⟩
      [(.queuePut ['q'] [[1]], reliable), (.spawnRaw [7], lossy),
        (.queueGet ['q'] 1, reliable)] = some _ := rfl
  exact ⟨_, hrun, session_effects hrun⟩

/-- One lost response each: `queue_put` appends twice, `queue_get` removes an item that
it does not deliver, `dict_update` denies its own insertion, `dict_pop` reports the key
absent that it removed, and `spawn` enqueues its input twice. -/
theorem lost_responses_repeat_effects : ∃ s : Session,
    Machine.run Session.call ⟨emptyServer, []⟩
      [(.queuePut ['q'] [[1]], lossy), (.queueGet ['q'] 1, lossy),
        (.dictUpdate ['d'] [([2], [3])] true, lossy), (.dictPop ['d'] [2], lossy),
        (.spawnRaw [7], lossy)] = some s ∧
    s.log.map (fun r => r.done.result) =
      [.ok .unit, .ok (.values [[1]]), .ok (.created false), .ok (.popped none),
        .ok (.functionCall ['2'])] ∧
    s.log.map (fun r => (r.done.state.queues ['q'], (r.done.state.dicts ['d']).map (· [2]))) =
      [(some [[1], [1]], some none), (some [], some none), (some [], some (some [3])),
        (some [], some none), (some [], some none)] ∧
    s.server.inputs = [(['1'], unaryItem [7]), (['2'], unaryItem [7])] :=
  ⟨_, rfl, rfl, rfl, rfl⟩

end ModalRust.Sdk
