import ModalRust.Fallible
import ModalRust.Sdk.QueueGet

/-!
# Typed gets of a queue

The typed gets pop raw items and then decode them. The pop cannot be taken back, so what happens to
a batch with an item that does not decode decides whether items are lost: `get_many` fails with the
first such item, and the rest of its batch is gone. Every other item that was popped is returned.
-/

namespace ModalRust.Facade.Queue

open Sdk Sdk.Queue

variable {V : Type}

/-- `pickle::decode_value`, for a type that serde decodes with `decode`. -/
def decodeValue (decode : Bytes → Except Text V) (bytes : Bytes) : Except Sdk.Error V :=
  (decode bytes).mapError .codec

/-- `first_decoded`. -/
def firstDecoded (decode : Bytes → Except Text V) (values : List Bytes) :
    Except Sdk.Error (Option V) :=
  match values.head? with
  | none => .ok none
  | some b => (decodeValue decode b).map some

/-- `decode_values`. -/
def decodeValues (decode : Bytes → Except Text V) (values : List Bytes) :
    Except Sdk.Error (List V) :=
  values.mapM (decodeValue decode)

/-- A typed get. -/
inductive Op
  /-- `get`. -/
  | get
  /-- `get_many`. -/
  | getMany (n : ℕ)
  deriving DecidableEq

/-- How many items are asked for. -/
def Op.wanted : Op → ℕ
  | .get => 1
  | .getMany n => n

/-- What a typed get returns. -/
def Op.Result (V : Type) : Op → Type
  | .get => Option V
  | .getMany _ => List V

/-- The values that are returned. -/
def Op.values : (op : Op) → op.Result V → List V
  | .get, value => Option.toList value
  | .getMany _, values => values

/-- Decode what `get_raw` returned. -/
def Op.decoded (decode : Bytes → Except Text V) :
    (op : Op) → Except Sdk.Error (List Bytes) → Except Sdk.Error (op.Result V)
  | .get, raw => raw.bind (firstDecoded decode)
  | .getMany _, raw => raw.bind (decodeValues decode)

/-- A call of a typed get, with the polls that the server answers it with. -/
structure Call where
  /-- The target type. -/
  V : Type
  /-- How serde decodes it. -/
  decode : Bytes → Except Text V
  /-- The operation. -/
  op : Op
  /-- The timeout. -/
  timeout : Option Duration
  /-- The instant at which the call begins. -/
  start : ℕ
  /-- The polls. -/
  polls : List Poll

namespace Call

variable (limit : ℕ) (queueId : Text) (call : Call)

/-- `get_raw`. -/
def getRaw : Sdk.Queue.Run :=
  queueGetBlocking limit queueId call.op.wanted call.timeout call.start call.polls

/-- What the call returns, if it returns. -/
def outcome : Option (Except Sdk.Error (call.op.Result call.V)) :=
  match (call.getRaw limit queueId).ending with
  | .returned raw => some (call.op.decoded call.decode raw)
  | _ => none

/-- The polls that were issued. -/
def issued : List Poll := call.polls.take (call.getRaw limit queueId).issues.length

/-- The items that the server popped for the call: those of its replies. -/
def popped : List Bytes :=
  (call.issued limit queueId).flatMap fun poll => poll.reply.toOption.getD []

end Call

/-- The server pops for every call exactly the items that it returns, from the head of the queue
and no more than are asked for. -/
structure Served (limit : ℕ) (queueId : Text) (queue : List Bytes) (calls : List Call)
    (rest : List Bytes) : Prop where
  /-- The items come from the head of the queue. -/
  popped : queue = calls.flatMap (Call.popped limit queueId) ++ rest
  /-- No reply has more items than were asked for. -/
  bounded : ∀ call ∈ calls, ∀ poll ∈ call.issued limit queueId, ∀ values, poll.reply = .ok values →
    values.length ≤ Sdk.buildQueueGetRequest call.op.wanted

/-- The items that a call has popped are accounted for. -/
structure Accounted (limit : ℕ) (queueId : Text) (call : Call) : Prop where
  /-- A call that succeeds returns every item decoded, in order. -/
  returned : ∀ result, call.outcome limit queueId = some (.ok result) →
    (call.popped limit queueId).map call.decode = (call.op.values result).map .ok
  /-- A call that fails has popped nothing, or a batch with an item that does not decode; the error
  is that of the first such item. -/
  failed : ∀ err, call.outcome limit queueId = some (.error err) →
    call.popped limit queueId = [] ∨
      ∃ before bad after e, call.popped limit queueId = before ++ bad :: after ∧
        (∀ item ∈ before, ∃ v, call.decode item = .ok v) ∧ call.decode bad = .error e ∧
        err = .codec e
  /-- `get` loses no item but the one that does not decode. -/
  single : call.op = .get → (call.popped limit queueId).length ≤ 1
  /-- A call that does not return has popped nothing. -/
  nothing : call.outcome limit queueId = none → call.popped limit queueId = []

/-- The call returns the item as a decoded value. -/
def Call.Returns (limit : ℕ) (queueId : Text) (call : Call) (item : Bytes) : Prop :=
  ∃ result v, call.outcome limit queueId = some (.ok result) ∧ v ∈ call.op.values result ∧
    call.decode item = .ok v

/-- The call reports an item that it has popped and that does not decode. -/
def Call.Reports (limit : ℕ) (queueId : Text) (call : Call) (bad : Bytes) : Prop :=
  bad ∈ call.popped limit queueId ∧ ∃ e, call.decode bad = .error e ∧
    call.outcome limit queueId = some (.error (.codec e))

/-- A value that decodes. -/
theorem decode_of_decodeValue {decode : Bytes → Except Text V} {bytes : Bytes} {v : V}
    (hok : decodeValue decode bytes = .ok v) : decode bytes = .ok v := by
  unfold decodeValue at hok
  cases hdecode : decode bytes with
  | error e =>
    rw [hdecode] at hok
    cases hok
  | ok w =>
    rw [hdecode] at hok
    cases hok
    rfl

/-- A value that does not decode. -/
theorem exists_of_decodeValue_error {decode : Bytes → Except Text V} {bytes : Bytes}
    {err : Sdk.Error} (herror : decodeValue decode bytes = .error err) :
    ∃ e, decode bytes = .error e ∧ err = .codec e := by
  unfold decodeValue at herror
  cases hdecode : decode bytes with
  | error e =>
    rw [hdecode] at herror
    cases herror
    exact ⟨e, rfl, rfl⟩
  | ok w =>
    rw [hdecode] at herror
    cases herror

/-- The polls of a call: nothing was found before the last one, and a call that returns has the
reply of that one. -/
theorem exists_of_issued (limit : ℕ) (queueId : Text) (call : Call) :
    match (call.getRaw limit queueId).ending with
    | .returned raw => ∃ before poll, call.issued limit queueId = before ++ [poll] ∧
        (∀ p ∈ before, p.reply = .ok []) ∧ poll.reply = raw
    | _ => ∀ p ∈ call.issued limit queueId, p.reply = .ok [] := by
  unfold Call.issued
  by_cases hinstant : ∀ d, call.timeout = some d → call.start + d.nanos < limit
  · have hmeets := (meets_queueGetBlocking_iff limit queueId call.op.wanted call.timeout
      call.start call.polls).mpr hinstant
    change Meets _ _ _ _ (call.getRaw limit queueId) at hmeets
    cases hending : (call.getRaw limit queueId).ending with
    | panicked => exact absurd hending hmeets.calm
    | polling =>
      obtain ⟨hlength, hnothing⟩ := hmeets.goesOn hending
      rw [hlength, List.take_length]
      exact hnothing
    | returned result =>
      obtain ⟨before, poll, after, hpolls, hbefore, hreply, hlength⟩ :=
        hmeets.returns result hending
      refine ⟨before, poll, ?_, hbefore, hreply⟩
      rw [hlength, hpolls, List.take_append, List.take_of_length_le (by omega),
        Nat.add_sub_cancel_left]
      rfl
  · have hpanic : call.getRaw limit queueId = ⟨[], call.start, .panicked⟩ := by
      unfold Call.getRaw queueGetBlocking
      cases htimeout : call.timeout with
      | none => exact absurd (fun d hd => nomatch htimeout.symm.trans hd) hinstant
      | some d =>
        dsimp only
        rw [if_neg]
        intro hlimit
        refine hinstant fun d' hd' => ?_
        rw [htimeout] at hd'
        cases hd'
        exact hlimit
    rw [hpanic]
    intro p hp
    rw [List.length_nil, List.take_zero] at hp
    exact absurd hp (List.not_mem_nil)

/-- Nothing is popped by polls that find nothing. -/
theorem flatMap_of_quiet {polls : List Poll} (hquiet : ∀ poll ∈ polls, poll.reply = .ok []) :
    (polls.flatMap fun poll => poll.reply.toOption.getD []) = [] := by
  rw [List.flatMap_eq_nil_iff]
  intro poll hpoll
  rw [hquiet poll hpoll]
  rfl

/-- The items that a call pops are those of the batch that it gets. -/
theorem popped_eq (limit : ℕ) (queueId : Text) (call : Call) :
    call.popped limit queueId =
      match (call.getRaw limit queueId).ending with
      | .returned (.ok values) => values
      | _ => [] := by
  have hissued := exists_of_issued limit queueId call
  unfold Call.popped
  cases hending : (call.getRaw limit queueId).ending with
  | panicked =>
    rw [hending] at hissued
    exact flatMap_of_quiet hissued
  | polling =>
    rw [hending] at hissued
    exact flatMap_of_quiet hissued
  | returned raw =>
    rw [hending] at hissued
    obtain ⟨before, poll, heq, hbefore, hreply⟩ := hissued
    rw [heq, List.flatMap_append, flatMap_of_quiet hbefore, List.nil_append,
      List.flatMap_singleton, hreply]
    cases raw <;> rfl

/-- What a call returns is what it makes of the batch that was popped. -/
theorem exists_of_outcome {limit : ℕ} {queueId : Text} {call : Call}
    {result : Except Sdk.Error (call.op.Result call.V)}
    (houtcome : call.outcome limit queueId = some result) :
    ∃ raw, result = call.op.decoded call.decode raw ∧
      call.popped limit queueId = raw.toOption.getD [] := by
  have hpopped := popped_eq limit queueId call
  unfold Call.outcome at houtcome
  cases hending : (call.getRaw limit queueId).ending with
  | panicked =>
    rw [hending] at houtcome
    cases houtcome
  | polling =>
    rw [hending] at houtcome
    cases houtcome
  | returned raw =>
    rw [hending] at houtcome hpopped
    refine ⟨raw, (Option.some.inj houtcome).symm, ?_⟩
    rw [hpopped]
    cases raw <;> rfl

/-- A batch that is decoded gives the values of all its items, in order. -/
theorem map_of_decoded_ok {decode : Bytes → Except Text V} {op : Op}
    {raw : Except Sdk.Error (List Bytes)} {result : op.Result V}
    (hbounded : op = .get → (raw.toOption.getD []).length ≤ 1)
    (hok : op.decoded decode raw = .ok result) :
    (raw.toOption.getD []).map decode = (op.values result).map .ok := by
  cases raw with
  | error err => cases op <;> cases hok
  | ok items =>
    change items.map decode = _
    cases op with
    | get =>
      have hone : items.length ≤ 1 := hbounded rfl
      change firstDecoded decode items = .ok result at hok
      match items, hone, hok with
      | [], _, hok =>
        cases hok
        rfl
      | [item], _, hok =>
        obtain ⟨v, hv, hresult⟩ := exists_of_map_ok hok
        rw [← hresult]
        exact congrArg (fun x => [x]) (decode_of_decodeValue hv)
    | getMany n =>
      exact (map_eq_of_mapM_ok (fun _ _ hv => (decode_of_decodeValue hv).symm) hok).symm

/-- A batch that fails has an item that does not decode, and the error is that of the first. -/
theorem exists_of_decoded_error {decode : Bytes → Except Text V} {op : Op} {items : List Bytes}
    {err : Sdk.Error} (herror : op.decoded decode (.ok items) = .error err) :
    ∃ before bad after e, items = before ++ bad :: after ∧
      (∀ item ∈ before, ∃ v, decode item = .ok v) ∧ decode bad = .error e ∧ err = .codec e := by
  cases op with
  | get =>
    change firstDecoded decode items = .error err at herror
    match items, herror with
    | item :: items, herror =>
      change (decodeValue decode item).map some = .error err at herror
      cases hvalue : decodeValue decode item with
      | ok v =>
        rw [hvalue] at herror
        cases herror
      | error err' =>
        rw [hvalue] at herror
        obtain ⟨e, hdecode, heq⟩ := exists_of_decodeValue_error hvalue
        cases herror
        exact ⟨[], item, items, e, rfl, nofun, hdecode, heq⟩
  | getMany n =>
    obtain ⟨before, bad, after, hsplit, hbefore, hbad⟩ := exists_of_mapM_error herror
    obtain ⟨e, hdecode, heq⟩ := exists_of_decodeValue_error hbad
    refine ⟨before, bad, after, e, hsplit, fun item hitem => ?_, hdecode, heq⟩
    obtain ⟨v, hv⟩ := hbefore item hitem
    exact ⟨v, decode_of_decodeValue hv⟩

/-- A batch is no longer than the call asked for. -/
theorem length_popped_le {limit : ℕ} {queueId : Text} {call : Call}
    (hbounded : ∀ poll ∈ call.issued limit queueId, ∀ values, poll.reply = .ok values →
      values.length ≤ Sdk.buildQueueGetRequest call.op.wanted)
    (hget : call.op = .get) : (call.popped limit queueId).length ≤ 1 := by
  have hissued := exists_of_issued limit queueId call
  rw [popped_eq]
  cases hending : (call.getRaw limit queueId).ending with
  | panicked => exact Nat.zero_le 1
  | polling => exact Nat.zero_le 1
  | returned raw =>
    rw [hending] at hissued
    obtain ⟨before, poll, heq, -, hreply⟩ := hissued
    cases raw with
    | error _ => exact Nat.zero_le 1
    | ok values =>
      have hlength := hbounded poll (by rw [heq]; simp) values hreply
      rw [hget] at hlength
      exact hlength

/-- The items of one call are accounted for, if the server returns no more than it was asked for. -/
theorem accounted (limit : ℕ) (queueId : Text) (call : Call)
    (hbounded : ∀ poll ∈ call.issued limit queueId, ∀ values, poll.reply = .ok values →
      values.length ≤ Sdk.buildQueueGetRequest call.op.wanted) :
    Accounted limit queueId call where
  returned result houtcome := by
    obtain ⟨raw, hresult, hpopped⟩ := exists_of_outcome houtcome
    rw [hpopped]
    refine map_of_decoded_ok (fun hget => ?_) hresult.symm
    rw [← hpopped]
    exact length_popped_le hbounded hget
  failed err houtcome := by
    obtain ⟨raw, hresult, hpopped⟩ := exists_of_outcome houtcome
    rw [hpopped]
    cases raw with
    | error _ => exact .inl rfl
    | ok items => exact .inr (exists_of_decoded_error hresult.symm)
  single := length_popped_le hbounded
  nothing houtcome := by
    rw [popped_eq]
    unfold Call.outcome at houtcome
    cases hending : (call.getRaw limit queueId).ending with
    | panicked => rfl
    | polling => rfl
    | returned raw =>
      rw [hending] at houtcome
      cases houtcome

/-- An item that a call has popped is returned, or the call reports an item of the same batch; for
`get` that item is the one that was popped. -/
theorem returns_or_reports {limit : ℕ} {queueId : Text} {call : Call}
    (haccounted : Accounted limit queueId call) {item : Bytes}
    (hitem : item ∈ call.popped limit queueId) :
    call.Returns limit queueId item ∨ ∃ bad, call.Reports limit queueId bad ∧
      (call.op = .get → bad = item) := by
  cases houtcome : call.outcome limit queueId with
  | none =>
    rw [haccounted.nothing houtcome] at hitem
    exact absurd hitem List.not_mem_nil
  | some outcome =>
    cases outcome with
    | ok result =>
      have hdecode : call.decode item ∈ (call.op.values result).map .ok := by
        rw [← haccounted.returned result houtcome]
        exact List.mem_map_of_mem hitem
      obtain ⟨v, hv, heq⟩ := List.mem_map.mp hdecode
      exact .inl ⟨result, v, houtcome, hv, heq.symm⟩
    | error err =>
      rcases haccounted.failed err houtcome with
        hnone | ⟨before, bad, after, e, hsplit, -, hbad, heq⟩
      · rw [hnone] at hitem
        exact absurd hitem List.not_mem_nil
      have hmem : bad ∈ call.popped limit queueId := by
        rw [hsplit]
        exact List.mem_append_right _ List.mem_cons_self
      refine .inr ⟨bad, ⟨hmem, e, hbad, by rw [houtcome, heq]⟩, fun hget => ?_⟩
      obtain ⟨only, honly⟩ := List.length_eq_one_iff.mp
        (Nat.le_antisymm (haccounted.single hget) (List.length_pos_of_mem hmem))
      rw [honly, List.mem_singleton] at hmem hitem
      rw [hmem, hitem]

/-- **No item disappears without an error**: whatever the queue holds and whatever the types that
the calls decode into, every call accounts for the items that it has popped, and an item that is no
longer in the queue is returned or is in a batch whose first undecodable item is reported. -/
theorem popped_items_accounted (limit : ℕ) (queueId : Text) (queue : List Bytes)
    (calls : List Call) (rest : List Bytes) (hserved : Served limit queueId queue calls rest) :
    (∀ call ∈ calls, Accounted limit queueId call) ∧
      ∀ item ∈ queue, item ∈ rest ∨ ∃ call ∈ calls, item ∈ call.popped limit queueId ∧
        (call.Returns limit queueId item ∨ ∃ bad, call.Reports limit queueId bad ∧
          (call.op = .get → bad = item)) := by
  have haccounted : ∀ call ∈ calls, Accounted limit queueId call := fun call hcall =>
    accounted limit queueId call (hserved.bounded call hcall)
  refine ⟨haccounted, fun item hitem => ?_⟩
  rw [hserved.popped, List.mem_append, List.mem_flatMap] at hitem
  rcases hitem with ⟨call, hcall, hpopped⟩ | hrest
  · exact .inr ⟨call, hcall, hpopped, returns_or_reports (haccounted call hcall) hpopped⟩
  · exact .inl hrest

/-- A type that decodes from the pickles of the small naturals. -/
def smallNat : Bytes → Except Text ℕ
  | [0x80, 3, 0x4B, n, 0x2E] => .ok n.toNat
  | _ => .error "invalid type".toList

/-- The pickle of 1. -/
def pickledOne : Bytes := [0x80, 3, 0x4B, 1, 0x2E]

/-- The pickle of the text `no`. -/
def pickledText : Bytes := [0x80, 3, 0x58, 2, 0, 0, 0, 0x6E, 0x6F, 0x2E]

/-- A call that asks for two items, is answered with the two pickles and decodes them as
naturals. -/
def mixedCall : Call :=
  ⟨ℕ, smallNat, .getMany 2, none, 0, [⟨0, .ok [pickledOne, pickledText], 0⟩]⟩

/-- The server pops the two items for the call. -/
theorem served_mixedCall :
    Served 10 "qu-1".toList [pickledOne, pickledText] [mixedCall] [] where
  popped := rfl
  bounded := by
    intro call hcall poll hpoll values hreply
    rw [List.mem_singleton] at hcall
    subst hcall
    rw [show mixedCall.issued 10 "qu-1".toList = mixedCall.polls from rfl] at hpoll
    change poll ∈ [_] at hpoll
    rw [List.mem_singleton] at hpoll
    subst hpoll
    cases hreply
    decide

/-- The call fails with the error of the second item. -/
theorem popped_items_accounted_mixed : ∃ bad, mixedCall.Reports 10 "qu-1".toList bad := by
  obtain ⟨-, hitems⟩ := popped_items_accounted 10 "qu-1".toList [pickledOne, pickledText]
    [mixedCall] [] served_mixedCall
  rcases hitems pickledOne (by decide) with hrest | ⟨call, hcall, -, hcase⟩
  · exact absurd hrest List.not_mem_nil
  rw [List.mem_singleton] at hcall
  subst hcall
  rcases hcase with ⟨result, v, houtcome, -⟩ | ⟨bad, hreports, -⟩
  · cases houtcome
  · exact ⟨bad, hreports⟩

/-- The first item of that batch decodes, is popped and is not returned. -/
theorem good_item_is_discarded :
    ¬ ∀ limit queueId queue calls rest, Served limit queueId queue calls rest →
      ∀ call ∈ calls, ∀ item ∈ call.popped limit queueId,
        call.Returns limit queueId item ∨ ∃ e, call.decode item = .error e := by
  intro hclaim
  rcases hclaim 10 "qu-1".toList _ _ [] served_mixedCall mixedCall List.mem_cons_self pickledOne
    List.mem_cons_self with ⟨result, v, houtcome, -⟩ | ⟨e, hdecode⟩
  · cases houtcome
  · cases hdecode

end ModalRust.Facade.Queue
