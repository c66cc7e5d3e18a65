import Mathlib.Data.Set.Card
import ModalRust.Facade.Queue
import ModalRust.Sdk.Objects
import ModalRust.Sdk.Pickle

/-!
# Dict and queue handles over the mock backend

The typed calls of `Dict` and `Queue` handles, and their meaning for a program: a dict is a partial
map from keys to values, a queue is a list. Any number of clients may hold handles, delete objects
and create them again. Every run of their calls gets the answers that these meanings give.
-/

namespace ModalRust.Facade.Objects

open NamedObjects Testkit
open Sdk (StrKey encodeStrKey)
open Sdk.Objects (andThen)

variable {V : Type}

/-- What a call returns. -/
inductive Reply (V : Type)
  /-- Nothing. -/
  | unit
  /-- A value, or that there is none. -/
  | value (value : Option V)
  /-- A batch of values. -/
  | values (values : List V)
  /-- A flag. -/
  | flag (flag : Bool)
  /-- A number of entries or items. -/
  | count (n : ℕ)

/-- A typed call on a dict handle. A value that is written comes with the result of
`pickle::encode_value`, and a read with serde's decoder of its type. -/
inductive DictOp (V : Type)
  /-- `get`. -/
  | get (key : StrKey) (decode : Bytes → Except Text V)
  /-- `put`. -/
  | put (key : StrKey) (value : Except Text Bytes)
  /-- `put_if_absent`. -/
  | putIfAbsent (key : StrKey) (value : Except Text Bytes)
  /-- `pop`. -/
  | pop (key : StrKey) (decode : Bytes → Except Text V)
  /-- `contains`. -/
  | contains (key : StrKey)
  /-- `len`. -/
  | len
  /-- `clear`. -/
  | clear

/-- A typed call on a queue handle. A get stands for the look at the queue that ends it. -/
inductive QueueOp (V : Type)
  /-- `put`. -/
  | put (value : Except Text Bytes)
  /-- `put_many`. -/
  | putMany (values : List (Except Text Bytes))
  /-- `get`. -/
  | get (decode : Bytes → Except Text V)
  /-- `get_many`. -/
  | getMany (n : ℕ) (decode : Bytes → Except Text V)
  /-- `len`. -/
  | len
  /-- `clear`. -/
  | clear

/-- `decode_opt`. -/
def decodeOpt (decode : Bytes → Except Text V) :
    Option Bytes → Except Sdk.Error (Option V)
  | none => .ok none
  | some b => (Queue.decodeValue decode b).map some

/-- `Dict::put_raw`. -/
def dictPutRaw (elapsed : ℕ → ℕ) (dictId : Text) (key value : Bytes) : Arm Unit :=
  andThen (Sdk.Objects.dictUpdate elapsed dictId [(key, value)] false) fun _ => .ok ()

/-- `Dict::put_if_absent_raw`. -/
def dictPutIfAbsentRaw (elapsed : ℕ → ℕ) (dictId : Text) (key value : Bytes) : Arm Bool :=
  Sdk.Objects.dictUpdate elapsed dictId [(key, value)] true

/-- `Queue::put_raw`: nothing is sent for no items. -/
def queuePutRaw (elapsed : ℕ → ℕ) (queueId : Text) (values : List Bytes) : Arm Unit :=
  if values.isEmpty then fun m => (m, .ok ()) else Sdk.Objects.queuePut elapsed queueId values

/-- Encode first: nothing is sent if that fails. -/
def encoded {α β : Type} (value : Except Text α) (arm : α → Arm β) : Arm β :=
  match value with
  | .error e => fun m => (m, .error (.codec e))
  | .ok bytes => arm bytes

/-- A dict call, on the id of the handle. -/
def DictOp.perform (elapsed : ℕ → ℕ) (dictId : Text) : DictOp V → Arm (Reply V)
  | .get key decode =>
    andThen (Sdk.Objects.dictGet elapsed dictId (encodeStrKey key)) fun bytes =>
      (decodeOpt decode bytes).map .value
  | .put key value => encoded value fun bytes =>
    andThen (dictPutRaw elapsed dictId (encodeStrKey key) bytes) fun _ => .ok .unit
  | .putIfAbsent key value => encoded value fun bytes =>
    andThen (dictPutIfAbsentRaw elapsed dictId (encodeStrKey key) bytes) fun created =>
      .ok (.flag created)
  | .pop key decode =>
    andThen (Sdk.Objects.dictPop elapsed dictId (encodeStrKey key)) fun bytes =>
      (decodeOpt decode bytes).map .value
  | .contains key =>
    andThen (Sdk.Objects.dictContains elapsed dictId (encodeStrKey key)) fun found =>
      .ok (.flag found)
  | .len => andThen (Sdk.Objects.dictLen elapsed dictId) fun n => .ok (.count n)
  | .clear => andThen (Sdk.Objects.dictClear elapsed dictId) fun _ => .ok .unit

/-- A queue call, on the id of the handle. -/
def QueueOp.perform (elapsed : ℕ → ℕ) (queueId : Text) : QueueOp V → Arm (Reply V)
  | .put value => encoded value fun bytes =>
    andThen (queuePutRaw elapsed queueId [bytes]) fun _ => .ok .unit
  | .putMany values => encoded (values.mapM id) fun bytes =>
    andThen (queuePutRaw elapsed queueId bytes) fun _ => .ok .unit
  | .get decode =>
    andThen (Sdk.Objects.queueGet elapsed queueId 1) fun values =>
      (Queue.firstDecoded decode values).map .value
  | .getMany n decode =>
    andThen (Sdk.Objects.queueGet elapsed queueId n) fun values =>
      (Queue.decodeValues decode values).map .values
  | .len => andThen (Sdk.Objects.queueLen elapsed queueId) fun n => .ok (.count n)
  | .clear => andThen (Sdk.Objects.queueClear elapsed queueId) fun _ => .ok .unit

/-- A call on named objects of one kind: handles are numbered in the order in which their objects
were created. Deleting by name is a resolution and a deletion. -/
inductive NamedCall (Op : Type)
  /-- `from_name` or `lookup`. -/
  | resolve (name : Text) (creationType : ObjectCreationType)
  /-- The second half of `delete`. -/
  | delete (handle : ℕ)
  /-- A call on a handle. -/
  | on (handle : ℕ) (op : Op)

/-- What some client does next. -/
inductive Call (V : Type)
  /-- A call on dicts. -/
  | dict (call : NamedCall (DictOp V))
  /-- A call on queues. -/
  | queue (call : NamedCall (QueueOp V))
  /-- A request that draws an id for something else. -/
  | drawId

/-- The answer to a call. -/
inductive Answer (ε V : Type)
  /-- No client holds such a handle. -/
  | noHandle
  /-- A handle, by its number. -/
  | handle (number : ℕ)
  /-- What the call returned. -/
  | reply (reply : Reply V)
  /-- The error of the call. -/
  | failed (error : ε)

/-- The answer of a call that returns or fails. -/
def Answer.of {ε : Type} : Except ε (Reply V) → Answer ε V
  | .ok r => .reply r
  | .error e => .failed e

/-- The mock backend, and the ids that the clients hold. -/
structure World where
  /-- The server. -/
  servicer : MockServicer
  /-- The dict ids that were returned, in order. -/
  dictIds : List Text
  /-- The queue ids that were returned, in order. -/
  queueIds : List Text

/-- A fresh server without clients. -/
def World.start : World := ⟨.new, [], []⟩

/-- Resolve a name: the server, the ids and the answer. -/
def resolveWith (arm : Arm Text) (ids : List Text) (m : MockServicer) :
    MockServicer × List Text × Answer Sdk.Error V :=
  match arm m with
  | (m', .ok id) => (m', remember ids (some id), .handle (position (remember ids (some id)) id))
  | (m', .error e) => (m', ids, .failed e)

/-- Use a handle. -/
def useHandle (ids : List Text) (handle : ℕ) (arm : Text → Arm (Reply V)) (m : MockServicer) :
    MockServicer × Answer Sdk.Error V :=
  match ids[handle]? with
  | none => (m, .noHandle)
  | some id => ((arm id m).1, .of (arm id m).2)

/-- One call, whose attempts take the times `elapsed`. -/
def World.step (w : World) (elapsed : ℕ → ℕ) : Call V → World × Answer Sdk.Error V
  | .dict (.resolve name creationType) =>
    let r := resolveWith (Sdk.Objects.dictGetOrCreate elapsed name creationType) w.dictIds
      w.servicer
    (⟨r.1, r.2.1, w.queueIds⟩, r.2.2)
  | .dict (.delete handle) =>
    let r := useHandle w.dictIds handle
      (fun id => andThen (Sdk.Objects.dictDelete elapsed id) fun _ => .ok .unit) w.servicer
    ({ w with servicer := r.1 }, r.2)
  | .dict (.on handle op) =>
    let r := useHandle w.dictIds handle (fun id => op.perform elapsed id) w.servicer
    ({ w with servicer := r.1 }, r.2)
  | .queue (.resolve name creationType) =>
    let r := resolveWith (Sdk.Objects.queueGetOrCreate elapsed name creationType) w.queueIds
      w.servicer
    (⟨r.1, w.dictIds, r.2.1⟩, r.2.2)
  | .queue (.delete handle) =>
    let r := useHandle w.queueIds handle
      (fun id => andThen (Sdk.Objects.queueDelete elapsed id) fun _ => .ok .unit) w.servicer
    ({ w with servicer := r.1 }, r.2)
  | .queue (.on handle op) =>
    let r := useHandle w.queueIds handle (fun id => op.perform elapsed id) w.servicer
    ({ w with servicer := r.1 }, r.2)
  | .drawId => ({ w with servicer := w.servicer.nextId.1 }, .reply .unit)

/-- A run of calls of any clients, in the order in which the server answers them. -/
def World.run (w : World) : List (Call V × (ℕ → ℕ)) → World × List (Answer Sdk.Error V)
  | [] => (w, [])
  | (call, elapsed) :: calls =>
    let next := w.step elapsed call
    let rest := World.run next.1 calls
    (rest.1, next.2 :: rest.2)

/-- What a program can tell about an error. -/
inductive Failure
  /-- There is no such object. -/
  | absent
  /-- A value does not encode or decode. -/
  | codec (message : Text)
  /-- Anything else. -/
  | other

/-- What a program can tell about an SDK error. -/
def Failure.of : Sdk.Error → Failure
  | .status .notFound _ => .absent
  | .codec message => .codec message
  | _ => .other

/-- An answer, as far as a program can tell. -/
def Answer.seen : Answer Sdk.Error V → Answer Failure V
  | .noHandle => .noHandle
  | .handle n => .handle n
  | .reply r => .reply r
  | .failed e => .failed (.of e)

/-- A dict, for a program. -/
abbrev DictMeaning := StrKey → Option Bytes

/-- Keys are compared by their characters. -/
instance : DecidableEq StrKey := fun a b =>
  decidable_of_iff (a.text = b.text) ⟨StrKey.ext, congrArg StrKey.text⟩

/-- The number of keys, as far as the wire carries it. -/
noncomputable def DictMeaning.len (d : DictMeaning) : ℕ :=
  min {key | (d key).isSome = true}.ncard (2 ^ 31 - 1)

/-- The value of a key, decoded. -/
def decodedValue (decode : Bytes → Except Text V) : Option Bytes → Except Text (Reply V)
  | none => .ok (.value none)
  | some bytes => (decode bytes).map fun v => .value (some v)

/-- What a dict call means. -/
noncomputable def DictOp.meaning : DictOp V → DictMeaning → DictMeaning × Except Text (Reply V)
  | .get key decode, d => (d, decodedValue decode (d key))
  | .put key (.ok bytes), d => (Function.update d key (some bytes), .ok .unit)
  | .put _ (.error e), d => (d, .error e)
  | .putIfAbsent key (.ok bytes), d =>
    (if (d key).isSome then d else Function.update d key (some bytes),
      .ok (.flag (d key).isNone))
  | .putIfAbsent _ (.error e), d => (d, .error e)
  | .pop key decode, d => (Function.update d key none, decodedValue decode (d key))
  | .contains key, d => (d, .ok (.flag (d key).isSome))
  | .len, d => (d, .ok (.count d.len))
  | .clear, _ => (fun _ => none, .ok .unit)

/-- How many items a get takes at most. -/
def batch (n : ℕ) : ℕ := min (max n 1) (2 ^ 31 - 1)

/-- What a queue call means. -/
def QueueOp.meaning : QueueOp V → List Bytes → List Bytes × Except Text (Reply V)
  | .put (.ok bytes), items => (items ++ [bytes], .ok .unit)
  | .put (.error e), items => (items, .error e)
  | .putMany values, items =>
    match values.mapM id with
    | .ok bytes => (items ++ bytes, .ok .unit)
    | .error e => (items, .error e)
  | .get decode, items =>
    (items.drop 1, match items.head? with
      | none => .ok (.value none)
      | some bytes => (decode bytes).map fun v => .value (some v))
  | .getMany n decode, items =>
    (items.drop (batch n), ((items.take (batch n)).mapM decode).map .values)
  | .len, items => (items, .ok (.count (min items.length (2 ^ 31 - 1))))
  | .clear, _ => ([], .ok .unit)

/-- The answer to a dict call for which nothing is sent. -/
def DictOp.offline : DictOp V → Option (Except Text (Reply V))
  | .put _ (.error e) | .putIfAbsent _ (.error e) => some (.error e)
  | _ => none

/-- The answer to a queue call for which nothing is sent. -/
def QueueOp.offline : QueueOp V → Option (Except Text (Reply V))
  | .put (.error e) => some (.error e)
  | .putMany values =>
    match values.mapM id with
    | .error e => some (.error e)
    | .ok [] => some (.ok .unit)
    | .ok _ => none
  | _ => none

/-- All dicts and queues that ever were. -/
structure Meaning where
  /-- The lives of dicts. -/
  dicts : History Text DictMeaning
  /-- The lives of queues. -/
  queues : History Text (List Bytes)

/-- Nothing has been created. -/
def Meaning.start : Meaning := ⟨[], []⟩

/-- An answer with a codec error. -/
def Answer.ofText : Except Text (Reply V) → Answer Failure V
  | .ok r => .reply r
  | .error e => .failed (.codec e)

/-- What a call on named objects means. -/
def NamedCall.meaning {Op γ : Type} (offline : Op → Option (Except Text (Reply V)))
    (meaning : Op → γ → γ × Except Text (Reply V)) (new : γ) (h : History Text γ) :
    NamedCall Op → History Text γ × Answer Failure V
  | .resolve name creationType =>
    match History.resolve h name (decide (creationType ≠ .unspecified)) new with
    | (h', some i) => (h', .handle i)
    | (h', none) => (h', .failed .absent)
  | .delete i =>
    if i < h.length then
      ((h.delete i).1, if (h.delete i).2 then .reply .unit else .failed .absent)
    else (h, .noHandle)
  | .on i op =>
    if i < h.length then
      match offline op with
      | some answer => (h, .ofText answer)
      | none =>
        match h.apply i (meaning op) with
        | (h', some answer) => (h', .ofText answer)
        | (h', none) => (h', .failed .absent)
    else (h, .noHandle)

/-- What a call means. -/
noncomputable def Meaning.step (a : Meaning) : Call V → Meaning × Answer Failure V
  | .dict call =>
    let r := call.meaning DictOp.offline DictOp.meaning (fun _ => none) a.dicts
    ({ a with dicts := r.1 }, r.2)
  | .queue call =>
    let r := call.meaning QueueOp.offline QueueOp.meaning [] a.queues
    ({ a with queues := r.1 }, r.2)
  | .drawId => (a, .reply .unit)

/-- What a run of calls means. -/
noncomputable def Meaning.run (a : Meaning) : List (Call V) → Meaning × List (Answer Failure V)
  | [] => (a, [])
  | call :: calls =>
    let next := a.step call
    let rest := Meaning.run next.1 calls
    (rest.1, next.2 :: rest.2)

end ModalRust.Facade.Objects
