import ModalRust.Sdk.Transport

/-!
# The mutating client calls

`queue_put`, `queue_get`, `dict_update`, `dict_pop` and the enqueueing heads of
`remote`, `spawn`, `map` and `spawn_map`, each as its sequence of retried RPCs, and
sessions of such calls against one server. A function call's later output polls
enqueue nothing, so only their result appears here.
-/

namespace ModalRust.Sdk

/-- One mutating client call. -/
inductive Op
  /-- `queue_put(queue_id, values)`. -/
  | queuePut (queueId : Text) (values : List Bytes)
  /-- `queue_get(queue_id, n_values, _)`. -/
  | queueGet (queueId : Text) (nValues : ℕ)
  /-- `dict_update(dict_id, entries, if_not_exists)`. -/
  | dictUpdate (dictId : Text) (entries : List (Bytes × Bytes)) (ifNotExists : Bool)
  /-- `dict_pop(dict_id, key)`. -/
  | dictPop (dictId : Text) (key : Bytes)
  /-- `invoke_raw(_, args)`, with the result of its output poll. -/
  | invokeRaw (args : Bytes) (poll : Except Error Bytes)
  /-- `spawn_raw(_, args)`. -/
  | spawnRaw (args : Bytes)
  /-- `map_cbor(_, inputs)`, given the encoding of each input and the result of the
  output polls. -/
  | mapCbor (inputs : List (Except Error Bytes)) (poll : Except Error (List Bytes))
  /-- `spawn_map_cbor(_, inputs)`, given the encoding of each input. -/
  | spawnMapCbor (inputs : List (Except Error Bytes))

/-- What a successful call returns. -/
inductive Reply
  /-- Nothing. -/
  | unit
  /-- The items that `queue_get` popped. -/
  | values (values : List Bytes)
  /-- The `created` flag of `dict_update`. -/
  | created (created : Bool)
  /-- The value that `dict_pop` removed. -/
  | popped (value : Option Bytes)
  /-- The decoded output of `remote`. -/
  | output (data : Bytes)
  /-- The decoded outputs of `map`. -/
  | outputs (data : List Bytes)
  /-- The call id of `spawn`. -/
  | functionCall (functionCallId : Text)
  /-- The call id of `spawn_map`, with the number of inputs. -/
  | functionCalls (functionCallId : Text) (n : ℕ)

/-- The network's and the server's choices in a call: those for its first RPC, and
those for its `FunctionPutInputs`. -/
structure Net where
  /-- The attempts of the first RPC. -/
  first : ℕ → Attempt
  /-- The attempts of `FunctionPutInputs`. -/
  put : ℕ → Attempt

/-- What a call leaves behind: the server, the result, and the lost attempts of its
first RPC and of its `FunctionPutInputs`. -/
structure Done (α : Type) where
  /-- The server after the call. -/
  state : Server
  /-- The result of the call. -/
  result : Except Error α
  /-- The lost attempts of the first RPC. -/
  firstLost : List Attempt
  /-- The lost attempts of `FunctionPutInputs`. -/
  putLost : List Attempt

/-- A call that is one RPC. -/
def Done.ofRpc {α : Type} (net : Net) (serve : Server → Server × Except Error α) (s : Server) :
    Done α :=
  let o := retryRpc net.first (fun _ => serve) s
  ⟨o.state, o.result, o.lost net.first, []⟩

/-- Continue with the result only. -/
def Done.map {α β : Type} (d : Done α) (f : α → Except Error β) : Done β :=
  ⟨d.state, d.result.bind f, d.firstLost, d.putLost⟩

/-- The wire clamp of `build_queue_get_request`: at least one, at most `i32::MAX`. -/
def buildQueueGetRequest (nValues : ℕ) : ℕ := min (max nValues 1) (2 ^ 31 - 1)

/-- The inputs that the server accepts of a request that carries `items`. -/
def Attempt.accepted (a : Attempt) (items : List FunctionPutInputsItem) :
    List FunctionPutInputsItem :=
  items.filter a.accepts

/-- The copies that an applied attempt enqueues under a function call. -/
def Attempt.copies (a : Attempt) (functionCallId : Text) (items : List FunctionPutInputsItem) :
    List (Text × FunctionPutInputsItem) :=
  (a.accepted items).map fun item => (functionCallId, item)

/-- `FunctionMap`: open a call, enqueue the pipelined inputs that the server accepts,
and echo those. -/
def functionMap (items : List FunctionPutInputsItem) (a : Attempt) (s : Server) :
    Server × Except Error (Text × List FunctionPutInputsItem) :=
  (s.enqueue (a.copies a.functionCallId items), .ok (a.functionCallId, a.accepted items))

/-- `FunctionPutInputs`: enqueue the inputs that the server accepts, and echo those. -/
def functionPutInputs (functionCallId : Text) (items : List FunctionPutInputsItem)
    (a : Attempt) (s : Server) : Server × Except Error (List FunctionPutInputsItem) :=
  (s.enqueue (a.copies functionCallId items), .ok (a.accepted items))

/-- `enqueue_pipelined`: open a unary call with the input pipelined, and put the input
if the server did not echo it back. -/
def enqueuePipelined (net : Net) (item : FunctionPutInputsItem) (s : Server) : Done Text :=
  let map := retryRpc net.first (functionMap [item]) s
  let mapLost := map.lost net.first
  match map.result with
  | .error e => ⟨map.state, .error e, mapLost, []⟩
  | .ok (functionCallId, pipelinedInputs) =>
    if functionCallId.isEmpty then
      ⟨map.state, .error (.build "FunctionMap returned an empty function_call_id".toList),
        mapLost, []⟩
    else if pipelinedInputs.isEmpty then
      let put := retryRpc net.put (functionPutInputs functionCallId [item]) map.state
      ⟨put.state, put.result.bind fun inputs =>
        if inputs.isEmpty then
          .error (.build "FunctionPutInputs accepted no inputs (input queue full?)".toList)
        else .ok functionCallId, mapLost, put.lost net.put⟩
    else ⟨map.state, .ok functionCallId, mapLost, []⟩

/-- The items of a map call from index `i` on: the input ordinal is the `idx`. An input
that does not encode aborts the call. -/
def mapItems (i : ℕ) : List (Except Error Bytes) → Except Error (List FunctionPutInputsItem)
  | [] => .ok []
  | input :: inputs => do
    let args ← input
    let items ← mapItems (i + 1) inputs
    return ⟨(i : ℤ).bmod (2 ^ 32), args⟩ :: items

/-- `open_map_and_enqueue`: open an empty map call and put all inputs under it. -/
def openMapAndEnqueue (net : Net) (inputs : List (Except Error Bytes)) (s : Server) :
    Done Text :=
  let map := retryRpc net.first (functionMap []) s
  let mapLost := map.lost net.first
  match map.result with
  | .error e => ⟨map.state, .error e, mapLost, []⟩
  | .ok (functionCallId, _) =>
    if functionCallId.isEmpty then
      ⟨map.state, .error (.build "FunctionMap (MAP) returned an empty function_call_id".toList),
        mapLost, []⟩
    else
      match mapItems 0 inputs with
      | .error e => ⟨map.state, .error e, mapLost, []⟩
      | .ok items =>
        let put := retryRpc net.put (functionPutInputs functionCallId items) map.state
        ⟨put.state, put.result.bind fun accepted =>
          if accepted.length < inputs.length then
            .error (.build ("FunctionPutInputs accepted ".toList ++
              (Nat.toDigits 10 accepted.length) ++ " of ".toList ++
              (Nat.toDigits 10 inputs.length) ++ " inputs (input queue full?)".toList))
          else .ok functionCallId, mapLost, put.lost net.put⟩

/-- The single item of a unary call. -/
def unaryItem (args : Bytes) : FunctionPutInputsItem := ⟨0, args⟩

/-- A client call against a server. -/
def Op.perform (net : Net) (s : Server) : Op → Done Reply
  | .queuePut queueId values =>
    (Done.ofRpc net (Server.queuePut queueId values) s).map fun _ => .ok .unit
  | .queueGet queueId nValues =>
    (Done.ofRpc net (Server.queueGet queueId (buildQueueGetRequest nValues)) s).map
      fun values => .ok (.values values)
  | .dictUpdate dictId entries ifNotExists =>
    (Done.ofRpc net (Server.dictUpdate dictId entries ifNotExists) s).map
      fun created => .ok (.created created)
  | .dictPop dictId key =>
    (Done.ofRpc net (Server.dictPop dictId key) s).map fun value => .ok (.popped value)
  | .invokeRaw args poll =>
    (enqueuePipelined net (unaryItem args) s).map fun _ => poll.map .output
  | .spawnRaw args =>
    (enqueuePipelined net (unaryItem args) s).map fun id => .ok (.functionCall id)
  | .mapCbor inputs poll =>
    if inputs.isEmpty then ⟨s, .ok (.outputs []), [], []⟩
    else (openMapAndEnqueue net inputs s).map fun _ => poll.map .outputs
  | .spawnMapCbor inputs =>
    if inputs.isEmpty then
      ⟨s, .error (.invalid "spawn_map called with zero inputs".toList), [], []⟩
    else (openMapAndEnqueue net inputs s).map fun id => .ok (.functionCalls id inputs.length)

/-- One call of a session, with the server before and after it. -/
structure Record where
  /-- The call. -/
  op : Op
  /-- The server before the call. -/
  before : Server
  /-- What the call left behind. -/
  done : Done Reply

/-- A session: the server now and the calls so far. -/
structure Session where
  /-- The server now. -/
  server : Server
  /-- The calls so far, in order. -/
  log : List Record

/-- The client makes one more call. -/
def Session.call (s : Session) (c : Op × Net) : Option Session :=
  let done := c.1.perform c.2 s.server
  some ⟨done.state, s.log ++ [⟨c.1, s.server, done⟩]⟩

end ModalRust.Sdk
