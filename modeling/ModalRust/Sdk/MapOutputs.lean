import ModalRust.ReorderBuffer
import ModalRust.Sdk.ExactlyOnce
import ModalRust.Sdk.FunctionCreate

/-!
# Ordered map

The output polls of `map_cbor` in `ops/invoke.rs`. The outputs arrive in batches, are gathered by
the input ordinal that each carries, and are put in order once there are as many as inputs.
-/

namespace ModalRust.Sdk

open ReorderBuffer

/-- An `i32`, as its bits. -/
abbrev I32 := BitVec 32

/-- `as i32` on a count. -/
def asI32 (n : ℕ) : I32 := BitVec.ofNat 32 n

/-- Different inputs have different ordinals, up to `2 ^ 32` of them. -/
theorem asI32_injective {i j : ℕ} (hi : i < 2 ^ 32) (hj : j < 2 ^ 32) (hsame : asI32 i = asI32 j) :
    i = j := by
  have hmod := congrArg BitVec.toNat hsame
  rwa [asI32, asI32, BitVec.toNat_ofNat, BitVec.toNat_ofNat, Nat.mod_eq_of_lt hi,
    Nat.mod_eq_of_lt hj] at hmod

/-- `GenericStatus`. -/
inductive GenericStatus
  /-- Unspecified. -/
  | unspecified
  /-- Success. -/
  | success
  /-- Failure. -/
  | failure
  /-- The task was killed by a signal. -/
  | terminated
  /-- Timeout. -/
  | timeout
  /-- The function failed to initialize. -/
  | initFailure
  /-- Internal failure. -/
  | internalFailure
  /-- The sandbox was idle for too long. -/
  | idleTimeout
  deriving DecidableEq

/-- `GenericStatus::try_from`, with the default for unknown numbers. -/
def GenericStatus.ofI32 (n : I32) : GenericStatus :=
  match n.toNat with
  | 1 => .success
  | 2 => .failure
  | 3 => .terminated
  | 4 => .timeout
  | 5 => .initFailure
  | 6 => .internalFailure
  | 7 => .idleTimeout
  | _ => .unspecified

/-- `as_str_name` of a status. -/
def GenericStatus.name : GenericStatus → Text
  | .unspecified => "GENERIC_STATUS_UNSPECIFIED".toList
  | .success => "GENERIC_STATUS_SUCCESS".toList
  | .failure => "GENERIC_STATUS_FAILURE".toList
  | .terminated => "GENERIC_STATUS_TERMINATED".toList
  | .timeout => "GENERIC_STATUS_TIMEOUT".toList
  | .initFailure => "GENERIC_STATUS_INIT_FAILURE".toList
  | .internalFailure => "GENERIC_STATUS_INTERNAL_FAILURE".toList
  | .idleTimeout => "GENERIC_STATUS_IDLE_TIMEOUT".toList

/-- The payload of a result. -/
inductive DataOneof
  /-- Inline data. -/
  | data (bytes : Bytes)
  /-- The id of a blob. -/
  | dataBlobId (id : Text)
  deriving DecidableEq

/-- `GenericResult`. -/
structure GenericResult where
  /-- The number of the status. -/
  status : I32
  /-- The exception of a failure. -/
  exception : Text
  /-- The traceback of a failure. -/
  traceback : Text
  /-- The payload. -/
  dataOneof : Option DataOneof
  deriving DecidableEq

/-- One returned output. -/
structure OutputItem where
  /-- The input ordinal. -/
  idx : I32
  /-- The number of the data format. -/
  dataFormat : I32
  /-- The result. -/
  result : Option GenericResult
  deriving DecidableEq

/-- `DataFormat::try_from`, where `none` is the unspecified format. -/
def DataFormat.ofI32 (n : I32) : Option DataFormat :=
  match n.toNat with
  | 1 => some .pickle
  | 2 => some .asgi
  | 3 => some .generatorDone
  | 4 => some .cbor
  | _ => none

/-- `as_str_name` of a data format. -/
def formatName : Option DataFormat → Text
  | none => "DATA_FORMAT_UNSPECIFIED".toList
  | some .pickle => "DATA_FORMAT_PICKLE".toList
  | some .asgi => "DATA_FORMAT_ASGI".toList
  | some .generatorDone => "DATA_FORMAT_GENERATOR_DONE".toList
  | some .cbor => "DATA_FORMAT_CBOR".toList

/-- `Invocation`. -/
structure Invocation where
  /-- The data. -/
  data : Bytes
  /-- The format of the data. -/
  dataFormat : Option DataFormat

/-- The hint for a container that was killed without an error. -/
def killedHint : Text :=
  "\n\nhint: the remote container was killed with no error output — most often ".toList ++
    "an OUT-OF-MEMORY kill during a heavy in-body `cargo build` (e.g. a GPU/ML ".toList ++
    "crate). For such crates, prefer `modal-rust deploy` (builds at image-build ".toList ++
    "time with full resources, not in the function body) with a CUDA base image ".toList ++
    "and more memory:\n  ".toList ++
    "MODAL_RUST_BASE_IMAGE=nvidia/cuda:<tag>-devel MODAL_RUST_INSTALL_RUST=1 ".toList ++
    "modal-rust deploy <fn> --app <name>\n".toList ++
    "then call it with `modal-rust call <fn> --app <name> --input '\x7b...\x7d'`. Also ".toList ++
    "raise `memory=` on the #[modal_rust::function]. The build log (lost ".toList ++
    "client-side when the container is killed) is in `modal app logs`. See ".toList ++
    "docs/local/burn-add-run-failure.md.".toList

/-- `describe_failure`. -/
def describeFailure (context : Text) (status : GenericStatus) (result : GenericResult) : Text :=
  context ++ " failed with ".toList ++ status.name ++
    (if result.exception.isEmpty then [] else ": ".toList ++ result.exception) ++
    (if result.traceback.isEmpty then [] else '\n' :: result.traceback) ++
    (if result.exception.isEmpty && result.traceback.isEmpty &&
        (status == .terminated || status == .timeout) then killedHint else [])

variable {R : Type} (decode : Bytes → Except Text R)

/-- `decode_cbor`, for a type that serde decodes with `decode`. -/
def Invocation.decodeCbor (invocation : Invocation) : Except Error R :=
  if invocation.dataFormat ≠ some .cbor then
    .error (.codec ("expected CBOR output, got ".toList ++ formatName invocation.dataFormat))
  else (decode invocation.data).mapError fun e => .codec ("cbor decode: ".toList ++ e)

/-- What `map_cbor` makes of an output: a value, nothing while it is pending, or an error. -/
def OutputItem.value (item : OutputItem) : Except Error (Option R) :=
  match item.result with
  | none => .error (.build "FunctionGetOutputs item had no result".toList)
  | some result =>
    match GenericStatus.ofI32 result.status with
    | .success =>
      match result.dataOneof with
      | some (.dataBlobId _) =>
        .error (.build ("function returned a blob result; blob fetch is not yet ".toList ++
          "implemented (inline results only for now)".toList))
      | some (.data bytes) =>
        ((Invocation.mk bytes (DataFormat.ofI32 item.dataFormat)).decodeCbor decode).map some
      | none => ((Invocation.mk [] (DataFormat.ofI32 item.dataFormat)).decodeCbor decode).map some
    | .unspecified => .ok none
    | status => .error (.build (describeFailure "map function call".toList status result))

/-- Gather one output. -/
def gatherOutput (got : Buffer I32 R) (item : OutputItem) : Except Error (Buffer I32 R) := do
  match ← item.value decode with
  | some value => return got.insert item.idx value
  | none => return got

/-- Gather a batch of outputs. -/
def gatherBatch (got : Buffer I32 R) (outputs : List OutputItem) : Except Error (Buffer I32 R) :=
  outputs.foldlM (gatherOutput decode) got

/-- `reassemble_in_order`. -/
def reassembleInOrder (got : Buffer I32 R) (n : ℕ) : Except Error (List R) :=
  (takeInOrder asI32 n 0 got).mapError fun i =>
    .build ("map output reassembly is missing index ".toList ++ Nat.toDigits 10 i ++
      " of ".toList ++ Nat.toDigits 10 n)

/-- One round of the poll loop. -/
inductive Poll
  /-- The deadline has passed. -/
  | deadline
  /-- The request failed, after its retries. -/
  | failed (e : Error)
  /-- A response. -/
  | response (outputs : List OutputItem)

/-- The poll loop of `map_cbor`, and what it returns once it ends. -/
def pollLoop (functionCallId : Text) (deadlineSecs n : ℕ) :
    Buffer I32 R → List Poll → Option (Except Error (List R))
  | got, [] => if got.keys.length < n then none else some (reassembleInOrder got n)
  | got, poll :: polls =>
    if got.keys.length < n then
      match poll with
      | .deadline =>
        some (.error (.deadline ("map call ".toList ++ functionCallId ++ " produced ".toList ++
          Nat.toDigits 10 got.keys.length ++ " of ".toList ++ Nat.toDigits 10 n ++
          " outputs within ".toList ++ Nat.toDigits 10 deadlineSecs ++ "s".toList)))
      | .failed e => some (.error e)
      | .response outputs =>
        match gatherBatch decode got outputs with
        | .error e => some (.error e)
        | .ok got => pollLoop functionCallId deadlineSecs n got polls
    else some (reassembleInOrder got n)

/-- `map_cbor` with the given encoding of each input, and what it returns once it ends. -/
def mapCbor (net : Net) (server : Server) (deadlineSecs : ℕ) (inputs : List (Except Error Bytes))
    (polls : List Poll) : Option (Except Error (List R)) :=
  if inputs.isEmpty then some (.ok [])
  else
    match (openMapAndEnqueue net inputs server).result with
    | .error e => some (.error e)
    | .ok functionCallId => pollLoop decode functionCallId deadlineSecs inputs.length ∅ polls

/-- The values that a batch carries, with their ordinals. -/
def carried (outputs : List OutputItem) : List (I32 × R) :=
  outputs.filterMap fun item => ((item.value decode).toOption.bind id).map fun value =>
    (item.idx, value)

/-- No output of a batch is an error. -/
def Finished (outputs : List OutputItem) : Prop :=
  ∀ item ∈ outputs, ∃ value, item.value decode = .ok value

/-- The outputs of poll rounds that are all responses. -/
def responses : List (List OutputItem) → List Poll := List.map .response

/-- The server delivers: it accepts the call and all its inputs, and it answers every poll with
outputs that are pending or succeeded, among them one that succeeded for every input. -/
structure Delivers (net : Net) (server : Server) (inputs : List (Except Error Bytes))
    (polls : List Poll) (batches : List (List OutputItem)) : Prop where
  /-- The call is open and has its inputs. -/
  opened : ∃ functionCallId, (openMapAndEnqueue net inputs server).result = .ok functionCallId
  /-- Every poll is answered. -/
  answered : polls = responses batches
  /-- No output is an error. -/
  finished : Finished decode batches.flatten
  /-- Every input has an output. -/
  complete : ∀ i < inputs.length, asI32 i ∈ (carried decode batches.flatten).map Prod.fst

/-- The values are in the order of the inputs, each decoded from an output of its input. -/
def Placed (n : ℕ) (outputs : List OutputItem) (values : List R) : Prop :=
  values.length = n ∧ ∀ i value, values[i]? = some value → ∃ item ∈ outputs,
    item.idx = asI32 i ∧ item.value decode = .ok (some value)

/-- The outputs of poll rounds, up to the first round without a response. -/
def outputsOf : List Poll → List OutputItem
  | .response outputs :: polls => outputs ++ outputsOf polls
  | _ => []

/-- There are at most `2 ^ 32` inputs, and as soon as the batches so far carry as many distinct
ordinals as there are inputs, they carry those of all inputs. -/
def CountedInFull (n : ℕ) (batches : List (List OutputItem)) : Prop :=
  n ≤ 2 ^ 32 ∧ ∀ k,
    n ≤ ((carried decode (batches.take k).flatten).map Prod.fst).toFinset.card →
      ∀ i < n, asI32 i ∈ (carried decode (batches.take k).flatten).map Prod.fst

variable {decode}

/-- Values carried by two batches. -/
theorem carried_append (outputs later : List OutputItem) :
    carried decode (outputs ++ later) = carried decode outputs ++ carried decode later :=
  List.filterMap_append

/-- A carried value is the value of an output. -/
theorem exists_of_mem_carried {outputs : List OutputItem} {idx : I32} {value : R}
    (hmem : (idx, value) ∈ carried decode outputs) :
    ∃ item ∈ outputs, item.idx = idx ∧ item.value decode = .ok (some value) := by
  obtain ⟨item, hitem, hcarried⟩ := List.mem_filterMap.mp hmem
  obtain ⟨value', hvalue', heq⟩ := Option.map_eq_some_iff.mp hcarried
  obtain ⟨rfl, rfl⟩ := Prod.mk.inj heq
  refine ⟨item, hitem, rfl, ?_⟩
  cases hvalue : item.value decode with
  | error e =>
    rw [hvalue] at hvalue'
    cases hvalue'
  | ok result =>
    rw [hvalue] at hvalue'
    exact congrArg Except.ok hvalue'

/-- The value of an output is carried. -/
theorem mem_carried {outputs : List OutputItem} {item : OutputItem} {value : R}
    (hitem : item ∈ outputs) (hvalue : item.value decode = .ok (some value)) :
    (item.idx, value) ∈ carried decode outputs :=
  List.mem_filterMap.mpr ⟨item, hitem, by rw [hvalue]; rfl⟩

/-- Gathering a batch gathers what it carries, or fails. -/
theorem gatherBatch_eq {got got' : Buffer I32 R} {outputs : List OutputItem}
    (hbatch : gatherBatch decode got outputs = .ok got') :
    got' = gather got (carried decode outputs) := by
  induction outputs generalizing got with
  | nil =>
    cases hbatch
    rfl
  | cons item outputs ih =>
    have hcons : gatherBatch decode got (item :: outputs) =
        (gatherOutput decode got item).bind fun got => gatherBatch decode got outputs := rfl
    rw [hcons, gatherOutput] at hbatch
    cases hvalue : item.value decode with
    | error e =>
      rw [hvalue] at hbatch
      cases hbatch
    | ok value =>
      have hhead : carried decode (item :: outputs) =
          (value.map fun value => (item.idx, value)).toList ++ carried decode outputs := by
        unfold carried
        rw [List.filterMap_cons, hvalue]
        cases value <;> rfl
      rw [hvalue] at hbatch
      rw [hhead]
      cases value with
      | none => exact ih hbatch
      | some value => exact ih hbatch

/-- A batch without errors is gathered. -/
theorem exists_gatherBatch {outputs : List OutputItem} (hfinished : Finished decode outputs)
    (got : Buffer I32 R) : ∃ got', gatherBatch decode got outputs = .ok got' := by
  induction outputs generalizing got with
  | nil => exact ⟨got, rfl⟩
  | cons item outputs ih =>
    obtain ⟨value, hvalue⟩ := hfinished item List.mem_cons_self
    have hrest : Finished decode outputs := fun item hitem =>
      hfinished item (List.mem_cons_of_mem _ hitem)
    have hcons : gatherBatch decode got (item :: outputs) =
        (gatherOutput decode got item).bind fun got => gatherBatch decode got outputs := rfl
    rw [hcons, gatherOutput, hvalue]
    cases value with
    | none => exact ih hrest got
    | some value => exact ih hrest (got.insert item.idx value)

/-- What the gathered ordinals are. -/
theorem mem_gather_carried {outputs : List OutputItem} {idx : I32} :
    idx ∈ gather ∅ (carried decode outputs) ↔ idx ∈ (carried decode outputs).map Prod.fst := by
  rw [mem_gather]
  simp

/-- Values that are put in order are each decoded from an output of their input. -/
theorem placed_of_reassemble {outputs : List OutputItem} {n : ℕ} {values : List R}
    (hvalues : reassembleInOrder (gather ∅ (carried decode outputs)) n = .ok values) :
    Placed decode n outputs values := by
  unfold reassembleInOrder at hvalues
  cases htake : takeInOrder asI32 n 0 (gather ∅ (carried decode outputs)) with
  | error i =>
    rw [htake] at hvalues
    cases hvalues
  | ok taken =>
    rw [htake] at hvalues
    cases hvalues
    obtain ⟨hlength, hlookup⟩ := lookup_of_takeInOrder htake
    refine ⟨hlength, fun i value hi => ?_⟩
    have hgot := hlookup i value hi
    rw [Nat.zero_add] at hgot
    rcases mem_of_lookup_gather hgot with hmem | hnone
    · exact exists_of_mem_carried hmem
    · rw [AList.lookup_empty] at hnone
      cases hnone

/-- Values can be put in order exactly if every input has one, for up to `2 ^ 32` inputs. -/
theorem exists_reassemble_iff {outputs : List OutputItem} {n : ℕ} (hn : n ≤ 2 ^ 32) :
    (∃ values, reassembleInOrder (gather ∅ (carried decode outputs)) n = .ok values) ↔
      ∀ i < n, asI32 i ∈ (carried decode outputs).map Prod.fst := by
  constructor
  · rintro ⟨values, hvalues⟩ i hi
    obtain ⟨hlength, hplaced⟩ := placed_of_reassemble hvalues
    have hsome : values[i]? = some values[i] := List.getElem?_eq_getElem (by omega)
    obtain ⟨item, hitem, hidx, hvalue⟩ := hplaced i values[i] hsome
    exact hidx ▸ List.mem_map_of_mem (mem_carried hitem hvalue)
  · intro hall
    obtain ⟨values, htake⟩ := exists_takeInOrder asI32 n 0 (gather ∅ (carried decode outputs))
      (fun j hj => mem_gather_carried.mpr (by rw [Nat.zero_add]; exact hall j hj))
      (fun j hj j' hj' hkey => by
        rw [Nat.zero_add, Nat.zero_add] at hkey
        exact asI32_injective (by omega) (by omega) hkey)
    exact ⟨values, by rw [reassembleInOrder, htake]; rfl⟩

/-- There are at most `2 ^ 32` ordinals. -/
theorem card_ordinals_le (ordinals : Finset I32) : ordinals.card ≤ 2 ^ 32 := by
  have hcard := Finset.card_le_card_of_injOn (s := ordinals) (t := Finset.range (2 ^ 32))
    BitVec.toNat (fun x _ => by simpa using x.isLt) fun x _ y _ hxy => BitVec.eq_of_toNat_eq hxy
  rwa [Finset.card_range] at hcard

variable {functionCallId : Text} {deadlineSecs n : ℕ}

/-- The loop ends once there are as many ordinals as inputs. -/
theorem pollLoop_of_le {got : Buffer I32 R} (hle : n ≤ got.keys.length) (polls : List Poll) :
    pollLoop decode functionCallId deadlineSecs n got polls = some (reassembleInOrder got n) := by
  cases polls with
  | nil => rw [pollLoop, if_neg (by omega)]
  | cons poll polls => cases poll <;> rw [pollLoop, if_neg (by omega)]

/-- Before, the loop gathers the next response. -/
theorem pollLoop_response {got got' : Buffer I32 R} {outputs : List OutputItem}
    (hlt : got.keys.length < n) (hbatch : gatherBatch decode got outputs = .ok got')
    (polls : List Poll) :
    pollLoop decode functionCallId deadlineSecs n got (.response outputs :: polls) =
      pollLoop decode functionCallId deadlineSecs n got' polls := by
  rw [pollLoop, if_pos hlt]
  simp only [hbatch]

/-- The loop that has gathered enough returns values that are in the order of the inputs. -/
theorem placed_of_enough {outputs : List OutputItem} {values : List R}
    (hle : n ≤ (gather ∅ (carried decode outputs)).keys.length)
    (hvalues : reassembleInOrder (gather ∅ (carried decode outputs)) n = .ok values)
    (later : List OutputItem) : Placed decode n (outputs ++ later) values ∧ n ≤ 2 ^ 32 := by
  obtain ⟨hlength, hplaced⟩ := placed_of_reassemble hvalues
  refine ⟨⟨hlength, fun i value hi => ?_⟩, ?_⟩
  · obtain ⟨item, hitem, hidx⟩ := hplaced i value hi
    exact ⟨item, List.mem_append_left _ hitem, hidx⟩
  · rw [length_keys_gather] at hle
    exact hle.trans (card_ordinals_le _)

/-- If the loop returns values, they are in the order of the inputs, and there are at most `2 ^ 32`
inputs. -/
theorem placed_of_pollLoop {outputs : List OutputItem} {polls : List Poll} {values : List R}
    (hloop : pollLoop decode functionCallId deadlineSecs n (gather ∅ (carried decode outputs))
      polls = some (.ok values)) :
    Placed decode n (outputs ++ outputsOf polls) values ∧ n ≤ 2 ^ 32 := by
  induction polls generalizing outputs with
  | nil =>
    rw [pollLoop] at hloop
    split at hloop
    · cases hloop
    · exact placed_of_enough (by omega) (Option.some.inj hloop) []
  | cons poll polls ih =>
    by_cases hle : n ≤ (gather ∅ (carried decode outputs)).keys.length
    · rw [pollLoop_of_le hle] at hloop
      exact placed_of_enough hle (Option.some.inj hloop) _
    · cases poll with
      | deadline =>
        rw [pollLoop, if_pos (by omega)] at hloop
        cases hloop
      | failed e =>
        rw [pollLoop, if_pos (by omega)] at hloop
        cases hloop
      | response later =>
        cases hbatch : gatherBatch decode (gather ∅ (carried decode outputs)) later with
        | error e =>
          rw [pollLoop, if_pos (by omega)] at hloop
          simp only [hbatch] at hloop
          cases hloop
        | ok got =>
          rw [pollLoop_response (by omega) hbatch, gatherBatch_eq hbatch, ← gather_append,
            ← carried_append] at hloop
          have hresult := ih hloop
          rwa [List.append_assoc] at hresult

/-- If every poll is answered without errors and every input has an output, the loop returns values
exactly if it never counts enough ordinals before it has those of all inputs. -/
theorem exists_pollLoop_iff (hn : n ≤ 2 ^ 32) {outputs : List OutputItem}
    {batches : List (List OutputItem)} (hfinished : Finished decode batches.flatten)
    (hall : ∀ i < n, asI32 i ∈ (carried decode (outputs ++ batches.flatten)).map Prod.fst) :
    (∃ values, pollLoop decode functionCallId deadlineSecs n (gather ∅ (carried decode outputs))
        (responses batches) = some (.ok values)) ↔
      ∀ k, n ≤ ((carried decode (outputs ++ (batches.take k).flatten)).map
          Prod.fst).toFinset.card →
        ∀ i < n, asI32 i ∈ (carried decode (outputs ++ (batches.take k).flatten)).map Prod.fst := by
  -- once there are enough ordinals, the result is decided, and all later prefixes have enough
  have henough {outputs : List OutputItem} (batches : List (List OutputItem))
      (hle : n ≤ (gather ∅ (carried decode outputs)).keys.length) :
      (∃ values, pollLoop decode functionCallId deadlineSecs n (gather ∅ (carried decode outputs))
          (responses batches) = some (.ok values)) ↔
        ∀ k, n ≤ ((carried decode (outputs ++ (batches.take k).flatten)).map
            Prod.fst).toFinset.card →
          ∀ i < n, asI32 i ∈
            (carried decode (outputs ++ (batches.take k).flatten)).map Prod.fst := by
    rw [pollLoop_of_le hle]
    simp only [Option.some.injEq]
    rw [exists_reassemble_iff hn]
    rw [length_keys_gather] at hle
    constructor
    · intro hall k _ i hi
      rw [carried_append, List.map_append]
      exact List.mem_append_left _ (hall i hi)
    · intro hall
      have hzero := hall 0
      rw [List.take_zero, List.flatten_nil, List.append_nil] at hzero
      exact hzero hle
  induction batches generalizing outputs with
  | nil =>
    -- all inputs have an output already, so there are enough ordinals
    refine henough [] ?_
    rw [List.flatten_nil, List.append_nil] at hall
    obtain ⟨values, hvalues⟩ := (exists_reassemble_iff hn).mpr hall
    rw [length_keys_gather]
    have hinjective : Set.InjOn asI32 (Finset.range n) := fun i hi j hj hij =>
      asI32_injective (by simp at hi; omega) (by simp at hj; omega) hij
    calc n = ((Finset.range n).image asI32).card := by
            rw [Finset.card_image_of_injOn hinjective, Finset.card_range]
      _ ≤ _ := Finset.card_le_card fun idx hidx => by
            obtain ⟨i, hi, rfl⟩ := Finset.mem_image.mp hidx
            exact List.mem_toFinset.mpr (hall i (Finset.mem_range.mp hi))
  | cons batch batches ih =>
    by_cases hlt : (gather ∅ (carried decode outputs)).keys.length < n
    · have hhead : Finished decode batch := fun item hitem =>
        hfinished item (List.mem_append_left _ hitem)
      have htail : Finished decode batches.flatten := fun item hitem =>
        hfinished item (List.mem_append_right _ hitem)
      obtain ⟨got, hbatch⟩ := exists_gatherBatch hhead (gather ∅ (carried decode outputs))
      have hloop : pollLoop decode functionCallId deadlineSecs n (gather ∅ (carried decode outputs))
          (responses (batch :: batches)) =
            pollLoop decode functionCallId deadlineSecs n got (responses batches) :=
        pollLoop_response hlt hbatch (responses batches)
      rw [gatherBatch_eq hbatch, ← gather_append, ← carried_append] at hloop
      have hrest := @ih (outputs ++ batch) htail (by rwa [List.append_assoc])
      rw [← hloop] at hrest
      refine hrest.trans ⟨fun h k => ?_, fun h k => ?_⟩
      · cases k with
        | zero =>
          intro hle
          rw [length_keys_gather] at hlt
          rw [List.take_zero, List.flatten_nil, List.append_nil] at hle
          omega
        | succ k =>
          have hk := h k
          rwa [List.append_assoc] at hk
      · have hk := h (k + 1)
        rwa [List.append_assoc]
    · exact henough _ (by omega)

/-- **Ordered map.** For every list of inputs and every sequence of poll rounds: a delivery makes
`map_cbor` return, and what it returns is in the order of the inputs, each value decoded from an
output of its input, exactly if no delivery makes it count in part. -/
theorem map_ordered_iff (decode : Bytes → Except Text R) (net : Net) (server : Server)
    (deadlineSecs : ℕ) (inputs : List (Except Error Bytes)) (polls : List Poll) :
    ((∀ batches, Delivers decode net server inputs polls batches →
        ∃ values, mapCbor decode net server deadlineSecs inputs polls = some (.ok values)) ∧
      ∀ values, mapCbor decode net server deadlineSecs inputs polls = some (.ok values) →
        Placed decode inputs.length (outputsOf polls) values) ↔
      ∀ batches, Delivers decode net server inputs polls batches →
        CountedInFull decode inputs.length batches := by
  cases inputs with
  | nil =>
    refine iff_of_true ⟨fun _ _ => ⟨[], rfl⟩, fun values hvalues => ?_⟩ fun batches _ => ?_
    · cases hvalues
      exact ⟨rfl, by simp⟩
    · exact ⟨by simp, fun k _ i hi => absurd hi (by simp)⟩
  | cons input inputs =>
    cases hopen : (openMapAndEnqueue net (input :: inputs) server).result with
    | error e =>
      have hnone {batches : List (List OutputItem)} :
          ¬ Delivers decode net server (input :: inputs) polls batches := by
        intro hdelivers
        obtain ⟨functionCallId, hok⟩ := hdelivers.opened
        rw [hopen] at hok
        cases hok
      refine iff_of_true ⟨fun _ hdelivers => absurd hdelivers hnone, fun values hvalues => ?_⟩
        fun _ hdelivers => absurd hdelivers hnone
      simp only [mapCbor, List.isEmpty_cons, hopen] at hvalues
      cases hvalues
    | ok functionCallId =>
      have hmap : mapCbor decode net server deadlineSecs (input :: inputs) polls =
          pollLoop decode functionCallId deadlineSecs (input :: inputs).length
            (gather ∅ (carried decode [])) polls := by
        simp only [mapCbor, List.isEmpty_cons, hopen]
        rfl
      rw [hmap]
      constructor
      · rintro ⟨hreturns, -⟩ batches hdelivers
        obtain ⟨values, hvalues⟩ := hreturns batches hdelivers
        have hn := (placed_of_pollLoop hvalues).2
        rw [hdelivers.answered] at hvalues
        exact ⟨hn, (exists_pollLoop_iff hn hdelivers.finished hdelivers.complete).mp
          ⟨values, hvalues⟩⟩
      · intro hcounted
        refine ⟨fun batches hdelivers => ?_, fun values hvalues => (placed_of_pollLoop hvalues).1⟩
        obtain ⟨hn, hprefixes⟩ := hcounted batches hdelivers
        rw [hdelivers.answered]
        exact (exists_pollLoop_iff hn hdelivers.finished hdelivers.complete).mpr hprefixes

/-- An output that succeeded with empty data. -/
def succeeded (idx : I32) : OutputItem :=
  ⟨idx, 4, some ⟨1, [], [], some (.data [])⟩⟩

/-- A delivery for two inputs: the first poll also returns an output of a third input. -/
def strayDelivery : List (List OutputItem) := [[succeeded 0, succeeded 7], [succeeded 1]]

/-- A stray output makes `map_cbor` stop before the second input has an output. -/
theorem map_fails_on_stray :
    Delivers Except.ok reliable emptyServer [.ok [], .ok []] (responses strayDelivery)
        strayDelivery ∧
      mapCbor (Except.ok : Bytes → Except Text Bytes) reliable emptyServer 600 [.ok [], .ok []]
          (responses strayDelivery) =
        some (.error (.build "map output reassembly is missing index 1 of 2".toList)) := by
  refine ⟨⟨⟨_, rfl⟩, rfl, ?_, ?_⟩, rfl⟩
  · intro item hitem
    have houtputs : strayDelivery.flatten = [succeeded 0, succeeded 7, succeeded 1] := rfl
    rw [houtputs] at hitem
    simp only [List.mem_cons, List.not_mem_nil, or_false] at hitem
    rcases hitem with rfl | rfl | rfl <;> exact ⟨_, rfl⟩
  · intro i hi
    have hi2 : i < 2 := hi
    have hcarried : (carried (Except.ok : Bytes → Except Text Bytes) strayDelivery.flatten).map
        Prod.fst = [0, 7, 1] := rfl
    rw [hcarried]
    have hcases : i = 0 ∨ i = 1 := by omega
    rcases hcases with rfl | rfl <;> decide

end ModalRust.Sdk
