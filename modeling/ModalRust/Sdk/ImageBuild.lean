import ModalRust.Duration
import ModalRust.Sdk.MapOutputs

/-!
# Polling an image build

The long poll of `poll_image_build`: stream windows are opened and drained one after another, each
from the last entry that was seen, until one of them brings a terminal event. The server may answer
every window in any way. The outcome is the first terminal event of all windows together.
-/

namespace ModalRust.Sdk.ImageBuild

/-! ### The source -/

/-- Terminal state of a polled remote result. -/
inductive ResultState
  /-- Not finished yet. -/
  | pending
  /-- Terminal success. -/
  | success
  /-- Terminal failure with its status and result. -/
  | failure (status : GenericStatus) (result : GenericResult)
  deriving DecidableEq

/-- `result_status`. -/
def resultStatus : Option GenericResult → ResultState
  | none => .pending
  | some r =>
    match GenericStatus.ofI32 r.status with
    | .unspecified => .pending
    | .success => .success
    | other => .failure other r

/-- `ImageJoinStreamingRequest`. -/
structure ImageJoinStreamingRequest where
  /-- The image. -/
  imageId : Text
  /-- The window in seconds. -/
  timeout : ℚ
  /-- The entry after which the server resumes. -/
  lastEntryId : Text
  /-- Whether a finished build sends its logs. -/
  includeLogsForFinished : Bool
  deriving DecidableEq

/-- `ImageJoinStreamingResponse`. -/
structure ImageJoinStreamingResponse where
  /-- The result, if there is one. -/
  result : Option GenericResult
  /-- The lines of the log. -/
  taskLogs : List Text
  /-- The id of the entry, or nothing. -/
  entryId : Text
  deriving DecidableEq

/-- `JOIN_STREAM_TIMEOUT_SECS`. -/
def joinStreamTimeoutSecs : ℚ := 55

/-- `BUILD_DEADLINE`. -/
def buildDeadline : Duration := .fromSecs 600

/-- A stream window, as the client sees it. -/
structure Window where
  /-- The time since the start when the client decides to open the window. -/
  elapsed : Duration
  /-- The messages. -/
  items : List ImageJoinStreamingResponse
  /-- The error that ends the window, which may come before the first message, or a clean end. -/
  error : Option Error

/-- `last_entry_id` after a message. -/
def advance (lastEntryId : Text) (item : ImageJoinStreamingResponse) : Text :=
  if item.entryId.isEmpty then lastEntryId else item.entryId

/-- The failure of a build. -/
def buildFailure (status : GenericStatus) (result : GenericResult) : Error :=
  .build (describeFailure "image build".toList status result)

/-- `drain_build_window`: whether the build has succeeded, with `last_entry_id` at the end. -/
def drainBuildWindow (error : Option Error) :
    Text → List ImageJoinStreamingResponse → Except Error Bool × Text
  | lastEntryId, [] =>
    match error with
    | none => (.ok false, lastEntryId)
    | some err => (.error err, lastEntryId)
  | lastEntryId, item :: items =>
    match resultStatus item.result with
    | .success => (.ok true, advance lastEntryId item)
    | .failure status result => (.error (buildFailure status result), advance lastEntryId item)
    | .pending => drainBuildWindow error (advance lastEntryId item) items

/-- The request for a window. -/
def joinRequest (imageId lastEntryId : Text) : ImageJoinStreamingRequest :=
  ⟨imageId, joinStreamTimeoutSecs, lastEntryId, true⟩

/-- A run of the poll. -/
structure Poll where
  /-- The requests. -/
  requests : List ImageJoinStreamingRequest
  /-- The outcome, if the poll has ended. -/
  outcome : Option (Except Error Unit)
  deriving DecidableEq

/-- A run that begins with one more request. -/
def Poll.after (request : ImageJoinStreamingRequest) (poll : Poll) : Poll :=
  { poll with requests := request :: poll.requests }

/-- The loop of `poll_image_build`, over the windows that the server answers with. -/
def pollFrom (imageId : Text) : Text → List Window → Poll
  | _, [] => ⟨[], none⟩
  | lastEntryId, window :: windows =>
    if buildDeadline.nanos < window.elapsed.nanos then
      ⟨[], some (.error (.build ("image build ".toList ++ imageId ++
        " did not finish within 600s".toList)))⟩
    else
      Poll.after (joinRequest imageId lastEntryId)
        (match drainBuildWindow window.error lastEntryId window.items with
        | (.ok true, _) => ⟨[], some (.ok ())⟩
        | (.ok false, lastEntryId) => pollFrom imageId lastEntryId windows
        | (.error err, lastEntryId) =>
          if err.isTransient then pollFrom imageId lastEntryId windows
          else ⟨[], some (.error err)⟩)

/-- `poll_image_build`. -/
def pollImageBuild (imageId : Text) (windows : List Window) : Poll := pollFrom imageId [] windows

/-! ### What the server says -/

/-- A terminal event. -/
inductive Event
  /-- The build has succeeded. -/
  | success
  /-- The build has failed. -/
  | failure (result : GenericResult)
  /-- The connection has failed for good. -/
  | transport (error : Error)

/-- The terminal event of a message: of the statuses of the protocol, `0` is no result yet, `1` is
success, and the others are failures. -/
def terminal (item : ImageJoinStreamingResponse) : Option Event :=
  item.result.bind fun result =>
    if result.status.toNat = 0 then none
    else if result.status.toNat = 1 then some .success
    else some (.failure result)

/-- The terminal events of a window, in order. -/
def Window.events (window : Window) : List Event :=
  window.items.filterMap terminal ++
    (window.error.filter fun error => !error.isTransient).toList.map .transport

/-- The outcome that an event means. -/
def Event.outcome : Event → Except Error Unit
  | .success => .ok ()
  | .failure result => .error (buildFailure (.ofI32 result.status) result)
  | .transport error => .error error

/-- The statuses of all results are in the protocol. -/
def Window.Known (window : Window) : Prop :=
  ∀ item ∈ window.items, ∀ result ∈ item.result, result.status.toNat < 8

/-- The last entry id that is not empty, or nothing. -/
def lastEntry (items : List ImageJoinStreamingResponse) : Text :=
  ((items.map ImageJoinStreamingResponse.entryId).filter (· ≠ [])).getLast?.getD []

/-- The windows that are opened: up to the first that has a terminal event. -/
def opened (windows : List Window) : ℕ :=
  min windows.length ((windows.takeWhile fun window => window.events.isEmpty).length + 1)

/-- A run of the poll reports the truth about the windows that it was answered with. -/
structure Truthful (imageId : Text) (windows : List Window) (poll : Poll) : Prop where
  /-- The outcome is the first terminal event of all windows. -/
  outcome : poll.outcome = (windows.flatMap Window.events).head?.map Event.outcome
  /-- A window is opened as long as there was no terminal event. -/
  count : poll.requests.length = opened windows
  /-- Every window resumes from the last entry that was seen. -/
  resumes : ∀ i < poll.requests.length, poll.requests[i]? =
    some (joinRequest imageId (lastEntry ((windows.take i).flatMap Window.items)))

/-! ### The poll is truthful -/

/-- A message is no transport failure. -/
theorem terminal_cases {item : ImageJoinStreamingResponse} {event : Event}
    (hterminal : terminal item = some event) :
    event = .success ∨ ∃ result, item.result = some result ∧ event = .failure result := by
  obtain ⟨result, hresult, hevent⟩ := Option.bind_eq_some_iff.mp hterminal
  by_cases hzero : result.status.toNat = 0
  · rw [if_pos hzero] at hevent
    cases hevent
  rw [if_neg hzero] at hevent
  by_cases hone : result.status.toNat = 1
  · rw [if_pos hone] at hevent
    cases hevent
    exact .inl rfl
  · rw [if_neg hone] at hevent
    cases hevent
    exact .inr ⟨result, hresult, rfl⟩

/-- The state of a result whose status is in the protocol. -/
theorem resultStatus_eq {item : ImageJoinStreamingResponse}
    (hknown : ∀ result ∈ item.result, result.status.toNat < 8) :
    resultStatus item.result =
      match terminal item with
      | some (.failure result) => .failure (.ofI32 result.status) result
      | some _ => .success
      | none => .pending := by
  unfold terminal
  cases hresult : item.result with
  | none => rfl
  | some result =>
    have hlt := hknown result hresult
    have hn : result.status.toNat = 0 ∨ result.status.toNat = 1 ∨ result.status.toNat = 2 ∨
        result.status.toNat = 3 ∨ result.status.toNat = 4 ∨ result.status.toNat = 5 ∨
        result.status.toNat = 6 ∨ result.status.toNat = 7 := by omega
    rcases hn with hn | hn | hn | hn | hn | hn | hn | hn <;>
      simp [resultStatus, GenericStatus.ofI32, hn]

/-- The state of the first message decides whether the window is drained further. -/
theorem drainBuildWindow_cons {error : Option Error} {lastEntryId : Text}
    {item : ImageJoinStreamingResponse} {items : List ImageJoinStreamingResponse}
    (hknown : ∀ result ∈ item.result, result.status.toNat < 8) :
    drainBuildWindow error lastEntryId (item :: items) =
      match terminal item with
      | some event => (event.outcome.map fun _ => true, advance lastEntryId item)
      | none => drainBuildWindow error (advance lastEntryId item) items := by
  have hstatus := resultStatus_eq hknown
  rw [drainBuildWindow]
  cases hterminal : terminal item with
  | none =>
    rw [hterminal] at hstatus
    rw [hstatus]
  | some event =>
    rw [hterminal] at hstatus
    rcases terminal_cases hterminal with rfl | ⟨result, -, rfl⟩
    · rw [hstatus]
      rfl
    · rw [hstatus]
      rfl

/-- A window with a terminal message ends with the first one. -/
theorem drainBuildWindow_of_event (error : Option Error) (lastEntryId : Text)
    {items : List ImageJoinStreamingResponse} {event : Event}
    (hknown : ∀ item ∈ items, ∀ result ∈ item.result, result.status.toNat < 8)
    (hevent : (items.filterMap terminal).head? = some event) :
    (drainBuildWindow error lastEntryId items).1 = event.outcome.map fun _ => true := by
  induction items generalizing lastEntryId with
  | nil => cases hevent
  | cons item items ih =>
    rw [drainBuildWindow_cons (hknown item List.mem_cons_self)]
    cases hterminal : terminal item with
    | none =>
      rw [List.filterMap_cons, hterminal] at hevent
      exact ih _ (fun other hmem => hknown other (List.mem_cons_of_mem _ hmem)) hevent
    | some first =>
      rw [List.filterMap_cons, hterminal] at hevent
      cases hevent
      rfl

/-- A window without a terminal message is read to its end. -/
theorem drainBuildWindow_of_nil {error : Option Error} {lastEntryId : Text}
    {items : List ImageJoinStreamingResponse}
    (hknown : ∀ item ∈ items, ∀ result ∈ item.result, result.status.toNat < 8)
    (hnone : items.filterMap terminal = []) :
    drainBuildWindow error lastEntryId items =
      ((match error with
        | none => .ok false
        | some err => .error err), items.foldl advance lastEntryId) := by
  induction items generalizing lastEntryId with
  | nil => cases error <;> rfl
  | cons item items ih =>
    rw [drainBuildWindow_cons (hknown item List.mem_cons_self)]
    cases hterminal : terminal item with
    | none =>
      rw [List.filterMap_cons, hterminal] at hnone
      exact ih (fun other hmem => hknown other (List.mem_cons_of_mem _ hmem)) hnone
    | some event =>
      rw [List.filterMap_cons, hterminal] at hnone
      cases hnone

/-- The cursor is the last entry. -/
theorem foldl_advance (items : List ImageJoinStreamingResponse) (lastEntryId : Text) :
    items.foldl advance lastEntryId =
      ((items.map ImageJoinStreamingResponse.entryId).filter (· ≠ [])).getLast?.getD
        lastEntryId := by
  induction items generalizing lastEntryId with
  | nil => rfl
  | cons item items ih =>
    rw [List.foldl_cons, ih, List.map_cons]
    unfold advance
    by_cases hid : item.entryId = []
    · rw [if_pos (List.isEmpty_iff.mpr hid), List.filter_cons_of_neg (by simp [hid])]
    · rw [if_neg (by simpa using hid), List.filter_cons_of_pos (by simpa using hid),
        List.getLast?_cons, Option.getD_some]

/-- An in-band failure is never taken for a transport error that may pass. -/
theorem not_isTransient_of_terminal {event : Event} {item : ImageJoinStreamingResponse}
    (hterminal : terminal item = some event) {err : Error} (herror : event.outcome = .error err) :
    err.isTransient = false := by
  rcases terminal_cases hterminal with rfl | ⟨result, -, rfl⟩
  · cases herror
  · cases herror
    rfl

/-- One window: the poll ends with its first terminal event, or goes on from the last entry. -/
theorem pollFrom_cons {imageId lastEntryId : Text} {window : Window} {windows : List Window}
    (hknown : window.Known) (htime : window.elapsed.nanos ≤ buildDeadline.nanos) :
    pollFrom imageId lastEntryId (window :: windows) =
      Poll.after (joinRequest imageId lastEntryId)
        (match window.events.head? with
        | some event => ⟨[], some event.outcome⟩
        | none => pollFrom imageId (window.items.foldl advance lastEntryId) windows) := by
  rw [pollFrom, if_neg (by omega)]
  unfold Window.events
  cases hevent : (window.items.filterMap terminal).head? with
  | some event =>
    obtain ⟨rest, hcons⟩ := List.head?_eq_some_iff.mp hevent
    obtain ⟨item, -, hterminal⟩ := List.mem_filterMap.mp
      (hcons ▸ List.mem_cons_self : event ∈ window.items.filterMap terminal)
    have hdrain := drainBuildWindow_of_event window.error lastEntryId hknown hevent
    have hhead : (window.items.filterMap terminal ++
        (window.error.filter fun error => !error.isTransient).toList.map Event.transport).head? =
          some event := by
      rw [hcons]
      rfl
    rw [hhead]
    refine congrArg (Poll.after _) ?_
    generalize drainBuildWindow window.error lastEntryId window.items = drained at hdrain
    obtain ⟨result, cursor⟩ := drained
    dsimp only at hdrain
    change _ = Poll.mk [] (some event.outcome)
    rw [hdrain]
    cases houtcome : event.outcome with
    | ok _ => rfl
    | error err =>
      have hfinal := not_isTransient_of_terminal hterminal houtcome
      dsimp only [Except.map]
      rw [hfinal, if_neg Bool.false_ne_true]
  | none =>
    have hnone : window.items.filterMap terminal = [] := List.head?_eq_none_iff.mp hevent
    rw [drainBuildWindow_of_nil hknown hnone, hnone, List.nil_append]
    refine congrArg (Poll.after _) ?_
    cases window.error with
    | none => rfl
    | some err =>
      dsimp only
      cases htransient : err.isTransient with
      | true =>
        rw [if_pos rfl, Option.filter_some, htransient]
        rfl
      | false =>
        rw [if_neg Bool.false_ne_true, Option.filter_some, htransient]
        rfl

/-- **The poll from a cursor.** -/
theorem pollFrom_truthful (imageId lastEntryId : Text) {windows : List Window}
    (hknown : ∀ window ∈ windows, window.Known)
    (htime : ∀ window ∈ windows, window.elapsed.nanos ≤ buildDeadline.nanos) :
    (pollFrom imageId lastEntryId windows).outcome =
        (windows.flatMap Window.events).head?.map Event.outcome ∧
      (pollFrom imageId lastEntryId windows).requests.length = opened windows ∧
      ∀ i < (pollFrom imageId lastEntryId windows).requests.length,
        (pollFrom imageId lastEntryId windows).requests[i]? =
          some (joinRequest imageId
            (((windows.take i).flatMap Window.items).foldl advance lastEntryId)) := by
  induction windows generalizing lastEntryId with
  | nil => exact ⟨rfl, rfl, nofun⟩
  | cons window windows ih =>
    obtain ⟨houtcome, hcount, hresumes⟩ := ih (window.items.foldl advance lastEntryId)
      (fun other hmem => hknown other (List.mem_cons_of_mem _ hmem))
      (fun other hmem => htime other (List.mem_cons_of_mem _ hmem))
    rw [pollFrom_cons (hknown window List.mem_cons_self) (htime window List.mem_cons_self)]
    cases hevents : window.events with
    | cons event events =>
      refine ⟨?_, ?_, ?_⟩
      · rw [List.flatMap_cons, hevents]
        rfl
      · unfold opened
        rw [List.takeWhile_cons_of_neg (by simp [hevents])]
        simp [Poll.after]
      · intro i hi
        have hzero : i = 0 := by simpa [Poll.after] using hi
        subst hzero
        rfl
    | nil =>
      refine ⟨?_, ?_, ?_⟩
      · rw [List.flatMap_cons, hevents, List.nil_append]
        exact houtcome
      · unfold opened at hcount ⊢
        rw [List.takeWhile_cons_of_pos (by simp [hevents])]
        simp only [Poll.after, List.head?_nil, List.length_cons, hcount]
        omega
      · intro i hi
        cases i with
        | zero => rfl
        | succ i =>
          rw [List.take_succ_cons, List.flatMap_cons, List.foldl_append]
          exact hresumes i (by simpa [Poll.after] using hi)

/-- **Polling an image build reports the true outcome**: for all windows before the deadline, with
results of known statuses, it is the first terminal event, and every window resumes from the last
entry that was seen. -/
theorem pollImageBuild_truthful (imageId : Text) {windows : List Window}
    (hknown : ∀ window ∈ windows, window.Known)
    (htime : ∀ window ∈ windows, window.elapsed.nanos ≤ buildDeadline.nanos) :
    Truthful imageId windows (pollImageBuild imageId windows) := by
  obtain ⟨houtcome, hcount, hresumes⟩ := pollFrom_truthful imageId [] hknown htime
  refine ⟨houtcome, hcount, fun i hi => ?_⟩
  rw [pollImageBuild, hresumes i hi, foldl_advance]
  rfl

/-- A message with a result. -/
def message (entryId : Text) (status : I32) : ImageJoinStreamingResponse :=
  ⟨some ⟨status, [], [], none⟩, [], entryId⟩

/-- A build that is pending, loses its connection, and fails. -/
def failedBuild : List Window :=
  [⟨.zero, [message "1".toList 0], some connectionReset⟩, ⟨.fromSecs 5, [message [] 2], none⟩]

/-- The result for a build that loses its connection and fails. -/
theorem pollImageBuild_truthful_failed :
    Truthful "im-1".toList failedBuild (pollImageBuild "im-1".toList failedBuild) := by
  refine pollImageBuild_truthful "im-1".toList ?_ ?_
  · intro window hwindow item hitem result hresult
    rcases List.mem_pair.mp hwindow with rfl | rfl
    · rcases List.mem_singleton.mp hitem with rfl
      cases hresult
      decide
    · rcases List.mem_singleton.mp hitem with rfl
      cases hresult
      decide
  · decide +kernel

end ModalRust.Sdk.ImageBuild
