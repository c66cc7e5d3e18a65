import Mathlib.Logic.Function.Basic
import ModalRust.Machine
import ModalRust.Text

/-!
# Concurrent handler calls on one container

`max_concurrent_inputs > 1` lets one container run several `handler` calls at
once. They share the module-global `_SERVE` child with its two pipes, and the file
`/tmp/in.json` of the one-shot path. Each call takes its steps separately, so a
schedule is any interleaving of the callers with the children's one-line-per-frame
loops. The same steps occur in the deploy wrapper and in the run wrapper.

Envelope lines have an arbitrary type: the wrapper passes them on unread.
-/

namespace ModalRust.Wrapper

/-- The arguments of one `handler(entrypoint, input_json)` call. -/
structure Request where
  /-- The registry key. -/
  entrypoint : String
  /-- The input text, passed on verbatim. -/
  inputJson : Text
  deriving DecidableEq

/-- One envelope that a runner produced. Only `envelope` travels to the wrapper;
the caller whose frame or exec it answers and the request that the runner executed
are recorded to state what a returned envelope belongs to. -/
structure Answer (ι E : Type*) where
  /-- The call for which the runner was run. -/
  origin : ι
  /-- The entrypoint and input that the runner executed. -/
  request : Request
  /-- The line that the runner wrote. -/
  envelope : E
  deriving DecidableEq

/-- One request frame on a child's stdin, with the call that wrote it. -/
structure Frame (ι : Type*) where
  /-- The call that wrote the frame (not part of the frame's text). -/
  caller : ι
  /-- The framed entrypoint and input. -/
  request : Request
  deriving DecidableEq

/-- A `modal_runner --serve` process and its two pipes. -/
structure Child (ι E : Type*) where
  /-- Frames that were written and flushed but not yet read by the serve loop. -/
  stdin : List (Frame ι)
  /-- Envelope lines that the loop wrote and no call has read. -/
  stdout : List (Answer ι E)
  /-- Whether the process is running (`poll()` returns `None`). -/
  alive : Bool
  /-- Calls that wrote a frame and have not read a response, in writing order. The
  wrapper keeps no such list. -/
  waiting : List ι

/-- How far one `handler` call has come. -/
inductive Phase (ι E : Type*)
  /-- The call has not been admitted. -/
  | idle
  /-- `_serve_child()` returned child `k`. -/
  | acquired (k : ℕ)
  /-- The request frame was written to child `k` and flushed. -/
  | written (k : ℕ)
  /-- `_run_one_shot` was entered. -/
  | oneShot
  /-- `/tmp/in.json` is open and `off` characters of the input are written. -/
  | writing (off : ℕ)
  /-- `/tmp/in.json` is closed and the runner is about to be executed. -/
  | closed
  /-- The call returned an envelope. -/
  | returned (answer : Answer ι E)
  /-- The call raised `RuntimeError`. -/
  | raised

/-- The container: the module global `_SERVE`, every child spawned so far, the
content of `/tmp/in.json` and the progress of each call. -/
structure Container (ι E : Type*) where
  /-- The module global `_SERVE`. -/
  serve : Option ℕ
  /-- The children, numbered in the order in which they were spawned. -/
  children : ℕ → Child ι E
  /-- How many children were spawned. -/
  spawned : ℕ
  /-- The content of `/tmp/in.json`. -/
  file : Text
  /-- The progress of each call. -/
  phase : ι → Phase ι E

/-- One atomic step of a call, of a child, or of the process environment. -/
inductive Action (ι E : Type*)
  /-- `handler` is entered and, with serve enabled, `_serve_child()` returns. -/
  | call (c : ι)
  /-- The call writes its frame and flushes. -/
  | write (c : ι)
  /-- Child `k` handles its next frame and writes one envelope line. -/
  | respond (k : ℕ) (envelope : E)
  /-- Child `k` exits; the frames it did not handle are lost. -/
  | exit (k : ℕ)
  /-- The call's `readline` returns. -/
  | read (c : ι)
  /-- The call opens `/tmp/in.json` with mode `w`, which truncates it. -/
  | openFile (c : ι)
  /-- The next `n` characters of the call's input reach the file. -/
  | writeFile (c : ι) (n : ℕ)
  /-- The `with` block ends and the file is closed. -/
  | closeFile (c : ι)
  /-- The call's runner reads the file, runs and exits, with or without an envelope. -/
  | exec (c : ι) (envelope : Option E)

variable {ι E : Type*}

/-- A freshly spawned child. -/
def Child.fresh : Child ι E := ⟨[], [], true, []⟩

/-- Before the first call: no child, no file and no admitted call. -/
def Container.init : Container ι E := ⟨none, fun _ => .fresh, 0, [], fun _ => .idle⟩

/-- Write `chunk` at offset `off`. Offsets past the end, which arise when another
call truncates the file in between, are filled with zero characters. -/
def overwrite (file : Text) (off : ℕ) (chunk : Text) : Text :=
  file.take off ++ List.replicate (off - file.length) '\x00' ++ chunk ++
    file.drop (off + chunk.length)

variable [DecidableEq ι]

/-- Let call `c` continue in phase `p`. -/
def Container.goto (s : Container ι E) (c : ι) (p : Phase ι E) : Container ι E :=
  { s with phase := Function.update s.phase c p }

/-- Replace the state of child `k`. -/
def Container.setChild (s : Container ι E) (k : ℕ) (child : Child ι E) : Container ι E :=
  { s with children := Function.update s.children k child }

/-- Forget the shared child and continue call `c` on the one-shot path. -/
def Container.fallback (s : Container ι E) (c : ι) : Container ι E :=
  { s.goto c .oneShot with serve := none }

/-- `_serve_child()`: reuse a running shared child, otherwise spawn one. -/
def Container.serveChild (s : Container ι E) : ℕ × Container ι E :=
  let spawn := (s.spawned,
    { s.setChild s.spawned .fresh with serve := some s.spawned, spawned := s.spawned + 1 })
  match s.serve with
  | some k => if (s.children k).alive then (k, s) else spawn
  | none => spawn

/-- The steps of `handler`, `_serve_child`, `_run_serve` and `_run_one_shot`, and of
the serve loop at the other end of the pipes. -/
def step (serveEnabled : Bool) (request : ι → Request) (s : Container ι E) :
    Action ι E → Option (Container ι E)
  | .call c =>
    match s.phase c with
    | .idle =>
      if serveEnabled then some (s.serveChild.2.goto c (.acquired s.serveChild.1))
      else some (s.goto c .oneShot)
    | _ => none
  | .write c =>
    match s.phase c with
    | .acquired k =>
      let child := s.children k
      if child.alive then
        some ((s.setChild k { child with
          stdin := child.stdin ++ [⟨c, request c⟩], waiting := child.waiting ++ [c] }).goto c
            (.written k))
      else some (s.fallback c)
    | _ => none
  | .respond k envelope =>
    let child := s.children k
    match child.alive, child.stdin with
    | true, frame :: rest =>
      some (s.setChild k { child with
        stdin := rest,
        stdout := child.stdout ++ [⟨frame.caller, frame.request, envelope⟩] })
    | _, _ => none
  | .exit k => some (s.setChild k { s.children k with alive := false })
  | .read c =>
    match s.phase c with
    | .written k =>
      let child := s.children k
      match child.stdout with
      | answer :: rest =>
        some ((s.setChild k { child with
          stdout := rest, waiting := child.waiting.erase c }).goto c (.returned answer))
      | [] =>
        if child.alive then none
        else some ((s.setChild k { child with waiting := child.waiting.erase c }).fallback c)
    | _ => none
  | .openFile c =>
    match s.phase c with
    | .oneShot => some { s.goto c (.writing 0) with file := [] }
    | _ => none
  | .writeFile c n =>
    match s.phase c with
    | .writing off =>
      let chunk := ((request c).inputJson.drop off).take n
      some { s.goto c (.writing (off + chunk.length)) with file := overwrite s.file off chunk }
    | _ => none
  | .closeFile c =>
    match s.phase c with
    | .writing off =>
      if off = (request c).inputJson.length then some (s.goto c .closed) else none
    | _ => none
  | .exec c envelope =>
    match s.phase c, envelope with
    | .closed, some e => some (s.goto c (.returned ⟨c, ⟨(request c).entrypoint, s.file⟩, e⟩))
    | .closed, none => some (s.goto c .raised)
    | _, _ => none

/-- Every call that returned has returned an envelope that the runner produced for
that call's own entrypoint and input. -/
def Isolated (request : ι → Request) (s : Container ι E) : Prop :=
  ∀ c answer, s.phase c = .returned answer → answer.origin = c ∧ answer.request = request c

end ModalRust.Wrapper
