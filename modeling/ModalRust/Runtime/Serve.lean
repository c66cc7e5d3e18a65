import ModalRust.Runtime.Runner

/-!
# The serve loop

`run_serve_with_io` on a byte stream: split the stream into lines, decode each, skip the
blank ones and handle every other line as one frame. A reply records what the handling of
one frame wrote; the loop concatenates the replies. Write failures are ignored by the
loop and do not occur in the model.
-/

namespace ModalRust.Runtime

variable {σ : Type*}

/-- What the handling of one frame wrote, and the process after it. -/
structure Reply (σ : Type*) where
  /-- Written to `out`. -/
  out : Text
  /-- The diagnostics. -/
  stderr : Text
  /-- The process afterwards. -/
  proc : Proc σ

/-- A reply of one envelope. -/
def Reply.line (envelope : Json) (proc : Proc σ) : Reply σ := ⟨emitLine envelope, [], proc⟩

/-- `serve_one`: one framed request. -/
def serveOne (platform : Platform) (registry : Registry σ) (callers : List Text)
    (req : ServeRequest) (proc : Proc σ) : Reply σ :=
  let rawInput := toUtf8 req.input
  match platform.parseValue rawInput with
  | .error e => .line (RunnerError.decode e).toEnvelope proc
  | .ok _ =>
    match registry.get req.entrypoint with
    | none => .line (unknownEntrypoint platform registry req.entrypoint).toEnvelope proc
    | some handler =>
      match runHandler platform ("modal_rust_runtime::serve_one".toList ::
        "modal_rust_runtime::run_serve_with_io".toList :: callers) handler rawInput proc with
      | (.ok bytes, proc) =>
        match platform.parseValue bytes with
        | .error e => .line (RunnerError.encode
            ("handler output was not valid JSON: ".toList ++ e)).toEnvelope proc
        | .ok value => .line (successEnvelope value) proc
      | (.error err, proc) => .line err.toEnvelope proc

/-- The tally of a prime frame. -/
structure PrimeTally (σ : Type*) where
  /-- How many primes succeeded. -/
  primedOk : ℕ
  /-- The messages of those that did not. -/
  errors : List Text
  /-- The diagnostics. -/
  stderr : Text
  /-- The process so far. -/
  proc : Proc σ

/-- Run one prime under `catch_unwind`. -/
def runPrime (platform : Platform) (callers : List Text) (tally : PrimeTally σ)
    (prime : PrimeFn σ) : PrimeTally σ :=
  let run := prime tally.proc.user
  let stack := "modal_rust_runtime::serve_prime".toList ::
    "modal_rust_runtime::run_serve_with_io".toList :: callers
  let proc := ⟨run.user, fireHooks platform stack run.hooks tally.proc.panicSlot⟩
  match run.result with
  | some (.ok ()) => { tally with primedOk := tally.primedOk + 1, proc }
  | some (.error e) =>
    { tally with
      errors := tally.errors ++ [e.display]
      stderr := tally.stderr ++
        eprintln ("modal_runner --serve: snapshot prime failed: ".toList ++ e.display)
      proc }
  | none =>
    { tally with
      errors := tally.errors ++ ["snapshot prime panicked".toList]
      stderr := tally.stderr ++ eprintln "modal_runner --serve: snapshot prime panicked".toList
      proc }

/-- `serve_prime`: run every prime and report the outcome. -/
def servePrime (platform : Platform) (registry : Registry σ) (callers : List Text)
    (proc : Proc σ) : Reply σ :=
  let tally := registry.primes.foldl (runPrime platform callers) ⟨0, [], [], proc⟩
  ⟨emitLine (primeAck tally.primedOk tally.errors.length tally.errors), tally.stderr, tally.proc⟩

/-- The request path of a frame. -/
def serveRequestFrame (platform : Platform) (registry : Registry σ) (callers : List Text)
    (line : Text) (proc : Proc σ) : Reply σ :=
  match platform.parseServeRequest line with
  | .error e => .line
      (RunnerError.decode ("malformed serve request frame: ".toList ++ e)).toEnvelope proc
  | .ok req => serveOne platform registry callers req proc

/-- The loop body on one line. -/
def serveLine (platform : Platform) (registry : Registry σ) (callers : List Text)
    (line : Text) (proc : Proc σ) : Reply σ :=
  if isBlank line then ⟨[], [], proc⟩
  else
    match platform.parseFrameKind line with
    | .ok (some kind) =>
      if kind = "request".toList then serveRequestFrame platform registry callers line proc
      else if kind = "prime".toList then servePrime platform registry callers proc
      else .line (RunnerError.decode
        ("unknown serve frame kind: ".toList ++ platform.debug kind)).toEnvelope proc
    | _ => serveRequestFrame platform registry callers line proc

/-- How the serve loop ends. -/
structure Served (σ : Type*) where
  /-- Written to `out`. -/
  out : Text
  /-- The diagnostics. -/
  stderr : Text
  /-- The lines that were not read. -/
  unread : List Bytes
  /-- The exit code. -/
  code : ℕ
  /-- The process at its end. -/
  proc : Proc σ

/-- The serve loop on the lines of its input. -/
def serveLines (platform : Platform) (registry : Registry σ) (callers : List Text) :
    List Bytes → Proc σ → Served σ
  | [], proc => ⟨[], [], [], 0, proc⟩
  | bytes :: rest, proc =>
    match fromUtf8 bytes with
    | none =>
      ⟨[], eprintln ("modal_runner --serve: failed to read request: ".toList ++
        "stream did not contain valid UTF-8".toList), rest, 1, proc⟩
    | some line =>
      let reply := serveLine platform registry callers line proc
      let served := serveLines platform registry callers rest reply.proc
      { served with out := reply.out ++ served.out, stderr := reply.stderr ++ served.stderr }

/-- `run_serve_with_io`, called from the frames `callers`. -/
def runServeWithIo (platform : Platform) (registry : Registry σ) (callers : List Text)
    (input : Bytes) (proc : Proc σ) : Served σ :=
  serveLines platform registry callers (byteLines input) proc

/-- The loop on a stream that starts with a text. -/
theorem serveLines_cons {platform : Platform} {registry : Registry σ} {callers : List Text}
    {bytes : Bytes} {rest : List Bytes} {line : Text} {proc : Proc σ}
    (hline : fromUtf8 bytes = some line) :
    serveLines platform registry callers (bytes :: rest) proc =
      let reply := serveLine platform registry callers line proc
      let served := serveLines platform registry callers rest reply.proc
      { served with out := reply.out ++ served.out, stderr := reply.stderr ++ served.stderr } := by
  simp only [serveLines, hline]

/-- A request frame as a caller writes it. -/
def frameLine (req : ServeRequest) : Text :=
  (Json.json [("entrypoint".toList, .string req.entrypoint),
    ("input".toList, .string req.input)]).print

/-- A platform whose parsers know the listed texts and frames and reject everything else. -/
def Platform.ofTable (values : List (Text × Json)) (frames : List ServeRequest) : Platform where
  parseValue bytes :=
    match values.find? fun entry => toUtf8 entry.1 == bytes with
    | some entry => .ok entry.2
    | none => .error "expected value at line 1 column 1".toList
  parseFrameKind line :=
    if frames.any fun req => frameLine req == line then .ok none
    else .error "expected value at line 1 column 1".toList
  parseServeRequest line :=
    match frames.find? fun req => frameLine req == line with
    | some req => .ok req
    | none => .error "expected value at line 1 column 1".toList
  debug := quote
  backtrace frames := ['\n'].intercalate frames
  readFile _ := .error "No such file or directory (os error 2)".toList
  stdin := .ok []

end ModalRust.Runtime
