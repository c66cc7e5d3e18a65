import ModalRust.Runtime.Registry

/-!
# The runner command line

The one-shot path `--entrypoint <name> --input-json <json>` with its flag parser, the
decode-only `--check-input` mode and the `--web-server` mode. A runner process owns the
user state and the panic slot of its thread. What the runner takes from serde_json, from
the formatting machinery of the standard library and from the file system is a
parameter, the `Platform`. The sink accepts every write.
-/

namespace ModalRust.Runtime

/-- One framed serve request. -/
structure ServeRequest where
  /-- The registry key. -/
  entrypoint : Text
  /-- The input, verbatim. -/
  input : Text
  deriving DecidableEq

/-- The services below the runner. The error text of each parser is its `Display`. -/
structure Platform where
  /-- `serde_json::from_slice::<Value>`. -/
  parseValue : Bytes → Except Text Json
  /-- `serde_json::from_str::<FrameKind>`, as the optional `kind` field. -/
  parseFrameKind : Text → Except Text (Option Text)
  /-- `serde_json::from_str::<ServeRequest>`. -/
  parseServeRequest : Text → Except Text ServeRequest
  /-- The `Debug` rendering of a string. -/
  debug : Text → Text
  /-- The rendering of a captured backtrace with these frames, innermost first. -/
  backtrace : List Text → Text
  /-- `std::fs::read`. -/
  readFile : Text → Except Text Bytes
  /-- Everything that stdin holds. -/
  stdin : Except Text Bytes

/-- The state of a runner process. -/
structure Proc (σ : Type*) where
  /-- The process-global state of user code. -/
  user : σ
  /-- The thread's `PANIC_SLOT`: message and backtrace. -/
  panicSlot : Option (Text × Text)

/-- A process that has not run anything yet. -/
def Proc.fresh {σ : Type*} (user : σ) : Proc σ := ⟨user, none⟩

variable {σ : Type*}

/-- The panic hook on each of the panics in turn, with the runner's own frames below
those of user code. -/
def fireHooks (platform : Platform) (stack : List Text) (hooks : List PanicInfo)
    (slot : Option (Text × Text)) : Option (Text × Text) :=
  hooks.foldl (fun _ info => some (info.message, platform.backtrace (info.frames ++ stack))) slot

/-- `run_handler`: clear the slot, call the handler under `catch_unwind`, and turn an
unwind into the panic that the hook recorded. -/
def runHandler (platform : Platform) (stack : List Text) (handler : HandlerFn σ) (input : Bytes)
    (proc : Proc σ) : Except RunnerError Bytes × Proc σ :=
  let run := handler input proc.user
  let slot := fireHooks platform ("modal_rust_runtime::run_handler".toList :: stack) run.hooks none
  match run.result with
  | some result => (result, ⟨run.user, slot⟩)
  | none =>
    let captured := slot.getD ("panic (no message captured)".toList, [])
    (.error (.panic captured.1 captured.2), ⟨run.user, none⟩)

/-- Where the input comes from. -/
inductive InputSource
  | json (s : Text)
  | file (path : Text)
  | stdin

/-- A parsed runner invocation. -/
structure Args where
  /-- The entrypoint name. -/
  entrypoint : Text
  /-- The input source. -/
  input : InputSource

/-- The flags of the runner's modes. -/
inductive Flag
  | entrypoint | inputJson | inputFile | inputStdin | port
  deriving DecidableEq

/-- The flag that an argument spells. -/
def flagOf (arg : Text) : Option Flag :=
  if arg = "--entrypoint".toList then some .entrypoint
  else if arg = "--input-json".toList then some .inputJson
  else if arg = "--input-file".toList then some .inputFile
  else if arg = "--input-stdin".toList then some .inputStdin
  else if arg = "--port".toList then some .port
  else none

/-- The flag loop, with the flags seen so far. -/
def parseArgsFrom (entrypoint : Option Text) (input : Option InputSource) :
    List Text → Except Text Args
  | [] =>
    match entrypoint, input with
    | none, _ => .error "--entrypoint is required".toList
    | some _, none =>
      .error "one of --input-json, --input-file, or --input-stdin is required".toList
    | some entrypoint, some input => .ok ⟨entrypoint, input⟩
  | arg :: rest =>
    match flagOf arg, rest with
    | some .entrypoint, [] => .error "--entrypoint requires a value".toList
    | some .entrypoint, v :: rest =>
      if entrypoint.isSome then .error "--entrypoint given more than once".toList
      else parseArgsFrom (some v) input rest
    | some .inputJson, [] => .error "--input-json requires a value".toList
    | some .inputJson, v :: rest =>
      if input.isSome then .error "multiple input sources given".toList
      else parseArgsFrom entrypoint (some (.json v)) rest
    | some .inputFile, [] => .error "--input-file requires a value".toList
    | some .inputFile, v :: rest =>
      if input.isSome then .error "multiple input sources given".toList
      else parseArgsFrom entrypoint (some (.file v)) rest
    | some .inputStdin, rest =>
      if input.isSome then .error "multiple input sources given".toList
      else parseArgsFrom entrypoint (some .stdin) rest
    | _, _ => .error ("unrecognized argument: ".toList ++ arg)

/-- `parse_args`. -/
def parseArgs (argv : List Text) : Except Text Args := parseArgsFrom none none argv

/-- `read_input`. -/
def readInput (platform : Platform) : InputSource → Except Text Bytes
  | .json s => .ok (toUtf8 s)
  | .file path => (platform.readFile path).mapError fun e =>
      "failed to read --input-file ".toList ++ platform.debug path ++ ": ".toList ++ e
  | .stdin => platform.stdin.mapError fun e => "failed to read stdin: ".toList ++ e

/-- How an invocation of the runner ends. -/
structure Exit (σ : Type*) where
  /-- The envelope that was emitted, if one was. -/
  envelope : Option Json
  /-- The diagnostics. -/
  stderr : Text
  /-- The exit code; 101 is that of a panicking main thread. -/
  code : ℕ
  /-- The process at its end. -/
  proc : Proc σ

/-- An envelope as a line. -/
def emitLine (envelope : Json) : Text := envelope.print ++ ['\n']

/-- A diagnostic as a line. -/
def eprintln (message : Text) : Text := message ++ ['\n']

/-- What the invocation wrote to stdout. -/
def Exit.stdout (exit : Exit σ) : Text := (exit.envelope.map emitLine).getD []

/-- `emit`: write one envelope and return the code. -/
def emit (envelope : Json) (code : ℕ) (proc : Proc σ) : Exit σ := ⟨some envelope, [], code, proc⟩

/-- Report on stderr and return 1. -/
def exitWith (message : Text) (proc : Proc σ) : Exit σ := ⟨none, eprintln message, 1, proc⟩

/-- The texts in brackets, separated by commas. -/
def bracketed (items : List Text) : Text :=
  "[".toList ++ ", ".toList.intercalate items ++ "]".toList

/-- The failure for a name that is not registered. -/
def unknownEntrypoint (platform : Platform) (registry : Registry σ) (entrypoint : Text) :
    RunnerError :=
  .unknownEntrypoint ("unknown entrypoint ".toList ++ platform.debug entrypoint ++
    "; known entrypoints: ".toList ++ bracketed (registry.names.map platform.debug))

/-- `run_check_input_inner`: decode the input, and stop there. -/
def runCheckInputInner (platform : Platform) (registry : Registry σ) (entrypoint : Text)
    (rawInput : Bytes) (proc : Proc σ) : Exit σ :=
  match platform.parseValue rawInput with
  | .error e => emit (RunnerError.decode e).toEnvelope 1 proc
  | .ok _ =>
    if (registry.get entrypoint).isNone then
      emit (unknownEntrypoint platform registry entrypoint).toEnvelope 1 proc
    else
      match registry.getCheck entrypoint with
      | some check =>
        match check rawInput with
        | .ok () => emit (.json [("ok".toList, .bool true)]) 0 proc
        | .error err => emit err.toEnvelope 1 proc
      | none => emit (.json [("ok".toList, .bool true), ("checked".toList, .bool false)]) 0 proc

/-- `run_check_input`. -/
def runCheckInput (platform : Platform) (registry : Registry σ) (argv : List Text)
    (proc : Proc σ) : Exit σ :=
  match parseArgs argv with
  | .error msg => exitWith ("modal_runner: argument error: ".toList ++ msg) proc
  | .ok args =>
    match readInput platform args.input with
    | .error msg => exitWith ("modal_runner: ".toList ++ msg) proc
    | .ok rawInput => runCheckInputInner platform registry args.entrypoint rawInput proc

/-- The digit loop of `u16::from_str`. -/
def parseDigits (n : ℕ) : Text → Except Text UInt16
  | [] => .ok (.ofNat n)
  | c :: rest =>
    if c.isDigit then
      if 10 * n + (c.toNat - 48) < 65536 then parseDigits (10 * n + (c.toNat - 48)) rest
      else .error "number too large to fit in target type".toList
    else .error "invalid digit found in string".toList

/-- `u16::from_str`, with the messages of its errors. -/
def u16FromStr : Text → Except Text UInt16
  | [] => .error "cannot parse integer from empty string".toList
  | ['+'] => .error "invalid digit found in string".toList
  | '+' :: digits => parseDigits 0 digits
  | digits => parseDigits 0 digits

/-- The flag loop of `run_web_server`: the port and the entrypoint, or a diagnostic. -/
def parseWebServerArgs (platform : Platform) (port : Option UInt16) (entrypoint : Option Text) :
    List Text → Except Text (Option UInt16 × Option Text)
  | [] => .ok (port, entrypoint)
  | arg :: rest =>
    match flagOf arg, rest with
    | some .port, [] => .error "--port requires a value".toList
    | some .port, v :: rest =>
      match u16FromStr v with
      | .ok p => parseWebServerArgs platform (some p) entrypoint rest
      | .error e => .error ("invalid --port ".toList ++ platform.debug v ++ ": ".toList ++ e)
    | some .entrypoint, [] => .error "--entrypoint requires a value".toList
    | some .entrypoint, v :: rest => parseWebServerArgs platform port (some v) rest
    | _, _ => .error ("unrecognized argument: ".toList ++ arg)

/-- The launcher that `--web-server` calls, or a diagnostic. -/
def selectLauncher (platform : Platform) (registry : Registry σ) (entrypoint : Option Text) :
    Except Text (WebServerFn σ) :=
  let names := registry.webServerNames
  match entrypoint with
  | some name =>
    match registry.getWebServer name with
    | some launcher => .ok launcher
    | none => .error ("unknown web_server entrypoint ".toList ++ platform.debug name ++
        "; registered: ".toList ++ bracketed (names.map platform.debug))
  | none =>
    match registry.webServers.toList with
    | [(_, launcher)] => .ok launcher
    | [] => .error "no #[web_server] entrypoint is registered".toList
    | _ => .error ("multiple web_server entrypoints ".toList ++
        bracketed (names.map platform.debug) ++ "; pass --entrypoint <name> to choose one".toList)

/-- `run_web_server`. The launcher is not under `catch_unwind`. -/
def runWebServer (platform : Platform) (registry : Registry σ) (argv : List Text)
    (proc : Proc σ) : Exit σ :=
  let diagnostic := fun message => "modal_runner --web-server: ".toList ++ message
  match parseWebServerArgs platform none none argv with
  | .error msg => exitWith (diagnostic msg) proc
  | .ok (none, _) => exitWith (diagnostic "--port <u16> is required".toList) proc
  | .ok (some port, entrypoint) =>
    match selectLauncher platform registry entrypoint with
    | .error msg => exitWith (diagnostic msg) proc
    | .ok launcher =>
      let run := launcher port proc.user
      let launched := eprintln (diagnostic ("launching on port ".toList ++
        Nat.toDigits 10 port.toNat))
      match run.result with
      | none => ⟨none, launched, 101, { proc with user := run.user }⟩
      | some (.ok ()) => ⟨none, launched, 0, { proc with user := run.user }⟩
      | some (.error e) =>
        ⟨none, launched ++ eprintln (diagnostic ("server exited with error: ".toList ++ e.display)),
          1, { proc with user := run.user }⟩

/-- `run_cli_with_args`, called from the frames `callers`. -/
def runCliWithArgs (platform : Platform) (registry : Registry σ) (callers : List Text)
    (argv : List Text) (proc : Proc σ) : Exit σ :=
  if argv.head? = some "--check-input".toList then runCheckInput platform registry argv.tail proc
  else if argv.head? = some "--web-server".toList then
    runWebServer platform registry argv.tail proc
  else
    match parseArgs argv with
    | .error msg => exitWith ("modal_runner: argument error: ".toList ++ msg) proc
    | .ok args =>
      match readInput platform args.input with
      | .error msg => exitWith ("modal_runner: ".toList ++ msg) proc
      | .ok rawInput =>
        match platform.parseValue rawInput with
        | .error e => emit (RunnerError.decode e).toEnvelope 1 proc
        | .ok _ =>
          match registry.get args.entrypoint with
          | none => emit (unknownEntrypoint platform registry args.entrypoint).toEnvelope 1 proc
          | some handler =>
            match runHandler platform ("modal_rust_runtime::run_cli_with_args".toList :: callers)
              handler rawInput proc with
            | (.ok bytes, proc) =>
              match platform.parseValue bytes with
              | .error e => emit (RunnerError.encode
                  ("handler output was not valid JSON: ".toList ++ e)).toEnvelope 1 proc
              | .ok value => emit (successEnvelope value) 0 proc
            | (.error err, proc) => emit err.toEnvelope 1 proc

end ModalRust.Runtime
