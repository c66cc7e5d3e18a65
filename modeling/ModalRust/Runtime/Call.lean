import ModalRust.Runtime.Serve

/-!
# What a call means

`call` is the meaning of one call of an entrypoint, apart from the mode of the runner
that carries it out: a value or one of the five failures, in the frozen order parse,
lookup, decode, run, encode. The one-shot command line and the request path of the serve
loop are written separately; the two refinement theorems say that each of them renders
the result of `call`.

The result depends on the frames below the handler only through the backtrace of a panic,
and on the process only through its user state.
-/

namespace ModalRust.Runtime

variable {σ : Type*}

/-- Parse the output of a handler. -/
def reparse (platform : Platform) (bytes : Bytes) : Except RunnerError Json :=
  (platform.parseValue bytes).mapError fun e =>
    .encode ("handler output was not valid JSON: ".toList ++ e)

/-- One call of an entrypoint from the frames `stack`. -/
def call (platform : Platform) (registry : Registry σ) (stack : List Text) (entrypoint : Text)
    (input : Bytes) (proc : Proc σ) : Except RunnerError Json × Proc σ :=
  match platform.parseValue input with
  | .error e => (.error (.decode e), proc)
  | .ok _ =>
    match registry.get entrypoint with
    | none => (.error (unknownEntrypoint platform registry entrypoint), proc)
    | some handler =>
      let ran := runHandler platform stack handler input proc
      (ran.1.bind (reparse platform), ran.2)

/-- The envelope of a result. -/
def envelopeOf : Except RunnerError Json → Json
  | .ok value => successEnvelope value
  | .error err => err.toEnvelope

/-- The exit code of a result. -/
def exitCode : Except RunnerError Json → ℕ
  | .ok _ => 0
  | .error _ => 1

/-- The frames between a handler and the caller of `run_cli_with_args`. -/
def oneShotStack (callers : List Text) : List Text :=
  "modal_rust_runtime::run_cli_with_args".toList :: callers

/-- The frames between a handler and the caller of `run_serve_with_io`. -/
def serveStack (callers : List Text) : List Text :=
  "modal_rust_runtime::serve_one".toList ::
    "modal_rust_runtime::run_serve_with_io".toList :: callers

/-- Two results that differ at most in the backtrace of a panic. -/
inductive UpToBacktrace {α : Type*} : Except RunnerError α → Except RunnerError α → Prop
  /-- The same result. -/
  | same (result : Except RunnerError α) : UpToBacktrace result result
  /-- The same panic, captured on two stacks. -/
  | panic (message backtrace backtrace' : Text) :
    UpToBacktrace (.error (.panic message backtrace)) (.error (.panic message backtrace'))

/-- The two calls of user code look the same to the runner. -/
def Run.SameOutcome {α : Type*} (run run' : Run σ α) : Prop :=
  run.hooks = run'.hooks ∧ run.result = run'.result

/-- The arguments of a call start with none of the tokens that select another mode. -/
theorem head?_of_parseArgs {argv : List Text} {args : Args} (hargv : parseArgs argv = .ok args)
    {mode : Text} (hmode : flagOf mode = none) : argv.head? ≠ some mode := by
  cases argv with
  | nil => intro hhead; cases hhead
  | cons arg rest =>
    intro hhead
    obtain rfl := Option.some.inj hhead
    rw [parseArgs, parseArgsFrom.eq_def] at hargv
    simp only [hmode] at hargv
    cases hargv

/-- **The one-shot command line renders the result of the call**, from any input source. -/
theorem runCliWithArgs_eq_call_of_readInput {platform : Platform} {registry : Registry σ}
    {callers : List Text} {argv : List Text} {entrypoint : Text} {source : InputSource}
    {rawInput : Bytes} {proc : Proc σ} (hargv : parseArgs argv = .ok ⟨entrypoint, source⟩)
    (hread : readInput platform source = .ok rawInput) :
    runCliWithArgs platform registry callers argv proc =
      let called := call platform registry (oneShotStack callers) entrypoint rawInput proc
      emit (envelopeOf called.1) (exitCode called.1) called.2 := by
  have hcheck : argv.head? ≠ some "--check-input".toList := head?_of_parseArgs hargv (by decide)
  have hweb : argv.head? ≠ some "--web-server".toList := head?_of_parseArgs hargv (by decide)
  simp only [runCliWithArgs, if_neg hcheck, if_neg hweb, hargv, hread, call]
  cases platform.parseValue rawInput with
  | error e => rfl
  | ok _ =>
    cases registry.get entrypoint with
    | none => rfl
    | some handler =>
      simp only [oneShotStack]
      rcases runHandler platform _ handler rawInput proc with ⟨result, proc⟩
      cases result with
      | error err => rfl
      | ok bytes =>
        simp only [Except.bind, reparse]
        cases platform.parseValue bytes <;> rfl

/-- The one-shot command line on an input in its arguments. -/
theorem runCliWithArgs_eq_call {platform : Platform} {registry : Registry σ} {callers : List Text}
    {argv : List Text} {entrypoint inputJson : Text} {proc : Proc σ}
    (hargv : parseArgs argv = .ok ⟨entrypoint, .json inputJson⟩) :
    runCliWithArgs platform registry callers argv proc =
      let called := call platform registry (oneShotStack callers) entrypoint (toUtf8 inputJson) proc
      emit (envelopeOf called.1) (exitCode called.1) called.2 :=
  runCliWithArgs_eq_call_of_readInput hargv rfl

/-- **The request path of the serve loop renders the result of the call.** -/
theorem serveOne_eq_call (platform : Platform) (registry : Registry σ) (callers : List Text)
    (req : ServeRequest) (proc : Proc σ) :
    serveOne platform registry callers req proc =
      let called :=
        call platform registry (serveStack callers) req.entrypoint (toUtf8 req.input) proc
      .line (envelopeOf called.1) called.2 := by
  simp only [serveOne, call]
  cases platform.parseValue (toUtf8 req.input) with
  | error e => rfl
  | ok _ =>
    cases registry.get req.entrypoint with
    | none => rfl
    | some handler =>
      simp only [serveStack]
      rcases runHandler platform _ handler (toUtf8 req.input) proc with ⟨result, proc⟩
      cases result with
      | error err => rfl
      | ok bytes =>
        simp only [Except.bind, reparse]
        cases platform.parseValue bytes <;> rfl

/-- The line on stdout is the envelope of the call. -/
theorem stdout_runCliWithArgs {platform : Platform} {registry : Registry σ} {callers : List Text}
    {argv : List Text} {entrypoint : Text} {source : InputSource} {rawInput : Bytes}
    {proc : Proc σ} (hargv : parseArgs argv = .ok ⟨entrypoint, source⟩)
    (hread : readInput platform source = .ok rawInput) :
    (runCliWithArgs platform registry callers argv proc).stdout = emitLine (envelopeOf
      (call platform registry (oneShotStack callers) entrypoint rawInput proc).1) := by
  rw [runCliWithArgs_eq_call_of_readInput hargv hread]
  rfl

/-- The line of a served request is the envelope of the call. -/
theorem out_serveOne (platform : Platform) (registry : Registry σ) (callers : List Text)
    (entrypoint input : Text) (proc : Proc σ) :
    (serveOne platform registry callers ⟨entrypoint, input⟩ proc).out = emitLine (envelopeOf
      (call platform registry (serveStack callers) entrypoint (toUtf8 input) proc).1) := by
  rw [serveOne_eq_call]
  rfl

/-- The message in the panic slot does not depend on the stack. -/
theorem fireHooks_message (platform : Platform) (stack stack' : List Text)
    (hooks : List PanicInfo) (slot slot' : Option (Text × Text))
    (hslot : slot.map Prod.fst = slot'.map Prod.fst) :
    (fireHooks platform stack hooks slot).map Prod.fst =
      (fireHooks platform stack' hooks slot').map Prod.fst := by
  induction hooks generalizing slot slot' with
  | nil => exact hslot
  | cons info hooks ih => exact ih _ _ rfl

/-- Two runs of a handler with one outcome differ at most in the backtrace. -/
theorem runHandler_upToBacktrace {platform : Platform} {stack stack' : List Text}
    {handler : HandlerFn σ} {input : Bytes} {proc proc' : Proc σ}
    (houtcome : (handler input proc.user).SameOutcome (handler input proc'.user)) :
    UpToBacktrace (runHandler platform stack handler input proc).1
      (runHandler platform stack' handler input proc').1 := by
  obtain ⟨hhooks, hresult⟩ := houtcome
  simp only [runHandler]
  rw [hhooks, hresult]
  cases (handler input proc'.user).result with
  | some result => exact .same result
  | none =>
    have hmessage := fireHooks_message platform
      ("modal_rust_runtime::run_handler".toList :: stack)
      ("modal_rust_runtime::run_handler".toList :: stack')
      (handler input proc'.user).hooks none none rfl
    revert hmessage
    rcases fireHooks platform ("modal_rust_runtime::run_handler".toList :: stack) _ none with
      _ | captured <;>
    rcases fireHooks platform ("modal_rust_runtime::run_handler".toList :: stack') _ none with
      _ | captured'
    · exact fun _ => .same _
    · exact fun hmessage => absurd hmessage (by simp)
    · exact fun hmessage => absurd hmessage (by simp)
    · intro hmessage
      have hmessage : captured.1 = captured'.1 := Option.some.inj hmessage
      simp only [Option.getD_some, hmessage]
      exact .panic _ _ _

/-- A continuation keeps results that differ at most in the backtrace. -/
theorem UpToBacktrace.bind {α β : Type*} {result result' : Except RunnerError α}
    (hresult : UpToBacktrace result result') (next : α → Except RunnerError β) :
    UpToBacktrace (result.bind next) (result'.bind next) := by
  cases hresult with
  | same => exact .same _
  | panic message backtrace backtrace' => exact .panic message backtrace backtrace'

/-- Two calls whose handlers have one outcome differ at most in the backtrace. -/
theorem call_upToBacktrace {platform : Platform} {registry : Registry σ} {stack stack' : List Text}
    {entrypoint : Text} {input : Bytes} {proc proc' : Proc σ}
    (houtcome : ∀ handler, registry.get entrypoint = some handler →
      (handler input proc.user).SameOutcome (handler input proc'.user)) :
    UpToBacktrace (call platform registry stack entrypoint input proc).1
      (call platform registry stack' entrypoint input proc').1 := by
  unfold call
  cases platform.parseValue input with
  | error e => exact .same _
  | ok _ =>
    cases hget : registry.get entrypoint with
    | none => exact .same _
    | some handler => exact (runHandler_upToBacktrace (houtcome handler hget)).bind _

/-- The panic slot that an earlier call left behind plays no role. -/
theorem call_of_user_eq (platform : Platform) (registry : Registry σ) (stack : List Text)
    (entrypoint : Text) (input : Bytes) {proc proc' : Proc σ} (huser : proc.user = proc'.user) :
    (call platform registry stack entrypoint input proc).1 =
        (call platform registry stack entrypoint input proc').1 ∧
      (call platform registry stack entrypoint input proc).2.user =
        (call platform registry stack entrypoint input proc').2.user := by
  unfold call
  cases platform.parseValue input with
  | error e => exact ⟨rfl, huser⟩
  | ok _ =>
    cases registry.get entrypoint with
    | none => exact ⟨rfl, huser⟩
    | some handler =>
      simp only [runHandler, huser, and_self]

end ModalRust.Runtime
