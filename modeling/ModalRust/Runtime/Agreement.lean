import ModalRust.Runtime.Call

/-!
# The serve loop answers as the one-shot command line does

A request frame at any place of any stream is answered with the line that the one-shot
command line prints for the same entrypoint and input. Only the backtrace of a panic may
differ, because it is captured on the call stack of the mode that ran the handler. The
frames after it are answered as by a process that has just started with the user state
that the frame left behind, so a panic reaches a later frame only through user code.
-/

namespace ModalRust.Runtime

variable {σ : Type*}

/-- A line that the loop reads as the request `{entrypoint, input}`. -/
structure RequestFrame (platform : Platform) (line entrypoint input : Text) : Prop where
  /-- The line is not skipped. -/
  not_blank : isBlank line = false
  /-- The frame's kind is absent, unreadable or `request`. -/
  kind : ∀ kind, platform.parseFrameKind line = .ok (some kind) → kind = "request".toList
  /-- The frame holds the entrypoint and the input. -/
  request : platform.parseServeRequest line = .ok ⟨entrypoint, input⟩

/-- The two replies look the same and leave the same user state. -/
structure Reply.Same (reply reply' : Reply σ) : Prop where
  /-- The same output. -/
  out : reply.out = reply'.out
  /-- The same diagnostics. -/
  stderr : reply.stderr = reply'.stderr
  /-- The same user state. -/
  user : reply.proc.user = reply'.proc.user

/-- The two tallies agree, and so do the user states. -/
structure PrimeTally.Same (tally tally' : PrimeTally σ) : Prop where
  /-- The same number of successes. -/
  primedOk : tally.primedOk = tally'.primedOk
  /-- The same messages. -/
  errors : tally.errors = tally'.errors
  /-- The same diagnostics. -/
  stderr : tally.stderr = tally'.stderr
  /-- The same user state. -/
  user : tally.proc.user = tally'.proc.user

/-- A request frame is answered with the result of its call. -/
theorem serveLine_of_requestFrame {platform : Platform} {registry : Registry σ}
    {callers : List Text} {line entrypoint input : Text} {proc : Proc σ}
    (hframe : RequestFrame platform line entrypoint input) :
    serveLine platform registry callers line proc =
      let called := call platform registry (serveStack callers) entrypoint (toUtf8 input) proc
      .line (envelopeOf called.1) called.2 := by
  have hrequest : serveRequestFrame platform registry callers line proc =
      serveOne platform registry callers ⟨entrypoint, input⟩ proc := by
    rw [serveRequestFrame, hframe.request]
  have hblank : ¬ isBlank line = true := by simp [hframe.not_blank]
  rw [serveLine, if_neg hblank]
  cases hkind : platform.parseFrameKind line with
  | error e => rw [hrequest, serveOne_eq_call]
  | ok kind =>
    cases kind with
    | none => rw [hrequest, serveOne_eq_call]
    | some kind =>
      have hkind : kind = "request".toList := hframe.kind kind hkind
      simp only [if_pos hkind]
      rw [hrequest, serveOne_eq_call]

/-- A call of the loop depends on the process only through its user state. -/
theorem serveOne_of_user_eq {platform : Platform} {registry : Registry σ} {callers : List Text}
    {req : ServeRequest} {proc proc' : Proc σ} (huser : proc.user = proc'.user) :
    (serveOne platform registry callers req proc).Same
      (serveOne platform registry callers req proc') := by
  obtain ⟨hresult, huser⟩ := call_of_user_eq platform registry (serveStack callers)
    req.entrypoint (toUtf8 req.input) huser
  rw [serveOne_eq_call, serveOne_eq_call]
  simp only [hresult]
  exact ⟨rfl, rfl, huser⟩

/-- A prime depends on the process only through its user state. -/
theorem PrimeTally.Same.runPrime {tally tally' : PrimeTally σ} (htally : tally.Same tally')
    (platform : Platform) (callers : List Text) (prime : PrimeFn σ) :
    (Runtime.runPrime platform callers tally prime).Same
      (Runtime.runPrime platform callers tally' prime) := by
  unfold Runtime.runPrime
  simp only [htally.user, htally.primedOk, htally.errors, htally.stderr]
  rcases (prime tally'.proc.user).result with _ | _ | _ <;> exact ⟨rfl, rfl, rfl, rfl⟩

/-- So do all primes in turn. -/
theorem PrimeTally.Same.foldl {tally tally' : PrimeTally σ} (htally : tally.Same tally')
    (platform : Platform) (callers : List Text) (primes : List (PrimeFn σ)) :
    (primes.foldl (Runtime.runPrime platform callers) tally).Same
      (primes.foldl (Runtime.runPrime platform callers) tally') := by
  induction primes generalizing tally tally' with
  | nil => exact htally
  | cons prime primes ih => exact ih (htally.runPrime platform callers prime)

/-- So does the handling of a line. -/
theorem serveLine_of_user_eq (platform : Platform) (registry : Registry σ) (callers : List Text)
    (line : Text) {proc proc' : Proc σ} (huser : proc.user = proc'.user) :
    (serveLine platform registry callers line proc).Same
      (serveLine platform registry callers line proc') := by
  have hrequest : (serveRequestFrame platform registry callers line proc).Same
      (serveRequestFrame platform registry callers line proc') := by
    unfold serveRequestFrame
    cases platform.parseServeRequest line with
    | error e => exact ⟨rfl, rfl, huser⟩
    | ok req => exact serveOne_of_user_eq huser
  have hprime : (servePrime platform registry callers proc).Same
      (servePrime platform registry callers proc') := by
    have htally : PrimeTally.Same (σ := σ) ⟨0, [], [], proc⟩ ⟨0, [], [], proc'⟩ :=
      ⟨rfl, rfl, rfl, huser⟩
    have htally := htally.foldl platform callers registry.primes
    exact ⟨by simp only [servePrime, htally.primedOk, htally.errors], htally.stderr, htally.user⟩
  unfold serveLine
  by_cases hblank : isBlank line = true
  · rw [if_pos hblank, if_pos hblank]
    exact ⟨rfl, rfl, huser⟩
  · rw [if_neg hblank, if_neg hblank]
    split
    · split_ifs
      · exact hrequest
      · exact hprime
      · exact ⟨rfl, rfl, huser⟩
    · exact hrequest

/-- So does the loop: a process in the middle of its life serves like one that has just
started with its user state. -/
theorem serveLines_of_user_eq {platform : Platform} {registry : Registry σ} {callers : List Text}
    (lines : List Bytes) {proc proc' : Proc σ} (huser : proc.user = proc'.user) :
    (serveLines platform registry callers lines proc).out =
      (serveLines platform registry callers lines proc').out := by
  induction lines generalizing proc proc' with
  | nil => rfl
  | cons bytes rest ih =>
    cases hline : fromUtf8 bytes with
    | none => simp only [serveLines, hline]
    | some line =>
      have hsame := serveLine_of_user_eq platform registry callers line huser
      simp only [serveLines_cons hline, hsame.out, ih hsame.user]

/-- The backtrace of a panic has no part in its kind. -/
theorem UpToBacktrace.errorKind_eq {answer answer' : Except RunnerError Json}
    (hupto : UpToBacktrace answer answer') :
    errorKind (envelopeOf answer) = errorKind (envelopeOf answer') := by
  cases hupto with
  | same => rfl
  | panic message backtrace backtrace' =>
    rw [envelopeOf, envelopeOf, errorKind_toEnvelope, errorKind_toEnvelope]
    rfl

/-- The loop on a stream whose first lines are texts. -/
theorem serveLines_append {platform : Platform} {registry : Registry σ} {callers : List Text}
    {before after : List Bytes} {proc : Proc σ}
    (hbefore : ∀ bytes ∈ before, (fromUtf8 bytes).isSome = true) :
    (serveLines platform registry callers (before ++ after) proc).out =
      (serveLines platform registry callers before proc).out ++
        (serveLines platform registry callers after
          (serveLines platform registry callers before proc).proc).out := by
  induction before generalizing proc with
  | nil => rfl
  | cons bytes before ih =>
    obtain ⟨line, hline⟩ := Option.isSome_iff_exists.mp (hbefore bytes List.mem_cons_self)
    have hrest : ∀ proc, (serveLines platform registry callers (before ++ after) proc).out =
        (serveLines platform registry callers before proc).out ++
          (serveLines platform registry callers after
            (serveLines platform registry callers before proc).proc).out := by
      intro proc
      exact ih fun b hb => hbefore b (List.mem_cons_of_mem _ hb)
    simp only [List.cons_append, serveLines_cons hline, hrest, List.append_assoc]

/-- **The serve loop answers as the one-shot command line does.** Let `line` be any request
frame of any stream, and let the handler behave in the serve process as it does in the
one-shot process. The loop writes, after its answers to the earlier lines, the line that
the one-shot invocation prints, up to the backtrace of a panic, with the same failure
kind; and it answers the later lines as a process that starts with the user state the
frame left. -/
theorem serveLoop_agrees_with_oneShot {platform : Platform} {registry : Registry σ}
    {callers callers' argv : List Text} {entrypoint inputJson line : Text} {input : Bytes}
    {before after : List Bytes} {bytes : Bytes} {user user' : σ}
    (hargv : parseArgs argv = .ok ⟨entrypoint, .json inputJson⟩)
    (hframe : RequestFrame platform line entrypoint inputJson)
    (hinput : byteLines input = before ++ bytes :: after) (hline : fromUtf8 bytes = some line)
    (hbefore : ∀ b ∈ before, (fromUtf8 b).isSome = true)
    (houtcome : ∀ handler, registry.get entrypoint = some handler →
      (handler (toUtf8 inputJson)
        (serveLines platform registry callers before (.fresh user)).proc.user).SameOutcome
          (handler (toUtf8 inputJson) user')) :
    let earlier := serveLines platform registry callers before (.fresh user)
    let frame := serveLine platform registry callers line earlier.proc
    ∃ answer answer' : Except RunnerError Json,
      UpToBacktrace answer answer' ∧
      errorKind (envelopeOf answer) = errorKind (envelopeOf answer') ∧
      (runCliWithArgs platform registry callers' argv (.fresh user')).stdout =
        emitLine (envelopeOf answer') ∧
      (runServeWithIo platform registry callers input (.fresh user)).out =
        earlier.out ++ emitLine (envelopeOf answer) ++
          (serveLines platform registry callers after (.fresh frame.proc.user)).out := by
  intro earlier frame
  have hupto : UpToBacktrace
      (call platform registry (serveStack callers) entrypoint (toUtf8 inputJson) earlier.proc).1
      (call platform registry (oneShotStack callers') entrypoint (toUtf8 inputJson)
        (.fresh user')).1 := call_upToBacktrace houtcome
  refine ⟨_, _, hupto, hupto.errorKind_eq, ?_, ?_⟩
  · rw [runCliWithArgs_eq_call hargv]
    simp only [Exit.stdout, emit, Option.map_some, Option.getD_some]
  · have hout : frame.out = emitLine (envelopeOf (call platform registry (serveStack callers)
        entrypoint (toUtf8 inputJson) earlier.proc).1) := by
      simp only [frame, serveLine_of_requestFrame hframe, Reply.line]
    have hafter : (serveLines platform registry callers after frame.proc).out =
        (serveLines platform registry callers after (.fresh frame.proc.user)).out :=
      serveLines_of_user_eq after rfl
    have hloop : (serveLines platform registry callers (bytes :: after) earlier.proc).out =
        frame.out ++ (serveLines platform registry callers after frame.proc).out := by
      rw [serveLines_cons hline]
    rw [runServeWithIo, hinput, serveLines_append hbefore, hloop, hout, hafter, List.append_assoc]

/-- A handler that panics. -/
def willPanic : HandlerFn Unit := fun _ user =>
  ⟨[⟨"panicked at src/lib.rs:1:1: deliberate".toList, ["app::will_panic".toList]⟩], none, user⟩

/-- The registry of the panicking handler. -/
def panicRegistry : Registry Unit :=
  { Registry.new with handlers := .ofList [("will_panic".toList, willPanic)] }

/-- The call of the panicking handler. -/
def panicRequest : ServeRequest := ⟨"will_panic".toList, "null".toList⟩

/-- A platform that reads this call. -/
def panicPlatform : Platform := .ofTable [("null".toList, .null)] [panicRequest]

/-- The command line of this call. -/
def panicArgv : List Text :=
  ["--entrypoint".toList, "will_panic".toList, "--input-json".toList, "null".toList]

/-- The frame of the call is read as a request frame. -/
theorem requestFrame_panicRequest : RequestFrame panicPlatform (frameLine panicRequest)
    panicRequest.entrypoint panicRequest.input where
  not_blank := by decide
  kind := by
    intro kind hkind
    exact absurd hkind (by rw [show panicPlatform.parseFrameKind (frameLine panicRequest) =
      .ok none by decide]; simp)
  request := by rfl

/-- The agreement at a stream that holds the frame of a panicking call, twice. -/
theorem serveLoop_agrees_with_oneShot_panic :
    let line := toUtf8 (frameLine panicRequest)
    let frame := serveLine panicPlatform panicRegistry [] (frameLine panicRequest) (.fresh ())
    ∃ answer answer' : Except RunnerError Json,
      UpToBacktrace answer answer' ∧
      errorKind (envelopeOf answer) = errorKind (envelopeOf answer') ∧
      (runCliWithArgs panicPlatform panicRegistry [] panicArgv (.fresh ())).stdout =
        emitLine (envelopeOf answer') ∧
      (runServeWithIo panicPlatform panicRegistry [] (line ++ 10 :: line) (.fresh ())).out =
        [] ++ emitLine (envelopeOf answer) ++
          (serveLines panicPlatform panicRegistry [] [line] (.fresh frame.proc.user)).out :=
  have hinput : byteLines (toUtf8 (frameLine panicRequest) ++
      10 :: toUtf8 (frameLine panicRequest)) =
        [] ++ toUtf8 (frameLine panicRequest) :: [toUtf8 (frameLine panicRequest)] := by decide
  have hline : fromUtf8 (toUtf8 (frameLine panicRequest)) = some (frameLine panicRequest) := by
    rfl
  serveLoop_agrees_with_oneShot (by rfl) requestFrame_panicRequest hinput hline (by simp)
    fun _ _ => ⟨rfl, rfl⟩

/-- The backtrace of a panic tells the two modes apart, so that the lines differ. -/
theorem panic_lines_differ :
    RequestFrame panicPlatform (frameLine panicRequest) "will_panic".toList "null".toList ∧
      parseArgs panicArgv = .ok ⟨"will_panic".toList, .json "null".toList⟩ ∧
      (runServeWithIo panicPlatform panicRegistry [] (toUtf8 (frameLine panicRequest) ++ [10])
          (.fresh ())).out ≠
        (runCliWithArgs panicPlatform panicRegistry [] panicArgv (.fresh ())).stdout :=
  ⟨requestFrame_panicRequest, by rfl, by decide +kernel⟩

end ModalRust.Runtime
