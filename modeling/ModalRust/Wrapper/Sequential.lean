import ModalRust.Machine
import ModalRust.Text
import ModalRust.Wrapper.Container

/-!
# Handler calls one after another

A warm container that answers its calls in sequence. The serve child writes to one
stdout pipe both what the user handlers print and the runner's envelope lines, and
`handler` takes the next line of that pipe for its envelope. A call whose handlers
keep their first line blank leaves nothing unread, and then every later call starts
on an empty pipe.
-/

namespace ModalRust.Wrapper

/-- An envelope as the runner emits it: one line without surrounding space. -/
structure EnvelopeLine where
  /-- The JSON text. -/
  text : Text
  /-- The text neither starts nor ends with a space. -/
  solid : Solid text
  /-- The text holds no line break. -/
  single_line : ∀ c ∈ text, isBreak c = false

/-- A text in braces is an envelope line if it holds no line break. -/
def EnvelopeLine.braced (body : Text) (hbody : body.all (fun c => !isBreak c) = true) :
    EnvelopeLine where
  text := '\x7b' :: body ++ ['\x7d']
  solid := by
    refine ⟨by simp, fun c hc => ?_, fun c hc => ?_⟩
    · cases hc
      rfl
    · rw [List.getLast?_concat] at hc
      cases hc
      rfl
  single_line := by
    intro c hc
    rcases List.mem_append.mp hc with hc | hc
    · rcases List.mem_cons.mp hc with rfl | hc
      · rfl
      · simpa using List.all_eq_true.mp hbody c hc
    · rw [List.mem_singleton.mp hc]
      rfl

/-- How the runner's work on one request ends. -/
inductive Ending
  /-- The handler returned, erred or panicked, and its envelope line was written. -/
  | envelope (line : EnvelopeLine)
  /-- The process was killed before the envelope was written. -/
  | killed

/-- What a runner process does with one request. -/
structure Handling where
  /-- What the user handlers write to the process's stdout. -/
  chatter : Text
  /-- How the work ends. -/
  ending : Ending

/-- What reaches stdout of an `Ending`. -/
def Ending.output : Ending → Text
  | .envelope line => line.text ++ ['\n']
  | .killed => []

/-- What reaches stdout for one request. -/
def Handling.output (h : Handling) : Text := h.chatter ++ h.ending.output

/-- The envelope that the runner emitted, if it emitted one. -/
def Handling.emitted (h : Handling) : List Text :=
  match h.ending with
  | .envelope line => [line.text]
  | .killed => []

/-- The serve child's stdout pipe, and whether the child still handles frames. -/
structure Pipe where
  /-- What was written to the pipe and not read yet. -/
  unread : Text
  /-- Whether the process is running. -/
  alive : Bool

/-- One `handler(entrypoint, input_json)` call, with what happens around it. -/
structure Call where
  /-- The arguments. -/
  request : Request
  /-- Whether `_SERVE.poll()` returns `None`. -/
  running : Bool
  /-- Whether a pipe operation raises, also when the pipe's text does not decode. -/
  ioError : Bool
  /-- What the serve child would do with a request. -/
  served : Request → Handling
  /-- What a one-shot runner would do with a request. -/
  executed : Request → Handling

/-- The envelopes that the runner emits for the call's own request. -/
def Call.emitted (call : Call) : List Text :=
  (call.served call.request).emitted ++ (call.executed call.request).emitted

/-- The container between two calls: the module global `_SERVE`, and the calls so far
with what they returned (`none` where `RuntimeError` was raised). -/
structure Warm where
  /-- The pipe of the shared child. -/
  serve : Option Pipe
  /-- The calls and their results, in order. -/
  log : List (Call × Option Text)

/-- A container before its first call. -/
def Warm.init : Warm := ⟨none, []⟩

/-- `_serve_child()`: the shared child if it seems to run, otherwise a new one. -/
def serveChild (serve : Option Pipe) (running : Bool) : Pipe :=
  match serve with
  | some pipe => if running then pipe else ⟨[], true⟩
  | none => ⟨[], true⟩

/-- `_run_one_shot`: the whole stdout, stripped, is the envelope. -/
def runOneShot (call : Call) : Option Text :=
  let out := strip (call.executed call.request).output
  if out = [] then none else some out

/-- The pipe after the child received a frame: a running child handles it. -/
def Pipe.handle (pipe : Pipe) (h : Handling) : Pipe :=
  if pipe.alive then
    ⟨pipe.unread ++ h.output, match h.ending with | .envelope _ => true | .killed => false⟩
  else pipe

/-- `handler`: the new value of `_SERVE` and the result. -/
def handler (serveEnabled : Bool) (serve : Option Pipe) (call : Call) :
    Option Pipe × Option Text :=
  if serveEnabled then
    if call.ioError then (none, runOneShot call)
    else
      let pipe := (serveChild serve call.running).handle (call.served call.request)
      let out := strip (readline pipe.unread).1
      if out = [] then (none, runOneShot call)
      else (some { pipe with unread := (readline pipe.unread).2.2 }, some out)
  else (serve, runOneShot call)

/-- One more call on the container. -/
def turn (serveEnabled : Bool) (s : Warm) (call : Call) : Option Warm :=
  let (serve, result) := handler serveEnabled s.serve call
  some ⟨serve, s.log ++ [(call, result)]⟩

/-- Each call that returned has returned an envelope that the runner emitted for that
call's own request. -/
def OwnEnvelopes (s : Warm) : Prop :=
  ∀ entry ∈ s.log, ∀ out, entry.2 = some out → out ∈ entry.1.emitted

/-- The handlers write no text into the line that `handler` takes for the envelope:
on the serve path the first line that they write is blank, and a one-shot run prints
only space. -/
structure Quiet (serveEnabled : Bool) (call : Call) : Prop where
  /-- Under serve, nothing printed precedes the envelope in its line. -/
  served : serveEnabled = true → call.ioError = false →
    strip (readline (call.served call.request).chatter).1 = []
  /-- A one-shot run that is needed prints only space. -/
  executed : serveEnabled = false ∨ call.ioError = true ∨
      strip (readline (call.served call.request).output).1 = [] →
    strip (call.executed call.request).chatter = []

/-- Being quiet can be tested. -/
instance (serveEnabled : Bool) (call : Call) : Decidable (Quiet serveEnabled call) :=
  decidable_of_iff
    ((serveEnabled = true → call.ioError = false →
        strip (readline (call.served call.request).chatter).1 = []) ∧
      (serveEnabled = false ∨ call.ioError = true ∨
          strip (readline (call.served call.request).output).1 = [] →
        strip (call.executed call.request).chatter = []))
    ⟨fun h => ⟨h.1, h.2⟩, fun h => ⟨h.served, h.executed⟩⟩

/-- The shared child, if there is one, is running and its pipe is read empty. -/
def InStep (serve : Option Pipe) : Prop := ∀ pipe ∈ serve, pipe = ⟨[], true⟩

/-- A text that strips to nothing is a prefix that `strip` removes. -/
theorem strip_blank_append {chatter : Text} (hchatter : strip chatter = [])
    (line : EnvelopeLine) : strip (chatter ++ line.text) = line.text := by
  have hpad : strip (chatter ++ line.text ++ []) = line.text :=
    strip_pad line.solid (strip_eq_nil_iff.mp hchatter) (by simp)
  rwa [List.append_nil] at hpad

/-- Nothing that ends a request starts with a line break. -/
theorem Ending.output_head (e : Ending) : e.output.head? ≠ some '\n' := by
  cases e with
  | killed => simp [Ending.output]
  | envelope line =>
    obtain ⟨c, rest, htext⟩ := List.exists_cons_of_ne_nil line.solid.ne_nil
    intro hhead
    have hc : c = '\n' := by simpa [Ending.output, htext] using hhead
    have hspace := line.solid.head c (by simp [htext])
    rw [hc] at hspace
    exact absurd hspace (by decide)

/-- If the first line that the handlers write is blank, the line that `handler` reads
is blank too, or it is the envelope and the last line. -/
theorem readline_output {h : Handling} (hblank : strip (readline h.chatter).1 = []) :
    strip (readline h.output).1 = [] ∨
      ∃ line, h.ending = .envelope line ∧ strip (readline h.output).1 = line.text ∧
        (readline h.output).2.2 = [] := by
  unfold Handling.output
  cases hended : (readline h.chatter).2.1 with
  | true =>
    left
    rw [readline_append_of_ended hended h.ending.output_head]
    exact hblank
  | false =>
    obtain ⟨hline, hfree⟩ := readline_not_ended hended
    rw [hline] at hblank
    cases hending : h.ending with
    | killed =>
      left
      rw [Ending.output, List.append_nil, hline, hblank]
    | envelope line =>
      right
      have hread : readline (h.chatter ++ (line.text ++ ['\n'])) =
          (h.chatter ++ line.text, true, []) := by
        rw [← List.append_assoc]
        refine readline_line fun c hc => ?_
        exact (List.mem_append.mp hc).elim (hfree c) (line.single_line c)
      refine ⟨line, rfl, ?_, ?_⟩
      · rw [Ending.output, hread]
        exact strip_blank_append hblank line
      · rw [Ending.output, hread]

/-- If the handlers print only space, the whole stdout strips to the envelope, or to
nothing when the process was killed. -/
theorem strip_output {h : Handling} (hblank : strip h.chatter = []) :
    strip h.output = h.emitted.headD [] := by
  unfold Handling.output Handling.emitted
  cases h.ending with
  | killed => rwa [Ending.output, List.append_nil]
  | envelope line =>
    rw [Ending.output, ← List.append_assoc]
    exact strip_pad line.solid (strip_eq_nil_iff.mp hblank) (List.forall_mem_singleton.mpr rfl)

/-- A one-shot run that prints only space beside its envelope returns the envelope. -/
theorem runOneShot_emitted {call : Call} {out : Text}
    (hblank : strip (call.executed call.request).chatter = [])
    (hout : runOneShot call = some out) : out ∈ (call.executed call.request).emitted := by
  simp only [runOneShot, strip_output hblank] at hout
  cases hemitted : (call.executed call.request).emitted with
  | nil => simp [hemitted] at hout
  | cons text rest =>
    simp only [hemitted, List.headD_cons] at hout
    split at hout
    · cases hout
    · simp [Option.some.inj hout]

/-- A new child and a child in step are the same to the next call. -/
theorem serveChild_of_inStep {serve : Option Pipe} (h : InStep serve) (running : Bool) :
    serveChild serve running = ⟨[], true⟩ := by
  cases serve with
  | none => rfl
  | some pipe =>
    rw [serveChild, h pipe rfl]
    split <;> rfl

/-- The spec of `handler` for a quiet call: it leaves the child in step, and what it
returns is an envelope of its own request. -/
theorem handler_quiet {serveEnabled : Bool} {serve : Option Pipe} {call : Call}
    (hserve : InStep serve) (hquiet : Quiet serveEnabled call) :
    InStep (handler serveEnabled serve call).1 ∧
      ∀ out, (handler serveEnabled serve call).2 = some out → out ∈ call.emitted := by
  have honeShot (hneeded : serveEnabled = false ∨ call.ioError = true ∨
      strip (readline (call.served call.request).output).1 = []) (out : Text)
      (hout : runOneShot call = some out) : out ∈ call.emitted :=
    List.mem_append_right _ (runOneShot_emitted (hquiet.executed hneeded) hout)
  cases serveEnabled with
  | false => exact ⟨hserve, honeShot (.inl rfl)⟩
  | true =>
    cases herror : call.ioError with
    | true =>
      simp only [handler, herror, if_true]
      exact ⟨by simp [InStep], honeShot (.inr (.inl herror))⟩
    | false =>
      simp only [handler, herror, if_true, serveChild_of_inStep hserve, Pipe.handle,
        List.nil_append, Bool.false_eq_true, if_false]
      rcases readline_output (hquiet.served rfl herror) with hnil | ⟨line, hending, hline, hrest⟩
      · rw [if_pos hnil]
        exact ⟨by simp [InStep], honeShot (.inr (.inr hnil))⟩
      · rw [if_neg (by rw [hline]; exact line.solid.ne_nil), hline, hrest, hending]
        refine ⟨by simp [InStep], ?_⟩
        rintro _ ⟨⟩
        exact List.mem_append_left _ (by simp [Handling.emitted, hending])

/-- The step rule: a quiet call keeps the child in step and the log right. -/
theorem turn_quiet {serveEnabled : Bool} {s t : Warm} {call : Call}
    (h : InStep s.serve ∧ OwnEnvelopes s) (hquiet : Quiet serveEnabled call)
    (hturn : turn serveEnabled s call = some t) : InStep t.serve ∧ OwnEnvelopes t := by
  obtain ⟨hserve, hown⟩ := handler_quiet h.1 hquiet
  simp only [turn, Option.some.injEq] at hturn
  subst hturn
  refine ⟨hserve, fun entry hentry => ?_⟩
  rcases List.mem_append.mp hentry with hold | hnew
  · exact h.2 entry hold
  · rw [List.mem_singleton.mp hnew]
    exact hown

/-- **Own envelopes over sequential runs.** On a container whose calls are all quiet,
whatever their handlers return and however often the serve child is killed, replaced
or given up for a one-shot run, each call that returned has returned an envelope that
the runner emitted for that call's own request. -/
theorem handler_returns_own_envelope {serveEnabled : Bool} {calls : List Call} {s : Warm}
    (hquiet : Machine.Guarded (turn serveEnabled) (fun _ => Quiet serveEnabled) .init calls)
    (hrun : Machine.run (turn serveEnabled) .init calls = some s) : OwnEnvelopes s :=
  (Machine.run_invariant (I := fun s => InStep s.serve ∧ OwnEnvelopes s)
    (fun _ _ _ h hok hstep => turn_quiet h hok hstep)
    ⟨by simp [InStep, Warm.init], by simp [OwnEnvelopes, Warm.init]⟩ hquiet hrun).2

/-- A line of user output takes the place of the envelope, and everything after it,
the envelope included, is left for the next call. -/
theorem handler_returns_chatter {serve : Option Pipe} {call : Call} (hserve : InStep serve)
    (herror : call.ioError = false)
    (hended : (readline (call.served call.request).chatter).2.1 = true)
    (hline : strip (readline (call.served call.request).chatter).1 ≠ []) :
    ∃ alive, handler true serve call =
      (some ⟨(readline (call.served call.request).chatter).2.2 ++
          (call.served call.request).ending.output, alive⟩,
        some (strip (readline (call.served call.request).chatter).1)) := by
  have hread := readline_append_of_ended hended (call.served call.request).ending.output_head
  simp only [handler, herror, if_true, serveChild_of_inStep hserve, Pipe.handle,
    List.nil_append, Handling.output, hread, if_neg hline, Bool.false_eq_true, if_false]
  exact ⟨_, rfl⟩

/-- The envelope `{"ok":true,"value":v}` of a digit `v`. -/
def digitEnvelope (v : Fin 10) : EnvelopeLine :=
  .braced ("\"ok\":true,\"value\":".toList ++ [Nat.digitChar v]) (by revert v; decide)

/-- A call of `echo` with input `v` whose handler first prints `chatter`. -/
def echoCall (chatter : Text) (v : Fin 10) : Call where
  request := ⟨"echo", [Nat.digitChar v]⟩
  running := true
  ioError := false
  served _ := ⟨chatter, .envelope (digitEnvelope v)⟩
  executed _ := ⟨chatter, .envelope (digitEnvelope v)⟩

/-- Two calls that print nothing, around one that prints an empty line and is
therefore repeated as a one-shot run. -/
theorem handler_returns_own_envelope_echo : ∃ s : Warm,
    Machine.run (turn true) .init [echoCall [] 1, echoCall ['\n'] 2, echoCall [] 3] = some s ∧
    Machine.Guarded (turn true) (fun _ => Quiet true) .init
      [echoCall [] 1, echoCall ['\n'] 2, echoCall [] 3] ∧ OwnEnvelopes s := by
  have hquiet : Machine.Guarded (turn true) (fun _ => Quiet true) .init
      [echoCall [] 1, echoCall ['\n'] 2, echoCall [] 3] := by decide
  exact ⟨_, rfl, hquiet, handler_returns_own_envelope hquiet rfl⟩

/-- A handler that prints one line shifts the container's answers: its caller gets the
printed line, and the next caller, whose handler prints nothing, gets its envelope. -/
theorem handler_returns_user_output : ∃ s : Warm,
    Machine.run (turn true) .init [echoCall "debug\n".toList 1, echoCall [] 2] = some s ∧
    s.log.map Prod.snd = [some "debug".toList, some (digitEnvelope 1).text] ∧
    ¬ OwnEnvelopes s := by
  refine ⟨_, rfl, by decide, fun h => ?_⟩
  exact absurd (h _ (.head _) "debug".toList rfl) (by decide)

end ModalRust.Wrapper
