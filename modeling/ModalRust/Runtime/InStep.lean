import ModalRust.Runtime.Call
import ModalRust.Wrapper.Sequential

/-!
# The serve loop stays in step with its input

The callers at the other end of the pipes read one line for each line they write, so the
loop must answer every line that is not blank with exactly one line. `Answered` says so
of a whole stream. Each line that decodes keeps the loop in step, whatever it holds; a
line that is not UTF-8 ends the loop without an answer, because reading it fails the way
a broken pipe does.
-/

namespace ModalRust.Runtime

variable {σ : Type*}

/-- The output `out` answers the lines in order: one envelope, on one line, for each line
that is not blank. The answer to a text is that of the loop body in the state that the
earlier lines left behind; what a line that is no text is answered with is left open. -/
inductive Answered (platform : Platform) (registry : Registry σ) (callers : List Text) :
    Proc σ → List Bytes → Text → Prop
  /-- The end of the input. -/
  | nil (proc : Proc σ) : Answered platform registry callers proc [] []
  /-- A blank line has no answer. -/
  | blank {proc : Proc σ} {bytes : Bytes} {rest : List Bytes} {line out : Text}
      (hline : fromUtf8 bytes = some line) (hblank : isBlank line = true)
      (hrest : Answered platform registry callers proc rest out) :
      Answered platform registry callers proc (bytes :: rest) out
  /-- Any other text is answered with one envelope. -/
  | answer {proc : Proc σ} {bytes : Bytes} {rest : List Bytes} {line out : Text}
      {envelope : Json} (hline : fromUtf8 bytes = some line) (hblank : isBlank line = false)
      (henvelope : IsEnvelope envelope) (hsingle : ∀ c ∈ envelope.print, isBreak c = false)
      (hreply : (serveLine platform registry callers line proc).out = emitLine envelope)
      (hrest : Answered platform registry callers
        (serveLine platform registry callers line proc).proc rest out) :
      Answered platform registry callers proc (bytes :: rest) (emitLine envelope ++ out)
  /-- So is a line that is not UTF-8. -/
  | undecodable {proc proc' : Proc σ} {bytes : Bytes} {rest : List Bytes} {out : Text}
      {envelope : Json} (hline : fromUtf8 bytes = none) (henvelope : IsEnvelope envelope)
      (hsingle : ∀ c ∈ envelope.print, isBreak c = false)
      (hrest : Answered platform registry callers proc' rest out) :
      Answered platform registry callers proc (bytes :: rest) (emitLine envelope ++ out)

/-- The envelope of a call's result is an envelope. -/
theorem isEnvelope_envelopeOf (answer : Except RunnerError Json) :
    IsEnvelope (envelopeOf answer) := by
  cases answer with
  | ok value => exact .success value
  | error err => exact .failure err

/-- The request path writes one envelope. -/
theorem serveRequestFrame_out (platform : Platform) (registry : Registry σ) (callers : List Text)
    (line : Text) (proc : Proc σ) : ∃ envelope, IsEnvelope envelope ∧
      (serveRequestFrame platform registry callers line proc).out = emitLine envelope := by
  unfold serveRequestFrame
  cases platform.parseServeRequest line with
  | error e => exact ⟨_, .failure _, rfl⟩
  | ok req =>
    simp only [serveOne_eq_call]
    exact ⟨_, isEnvelope_envelopeOf _, rfl⟩

/-- **A line that is not blank is answered with one envelope**, whatever it holds and
however the handlers and primes end. -/
theorem serveLine_out (platform : Platform) (registry : Registry σ) (callers : List Text)
    {line : Text} (proc : Proc σ) (hblank : isBlank line = false) :
    ∃ envelope, IsEnvelope envelope ∧
      (serveLine platform registry callers line proc).out = emitLine envelope := by
  have hblank : ¬ isBlank line = true := by simp [hblank]
  rw [serveLine, if_neg hblank]
  split
  · split_ifs
    · exact serveRequestFrame_out platform registry callers line proc
    · exact ⟨_, .primed _ _ _, rfl⟩
    · exact ⟨_, .failure _, rfl⟩
  · exact serveRequestFrame_out platform registry callers line proc

/-- A blank line writes nothing and changes nothing. -/
theorem serveLine_of_blank {platform : Platform} {registry : Registry σ} {callers : List Text}
    {line : Text} {proc : Proc σ} (hblank : isBlank line = true) :
    serveLine platform registry callers line proc = ⟨[], [], proc⟩ := by
  rw [serveLine, if_pos hblank]

/-- On texts the loop stays in step and reads to the end. -/
theorem answered_of_decodable {platform : Platform} {registry : Registry σ}
    {callers : List Text} {lines : List Bytes} {proc : Proc σ}
    (hlines : ∀ bytes ∈ lines, (fromUtf8 bytes).isSome = true) :
    Answered platform registry callers proc lines
        (serveLines platform registry callers lines proc).out ∧
      (serveLines platform registry callers lines proc).unread = [] := by
  induction lines generalizing proc with
  | nil => exact ⟨.nil proc, rfl⟩
  | cons bytes rest ih =>
    obtain ⟨line, hline⟩ := Option.isSome_iff_exists.mp (hlines bytes List.mem_cons_self)
    have hrest : ∀ proc, Answered platform registry callers proc rest
          (serveLines platform registry callers rest proc).out ∧
        (serveLines platform registry callers rest proc).unread = [] := by
      intro proc
      exact ih fun b hb => hlines b (List.mem_cons_of_mem _ hb)
    obtain ⟨hanswered, hunread⟩ := hrest (serveLine platform registry callers line proc).proc
    rw [serveLines_cons hline]
    refine ⟨?_, hunread⟩
    by_cases hblank : isBlank line = true
    · rw [serveLine_of_blank hblank] at hanswered ⊢
      exact .blank hline hblank hanswered
    · have hblank : isBlank line = false := by simpa using hblank
      obtain ⟨envelope, henvelope, hreply⟩ :=
        serveLine_out platform registry callers proc hblank
      simp only [hreply]
      exact .answer hline hblank henvelope (fun c hc => JsonTree.isBreak_of_mem_print hc) hreply
        hanswered

/-- A stream that the loop answered in full holds texts only. -/
theorem decodable_of_answered {platform : Platform} {registry : Registry σ}
    {callers : List Text} {lines : List Bytes} {proc : Proc σ}
    (hanswered : Answered platform registry callers proc lines
      (serveLines platform registry callers lines proc).out) :
    ∀ bytes ∈ lines, (fromUtf8 bytes).isSome = true := by
  induction lines generalizing proc with
  | nil => intro bytes hbytes; cases hbytes
  | cons bytes rest ih =>
    cases hline : fromUtf8 bytes with
    | none =>
      -- The loop wrote nothing for this line, but an answer has at least a newline.
      have hnothing : (serveLines platform registry callers (bytes :: rest) proc).out = [] := by
        simp only [serveLines, hline]
      rw [hnothing] at hanswered
      generalize hout : ([] : Text) = out at hanswered
      cases hanswered with
      | blank hsome => rw [hline] at hsome; cases hsome
      | answer hsome => rw [hline] at hsome; cases hsome
      | undecodable => simp [emitLine] at hout
    | some line =>
      rw [serveLines_cons hline] at hanswered
      have hrest : Answered platform registry callers
          (serveLine platform registry callers line proc).proc rest
          (serveLines platform registry callers rest
            (serveLine platform registry callers line proc).proc).out := by
        generalize hout : Served.out _ = out at hanswered
        cases hanswered with
        | blank hsome hblank hrest =>
          obtain rfl : line = _ := Option.some.inj (hline.symm.trans hsome)
          simp only [serveLine_of_blank hblank, List.nil_append] at hout ⊢
          rw [hout]
          exact hrest
        | answer hsome hblank henvelope hsingle hreply hrest =>
          obtain rfl : line = _ := Option.some.inj (hline.symm.trans hsome)
          simp only [hreply] at hout
          rw [List.append_cancel_left hout]
          exact hrest
        | undecodable hnone => rw [hline] at hnone; cases hnone
      intro b hb
      rcases List.mem_cons.mp hb with rfl | hb
      · simp [hline]
      · exact ih hrest b hb

/-- **The serve loop stays in step exactly on streams whose lines are UTF-8.** Then it
answers every line that is not blank with one single-line envelope, in order, and stops
only at the end of the input. -/
theorem runServeWithIo_inStep_iff (platform : Platform) (registry : Registry σ)
    (callers : List Text) (input : Bytes) (proc : Proc σ) :
    (Answered platform registry callers proc (byteLines input)
        (runServeWithIo platform registry callers input proc).out ∧
      (runServeWithIo platform registry callers input proc).unread = []) ↔
        ∀ bytes ∈ byteLines input, (fromUtf8 bytes).isSome = true :=
  ⟨fun h => decodable_of_answered h.1, answered_of_decodable⟩

/-- A byte that is no UTF-8 ends the loop at once: the next line is never read, and
neither line is answered. -/
theorem undecodable_line_ends_loop :
    let served := runServeWithIo (.ofTable [] []) (Registry.new (σ := Unit)) []
      [0xFF, 10, 0x7b, 0x7d, 10] (.fresh ())
    served.out = [] ∧ served.unread = [[0x7b, 0x7d]] ∧ served.code = 1 ∧
      ¬ (Answered (.ofTable [] []) Registry.new [] (.fresh ())
          (byteLines [0xFF, 10, 0x7b, 0x7d, 10]) served.out ∧ served.unread = []) := by
  refine ⟨by decide, by decide, by decide, fun h => ?_⟩
  exact absurd h.2 (by decide)

end ModalRust.Runtime
