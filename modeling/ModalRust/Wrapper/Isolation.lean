import ModalRust.Machine
import ModalRust.Wrapper.InTurn

/-!
# Isolation of concurrent calls

The invariant of the previous file holds along every run whose steps are in turn,
so such runs never mix calls up. A step out of turn does mix them up: the two
exactness lemmas name the step, and a concrete schedule shows both cases.
-/

namespace ModalRust.Wrapper

variable {ι E : Type*} [DecidableEq ι]

/-- The step rule: a step taken in turn keeps the invariant. -/
theorem step_consistent {serveEnabled : Bool} {request : ι → Request} {s t : Container ι E}
    {action : Action ι E} (h : Consistent request s) (hturn : InTurn s action)
    (hstep : step serveEnabled request s action = some t) : Consistent request t := by
  cases action with
  | call c =>
    simp only [step] at hstep
    split at hstep <;> [skip; cases hstep]
    split at hstep
    · exact Option.some.inj hstep ▸ h.serveChild.goto rfl
    · exact Option.some.inj hstep ▸ h.goto rfl
  | write c =>
    simp only [step] at hstep
    split at hstep <;> [skip; cases hstep]
    next k _ =>
    split at hstep
    · next halive =>
      exact Option.some.inj hstep ▸ (h.setChild ((h.children k).write halive c)).goto rfl
    · exact Option.some.inj hstep ▸ h.fallback c
  | respond k envelope =>
    simp only [step] at hstep
    split at hstep <;> [skip; cases hstep]
    next frame rest halive hstdin =>
    exact Option.some.inj hstep ▸ h.setChild ((h.children k).respond halive hstdin envelope)
  | exit k =>
    simp only [step] at hstep
    exact Option.some.inj hstep ▸ h.setChild (h.children k).exit
  | read c =>
    simp only [step] at hstep
    split at hstep <;> [skip; cases hstep]
    next k hphase =>
    split at hstep
    · next answer rest hstdout =>
      obtain ⟨hown, hchild⟩ := (h.children k).read hstdout
        (hturn k hphase (by rw [hstdout]; simp))
      have hset := h.setChild (k := k) hchild
      refine Option.some.inj hstep ▸ ⟨hset.children, hset.file.goto rfl, hset.isolated.goto ?_⟩
      rintro _ ⟨⟩
      exact hown
    · next hstdout =>
      split at hstep <;> [cases hstep; skip]
      next hdead =>
      refine Option.some.inj hstep ▸ (h.setChild ?_).fallback c
      exact (h.children k).read_eof hstdout (by simpa using hdead) c
  | openFile c =>
    simp only [step] at hstep
    split at hstep <;> [skip; cases hstep]
    exact Option.some.inj hstep ▸ h.openFile hturn
  | writeFile c n =>
    simp only [step] at hstep
    split at hstep <;> [skip; cases hstep]
    next off hphase => exact Option.some.inj hstep ▸ h.writeFile hphase n
  | closeFile c =>
    simp only [step] at hstep
    split at hstep <;> [skip; cases hstep]
    next off hphase =>
    split at hstep <;> [skip; cases hstep]
    next hoff => exact Option.some.inj hstep ▸ h.closeFile (hoff ▸ hphase)
  | exec c envelope =>
    simp only [step] at hstep
    split at hstep
    · next hphase => exact Option.some.inj hstep ▸ h.exec hphase _
    · exact Option.some.inj hstep ▸ h.goto rfl
    · cases hstep

/-- **Request isolation of calls that keep their turn.** On one container, with the
serve child enabled or not, in every state that is reached by any interleaving whose
steps are all in turn, each call that returned has returned an envelope that the
runner produced for that call's own entrypoint and input. -/
theorem handler_isolated_in_turn {serveEnabled : Bool} {request : ι → Request}
    {schedule : List (Action ι E)} {s : Container ι E}
    (hturn : Machine.Guarded (step serveEnabled request) InTurn .init schedule)
    (hrun : Machine.run (step serveEnabled request) .init schedule = some s) :
    Isolated request s :=
  (Machine.run_invariant (fun _ _ _ h hok hstep => step_consistent h hok hstep)
    (Consistent.init request) hturn hrun).isolated

/-- A ready response that is read out of turn goes to the wrong call. -/
theorem not_isolated_of_read_out_of_turn {serveEnabled : Bool} {request : ι → Request}
    {s t : Container ι E} (h : Consistent request s) {c : ι} {k : ℕ}
    (hphase : s.phase c = .written k) (hready : (s.children k).stdout ≠ [])
    (hout : (s.children k).waiting.head? ≠ some c)
    (hstep : step serveEnabled request s (.read c) = some t) : ¬ Isolated request t := by
  obtain ⟨answer, rest, hstdout⟩ := List.exists_cons_of_ne_nil hready
  obtain ⟨later, hlater⟩ := (h.children k).answers
  have horigin : answer.origin ≠ c := by
    rintro rfl
    apply hout
    rw [← hlater, hstdout]
    rfl
  simp only [step, hphase, hstdout] at hstep
  intro hisolated
  exact horigin (hisolated c answer (by rw [← Option.some.inj hstep]; simp)).1

/-- A call that opens `/tmp/in.json` while another call's runner is about to read its
nonempty input from it makes that runner execute the empty input. -/
theorem not_isolated_of_open_out_of_turn {serveEnabled : Bool} {request : ι → Request}
    {s t : Container ι E} {c d : ι} (hclosed : s.phase c = .closed)
    (honeShot : s.phase d = .oneShot) (hinput : (request c).inputJson ≠ []) (envelope : E)
    (hrun : Machine.run (step serveEnabled request) s [.openFile d, .exec c (some envelope)] =
      some t) : ¬ Isolated request t := by
  have hcd : c ≠ d := by
    rintro rfl
    rw [hclosed] at honeShot
    cases honeShot
  have hopened : (s.goto d (.writing 0)).phase c = .closed := by
    rw [s.goto_phase_of_ne _ hcd, hclosed]
  simp only [Machine.run, step, honeShot, Option.bind_some, hopened] at hrun
  intro hisolated
  have hrequest := (hisolated c ⟨c, ⟨(request c).entrypoint, []⟩, envelope⟩
    (by rw [← Option.some.inj hrun]; simp)).2
  exact hinput (by rw [← hrequest])

/-- Two calls of one entrypoint with different inputs. -/
def twoRequests (c : Fin 2) : Request :=
  if c = 0 then ⟨"add", "1".toList⟩ else ⟨"add", "2".toList⟩

/-- The two calls take turns on the serve path: call `0` is answered before call
`1`, in the order in which they wrote. -/
theorem handler_isolated_in_turn_two : ∃ s : Container (Fin 2) String,
    Machine.run (step true twoRequests) .init
      [.call 0, .call 1, .write 0, .write 1, .respond 0 "one", .respond 0 "two",
        .read 0, .read 1] = some s ∧
    Machine.Guarded (step (E := String) true twoRequests) InTurn .init
      [.call 0, .call 1, .write 0, .write 1, .respond 0 "one", .respond 0 "two",
        .read 0, .read 1] ∧ Isolated twoRequests s := by
  have hturn : Machine.Guarded (step (E := String) true twoRequests) InTurn .init
      [.call 0, .call 1, .write 0, .write 1, .respond 0 "one", .respond 0 "two",
        .read 0, .read 1] := by
    refine ⟨trivial, trivial, trivial, trivial, trivial, trivial, ?_, ?_, trivial⟩
    · rintro k ⟨⟩ _
      rfl
    · rintro k ⟨⟩ _
      rfl
  exact ⟨_, rfl, hturn, handler_isolated_in_turn hturn rfl⟩

/-- Out of turn the wrapper mixes calls up. On the serve path call `0` writes first
but call `1` reads first, so each gets the other's envelope. On the one-shot path
call `1` replaces `/tmp/in.json` before the runner of call `0` reads it, so call `0`
gets the envelope for the input of call `1`. -/
theorem handler_mixes_up_concurrent_calls :
    (∃ s : Container (Fin 2) String,
      Machine.run (step true twoRequests) .init
        [.call 0, .call 1, .write 0, .write 1, .respond 0 "one", .respond 0 "two",
          .read 1, .read 0] = some s ∧
      s.phase 0 = .returned ⟨1, twoRequests 1, "two"⟩ ∧
      s.phase 1 = .returned ⟨0, twoRequests 0, "one"⟩ ∧ ¬ Isolated twoRequests s) ∧
    (∃ s : Container (Fin 2) String,
      Machine.run (step false twoRequests) .init
        [.call 0, .call 1, .openFile 0, .writeFile 0 1, .closeFile 0, .openFile 1,
          .writeFile 1 1, .closeFile 1, .exec 0 (some "two"), .exec 1 (some "two")] = some s ∧
      s.phase 0 = .returned ⟨0, twoRequests 1, "two"⟩ ∧ ¬ Isolated twoRequests s) := by
  refine ⟨⟨_, rfl, rfl, rfl, fun h => ?_⟩, ⟨_, rfl, rfl, fun h => ?_⟩⟩
  · exact absurd (h 0 ⟨1, twoRequests 1, "two"⟩ rfl).1 (by decide)
  · exact absurd (h 0 ⟨0, twoRequests 1, "two"⟩ rfl).2 (by decide)

end ModalRust.Wrapper
