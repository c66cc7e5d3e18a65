import ModalRust.Wrapper.Container

/-!
# Calls that keep their turn

The wrapper has no lock and its frames carry no correlation id, so nothing in the
code pairs a response with a request except the order of the steps. This file
isolates the order that suffices: no call reads a response before the calls that
wrote earlier to the same child, and no call opens `/tmp/in.json` while another
call is using it. The invariant is proved for each part of the container.
-/

namespace ModalRust.Wrapper

variable {ι E : Type*}

/-- Call `c` is between opening `/tmp/in.json` and its runner's reading it. -/
def Phase.holdsFile : Phase ι E → Bool
  | .writing _ => true
  | .closed => true
  | _ => false

/-- The calls do not overtake each other: when a response line is ready, only the
call that has waited longest for that child reads it, and `/tmp/in.json` is opened
only while no other call is between opening it and its exec. -/
def InTurn (s : Container ι E) : Action ι E → Prop
  | .read c => ∀ k, s.phase c = .written k → (s.children k).stdout ≠ [] →
      (s.children k).waiting.head? = some c
  | .openFile _ => ∀ d, (s.phase d).holdsFile = false
  | _ => True

/-- Call `c` has neither the file nor a result in this phase. -/
def Phase.isQuiet : Phase ι E → Bool
  | .writing _ => false
  | .closed => false
  | .returned _ => false
  | _ => true

/-- What runs in turn preserve of one child: it answers in the order in which the
waiting calls wrote, and its pipes carry the callers' own requests. -/
structure Child.Ordered (request : ι → Request) (child : Child ι E) : Prop where
  /-- The unread answers belong to the calls that have waited longest. -/
  answers : child.stdout.map Answer.origin <+: child.waiting
  /-- On a running child the remaining waiting calls have their frames queued. -/
  frames : child.alive = true →
    child.waiting = child.stdout.map Answer.origin ++ child.stdin.map Frame.caller
  /-- Queued frames carry the request of the call that wrote them. -/
  stdin_own : ∀ frame ∈ child.stdin, frame.request = request frame.caller
  /-- Unread answers were computed for the request of their call. -/
  stdout_own : ∀ answer ∈ child.stdout, answer.request = request answer.origin

/-- What runs in turn preserve of the file: it has a single writer, and holds what
that writer has written so far. -/
structure Container.FileOwned (request : ι → Request) (s : Container ι E) : Prop where
  /-- At most one call is between opening the file and its exec. -/
  one_writer : ∀ c d, (s.phase c).holdsFile = true → (s.phase d).holdsFile = true → c = d
  /-- The writer's progress is the file's content. -/
  written : ∀ c off, s.phase c = .writing off → off ≤ (request c).inputJson.length ∧
    s.file = (request c).inputJson.take off
  /-- A closed file holds the whole input of its writer. -/
  complete : ∀ c, s.phase c = .closed → s.file = (request c).inputJson

/-- The invariant of runs in turn. -/
structure Consistent (request : ι → Request) (s : Container ι E) : Prop where
  /-- Every child answers in order. -/
  children : ∀ k, (s.children k).Ordered request
  /-- The file belongs to its single writer. -/
  file : s.FileOwned request
  /-- The calls that returned so far got their own envelope. -/
  isolated : Isolated request s

theorem Phase.holdsFile_of_isQuiet {p : Phase ι E} (h : p.isQuiet = true) :
    p.holdsFile = false := by
  cases p <;> simp_all [isQuiet, holdsFile]

/-- A fresh child is in order. -/
theorem Child.Ordered.fresh (request : ι → Request) : (Child.fresh : Child ι E).Ordered request :=
  ⟨by simp [Child.fresh], by simp [Child.fresh], by simp [Child.fresh], by simp [Child.fresh]⟩

/-- The container before the first call satisfies the invariant. -/
theorem Consistent.init (request : ι → Request) :
    Consistent request (Container.init : Container ι E) := by
  refine ⟨fun _ => .fresh request, ⟨?_, ?_, ?_⟩, ?_⟩
  · simp [Container.init, Phase.holdsFile]
  · simp [Container.init]
  · simp [Container.init]
  · simp [Isolated, Container.init]

/-- A child may be replaced by one that is in order. -/
theorem Consistent.setChild {request : ι → Request} {s : Container ι E}
    (h : Consistent request s) {k : ℕ} {child : Child ι E} (hchild : child.Ordered request) :
    Consistent request (s.setChild k child) := by
  refine ⟨fun j => ?_, ⟨h.file.one_writer, h.file.written, h.file.complete⟩, h.isolated⟩
  by_cases hjk : j = k
  · simpa [Container.setChild, hjk] using hchild
  · simpa [Container.setChild, hjk] using h.children j

/-- The invariant does not speak about `_SERVE` and the number of children. -/
theorem Consistent.of_serve {request : ι → Request} {s : Container ι E}
    (h : Consistent request s) (serve : Option ℕ) (spawned : ℕ) :
    Consistent request { s with serve := serve, spawned := spawned } :=
  ⟨h.children, ⟨h.file.one_writer, h.file.written, h.file.complete⟩, h.isolated⟩

/-- Queuing the frame of a call behind the frames of the calls already waiting. -/
theorem Child.Ordered.write {request : ι → Request} {child : Child ι E}
    (h : child.Ordered request) (halive : child.alive = true) (c : ι) :
    Child.Ordered request { child with
      stdin := child.stdin ++ [⟨c, request c⟩], waiting := child.waiting ++ [c] } := by
  refine ⟨h.answers.trans (List.prefix_append _ _), fun _ => ?_, ?_, h.stdout_own⟩
  · simp [h.frames halive]
  · intro frame hframe
    rcases List.mem_append.mp hframe with hframe | hframe
    · exact h.stdin_own frame hframe
    · obtain rfl := List.mem_singleton.mp hframe
      rfl

/-- The serve loop answers the oldest queued frame. -/
theorem Child.Ordered.respond {request : ι → Request} {child : Child ι E}
    (h : child.Ordered request) (halive : child.alive = true) {frame : Frame ι}
    {rest : List (Frame ι)} (hstdin : child.stdin = frame :: rest) (envelope : E) :
    Child.Ordered request { child with
      stdin := rest,
      stdout := child.stdout ++ [⟨frame.caller, frame.request, envelope⟩] } := by
  have hframes := h.frames halive
  rw [hstdin] at hframes
  refine ⟨?_, fun _ => by simp [hframes], ?_, ?_⟩
  · rw [hframes]
    exact ⟨rest.map Frame.caller, by simp⟩
  · intro f hf
    exact h.stdin_own f (by rw [hstdin]; simp [hf])
  · intro answer hanswer
    rcases List.mem_append.mp hanswer with hanswer | hanswer
    · exact h.stdout_own answer hanswer
    · obtain rfl := List.mem_singleton.mp hanswer
      exact h.stdin_own frame (by rw [hstdin]; simp)

/-- A child that exits loses its queued frames but not what it wrote. -/
theorem Child.Ordered.exit {request : ι → Request} {child : Child ι E}
    (h : child.Ordered request) : Child.Ordered request { child with alive := false } :=
  ⟨h.answers, by simp, h.stdin_own, h.stdout_own⟩

/-- `_serve_child` keeps the invariant: a spawned child has empty pipes. -/
theorem Consistent.serveChild {request : ι → Request} {s : Container ι E}
    (h : Consistent request s) : Consistent request s.serveChild.2 := by
  have hspawn := (h.setChild (k := s.spawned) (.fresh request)).of_serve
    (some s.spawned) (s.spawned + 1)
  unfold Container.serveChild
  cases s.serve with
  | none => exact hspawn
  | some k =>
    dsimp only
    split
    · exact h
    · exact hspawn

variable [DecidableEq ι]

@[simp] theorem Container.goto_phase_self (s : Container ι E) (c : ι) (p : Phase ι E) :
    (s.goto c p).phase c = p := by simp [goto]

theorem Container.goto_phase_of_ne (s : Container ι E) {c d : ι} (p : Phase ι E) (h : d ≠ c) :
    (s.goto c p).phase d = s.phase d := by simp [goto, h]

/-- A call that moves to a quiet phase leaves the file to the others. -/
theorem Container.FileOwned.goto {request : ι → Request} {s : Container ι E}
    (h : s.FileOwned request) {c : ι} {p : Phase ι E} (hp : p.holdsFile = false) :
    (s.goto c p).FileOwned request := by
  have hne : ∀ {d : ι} {q : Phase ι E}, (s.goto c p).phase d = q → q.holdsFile = true →
      s.phase d = q := by
    intro d q hd hq
    by_cases hdc : d = c
    · rw [hdc, s.goto_phase_self] at hd
      rw [← hd, hp] at hq
      exact absurd hq (by decide)
    · rwa [s.goto_phase_of_ne p hdc] at hd
  refine ⟨fun d e hd he => ?_, fun d off hd => h.written d off (hne hd rfl),
    fun d hd => h.complete d (hne hd rfl)⟩
  exact h.one_writer d e (by rwa [hne rfl hd]) (by rwa [hne rfl he])

/-- Moving to a quiet phase returns nothing. -/
theorem Isolated.goto {request : ι → Request} {s : Container ι E} (h : Isolated request s)
    {c : ι} {p : Phase ι E}
    (hp : ∀ answer, p = .returned answer → answer.origin = c ∧ answer.request = request c) :
    Isolated request (s.goto c p) := by
  intro d answer hd
  by_cases hdc : d = c
  · subst hdc
    exact hp answer (by simpa using hd)
  · rw [s.goto_phase_of_ne p hdc] at hd
    exact h d answer hd

/-- A call may move to a quiet phase at any time. -/
theorem Consistent.goto {request : ι → Request} {s : Container ι E} (h : Consistent request s)
    {c : ι} {p : Phase ι E} (hp : p.isQuiet = true) : Consistent request (s.goto c p) := by
  refine ⟨h.children, h.file.goto (Phase.holdsFile_of_isQuiet hp), h.isolated.goto ?_⟩
  rintro answer rfl
  simp [Phase.isQuiet] at hp

/-- Falling back to the one-shot path keeps the invariant. -/
theorem Consistent.fallback {request : ι → Request} {s : Container ι E}
    (h : Consistent request s) (c : ι) : Consistent request (s.fallback c) :=
  (h.goto (p := .oneShot) rfl).of_serve none s.spawned

/-- The longest-waiting call reads its own answer, and leaves the child in order. -/
theorem Child.Ordered.read {request : ι → Request} {child : Child ι E}
    (h : child.Ordered request) {answer : Answer ι E} {rest : List (Answer ι E)}
    (hstdout : child.stdout = answer :: rest) {c : ι} (hturn : child.waiting.head? = some c) :
    (answer.origin = c ∧ answer.request = request c) ∧ Child.Ordered request { child with
      stdout := rest, waiting := child.waiting.erase c } := by
  obtain ⟨later, hlater⟩ := h.answers
  obtain rfl : answer.origin = c := by
    rw [← hlater, hstdout] at hturn
    simpa using hturn
  have hrest : child.waiting = answer.origin :: (rest.map Answer.origin ++ later) := by
    rw [← hlater, hstdout]
    rfl
  refine ⟨⟨rfl, h.stdout_own answer (by rw [hstdout]; simp)⟩, ?_, fun halive => ?_, h.stdin_own,
    fun a ha => h.stdout_own a (by rw [hstdout]; simp [ha])⟩
  · simp [hrest]
  · have hframes := h.frames halive
    rw [hstdout, List.map_cons, List.cons_append] at hframes
    simp [hframes]

/-- A call that reads end of file stops waiting. -/
theorem Child.Ordered.read_eof {request : ι → Request} {child : Child ι E}
    (h : child.Ordered request) (hstdout : child.stdout = []) (halive : child.alive = false)
    (c : ι) : Child.Ordered request { child with waiting := child.waiting.erase c } :=
  ⟨by simp [hstdout], by simp [halive], h.stdin_own, by simp [hstdout]⟩

/-- Opening the file in turn makes the call its single writer. -/
theorem Consistent.openFile {request : ι → Request} {s : Container ι E}
    (h : Consistent request s) {c : ι} (hturn : ∀ d, (s.phase d).holdsFile = false) :
    Consistent request { s.goto c (.writing 0) with file := [] } := by
  have honly : ∀ d, ((s.goto c (.writing 0)).phase d).holdsFile = true → d = c := by
    intro d hd
    by_contra hdc
    rw [s.goto_phase_of_ne _ hdc, hturn d] at hd
    exact absurd hd (by decide)
  refine ⟨h.children, ⟨?_, ?_, ?_⟩, h.isolated.goto (by simp)⟩
  · intro d e hd he
    rw [honly d hd, honly e he]
  · intro d off hd
    obtain rfl := honly d (by rw [hd]; rfl)
    have hoff : 0 = off := by simpa using hd
    simp [← hoff]
  · intro d hd
    obtain rfl := honly d (by rw [hd]; rfl)
    simp at hd

/-- Writing the next part of the input at the end of what is already there extends
the file. -/
theorem overwrite_take (input : Text) (off n : ℕ) (hoff : off ≤ input.length) :
    overwrite (input.take off) off ((input.drop off).take n) =
      input.take (off + ((input.drop off).take n).length) := by
  have hlength : (input.take off).length = off := by simp [hoff]
  have hdrop : (input.take off).drop (off + ((input.drop off).take n).length) = [] :=
    List.drop_eq_nil_of_le (by rw [hlength]; omega)
  have hchunk : (input.drop off).take ((input.drop off).take n).length =
      (input.drop off).take n := by
    rw [List.take_eq_take_iff]
    simp
  rw [List.take_add, hchunk]
  unfold overwrite
  rw [hdrop, hlength, List.take_take, Nat.min_self, Nat.sub_self]
  simp

/-- The single writer's next write extends the file to its new progress. -/
theorem Consistent.writeFile {request : ι → Request} {s : Container ι E}
    (h : Consistent request s) {c : ι} {off : ℕ} (hphase : s.phase c = .writing off) (n : ℕ) :
    let chunk := ((request c).inputJson.drop off).take n
    Consistent request
      { s.goto c (.writing (off + chunk.length)) with file := overwrite s.file off chunk } := by
  intro chunk
  obtain ⟨hoff, hfile⟩ := h.file.written c off hphase
  have honly : ∀ d, ((s.goto c (.writing (off + chunk.length))).phase d).holdsFile = true →
      d = c := by
    intro d hd
    by_contra hdc
    rw [s.goto_phase_of_ne _ hdc] at hd
    exact hdc (h.file.one_writer d c hd (by rw [hphase]; rfl))
  refine ⟨h.children, ⟨?_, ?_, ?_⟩, h.isolated.goto (by simp)⟩
  · intro d e hd he
    rw [honly d hd, honly e he]
  · intro d off' hd
    obtain rfl := honly d (by rw [hd]; rfl)
    have hoff' : off + chunk.length = off' := by simpa using hd
    refine ⟨?_, ?_⟩
    · rw [← hoff']
      simp only [chunk, List.length_take, List.length_drop]
      omega
    · rw [← hoff']
      change overwrite s.file off chunk = _
      rw [hfile]
      exact overwrite_take _ _ _ hoff
  · intro d hd
    obtain rfl := honly d (by rw [hd]; rfl)
    simp at hd

/-- A file that is closed after its last character was written is complete. -/
theorem Consistent.closeFile {request : ι → Request} {s : Container ι E}
    (h : Consistent request s) {c : ι}
    (hphase : s.phase c = .writing (request c).inputJson.length) :
    Consistent request (s.goto c .closed) := by
  have hfile := (h.file.written c _ hphase).2
  rw [List.take_length] at hfile
  have honly : ∀ d, ((s.goto c .closed).phase d).holdsFile = true → d = c := by
    intro d hd
    by_contra hdc
    rw [s.goto_phase_of_ne _ hdc] at hd
    exact hdc (h.file.one_writer d c hd (by rw [hphase]; rfl))
  refine ⟨h.children, ⟨?_, ?_, ?_⟩, h.isolated.goto (by simp)⟩
  · intro d e hd he
    rw [honly d hd, honly e he]
  · intro d off hd
    obtain rfl := honly d (by rw [hd]; rfl)
    simp at hd
  · intro d hd
    obtain rfl := honly d (by rw [hd]; rfl)
    exact hfile

/-- The runner of a call whose file is complete executes that call's request. -/
theorem Consistent.exec {request : ι → Request} {s : Container ι E}
    (h : Consistent request s) {c : ι} (hphase : s.phase c = .closed) (envelope : E) :
    Consistent request
      (s.goto c (.returned ⟨c, ⟨(request c).entrypoint, s.file⟩, envelope⟩)) := by
  refine ⟨h.children, h.file.goto rfl, h.isolated.goto ?_⟩
  rintro answer hanswer
  obtain rfl := Phase.returned.inj hanswer
  exact ⟨rfl, by rw [h.file.complete c hphase]⟩

end ModalRust.Wrapper
