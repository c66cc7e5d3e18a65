import Mathlib.Logic.Function.Basic
import ModalRust.Machine
import ModalRust.Text

/-!
# Storing and building runners concurrently

`_store_cached_runner` copies the runner to `runner-<key>.tmp` and renames it to
`runner-<key>`. All containers that build one key use the same temporary name, and a file
that is renamed while another container has it open is still being written. Within one
container, nothing keeps a call from building while another one executes. As long as
stores do not overlap, the stored file is whole; and as long as builds do not, no call
executes a runner that is being written.
-/

namespace ModalRust.RunWrapper

/-- How far a container's `_store_cached_runner` has come. -/
inductive StorePhase
  /-- Not storing. -/
  | idle
  /-- The temporary file is open as inode `file`, and `off` bytes are written. -/
  | writing (file off : ℕ)
  /-- The copy is complete and closed. -/
  | written
  deriving DecidableEq

/-- The cache volume, for one key, and the containers that share it. -/
structure Volume (ι : Type) where
  /-- The content of each inode. -/
  content : ℕ → Bytes
  /-- The next new inode. -/
  next : ℕ
  /-- `runner-<key>.tmp`. -/
  tmp : Option ℕ
  /-- `runner-<key>`. -/
  runner : Option ℕ
  /-- The containers. -/
  phase : ι → StorePhase

/-- A step of a container. -/
inductive StoreAction (ι : Type)
  /-- Open the temporary file for writing, which truncates it. -/
  | openTmp (c : ι)
  /-- Write at most `n` more bytes of the runner. -/
  | write (c : ι) (n : ℕ)
  /-- Close the complete copy. -/
  | close (c : ι)
  /-- `os.replace(tmp, cached)`. -/
  | rename (c : ι)
  /-- The store fails, or the container is killed. -/
  | fail (c : ι)

/-- Write bytes into a file at an offset. A gap before them is filled with zeros. -/
def writeAt (file : Bytes) (off : ℕ) (chunk : Bytes) : Bytes :=
  file.take off ++ List.replicate (off - file.length) 0 ++ chunk ++ file.drop (off + chunk.length)

variable {ι : Type}

section Steps

variable [DecidableEq ι]

/-- A container comes to another phase. -/
def Volume.goto (s : Volume ι) (c : ι) (phase : StorePhase) : Volume ι :=
  { s with phase := Function.update s.phase c phase }

/-- A file gets another content. -/
def Volume.put (s : Volume ι) (file : ℕ) (bytes : Bytes) : Volume ι :=
  { s with content := Function.update s.content file bytes }

/-- One step, where container `c` has built the executable `exe c`. -/
def storeStep (exe : ι → Bytes) (s : Volume ι) : StoreAction ι → Option (Volume ι)
  | .openTmp c =>
    match s.phase c, s.tmp with
    | .idle, some file => some ((s.put file []).goto c (.writing file 0))
    | .idle, none =>
      let created := { s with tmp := some s.next, next := s.next + 1 }
      some ((created.put s.next []).goto c (.writing s.next 0))
    | _, _ => none
  | .write c n =>
    match s.phase c with
    | .writing file off =>
      let chunk := ((exe c).drop off).take n
      some ((s.put file (writeAt (s.content file) off chunk)).goto c
        (.writing file (off + chunk.length)))
    | _ => none
  | .close c =>
    match s.phase c with
    | .writing _ off => if off = (exe c).length then some (s.goto c .written) else none
    | _ => none
  | .rename c =>
    match s.phase c, s.tmp with
    | .written, some file => some ({ s with tmp := none, runner := some file }.goto c .idle)
    | .written, none => some (s.goto c .idle)
    | _, _ => none
  | .fail c => if s.phase c = .idle then none else some (s.goto c .idle)

/-- No store begins while another one is going on. -/
def StoreAlone (s : Volume ι) : StoreAction ι → Prop
  | .openTmp _ => ∀ d, s.phase d = .idle
  | _ => True

/-- The phase of the container that moves. -/
@[simp] theorem Volume.goto_phase_self (s : Volume ι) (c : ι) (phase : StorePhase) :
    (s.goto c phase).phase c = phase := Function.update_self _ _ _

/-- The phases of the others. -/
theorem Volume.goto_phase_of_ne (s : Volume ι) {c d : ι} (hne : d ≠ c) (phase : StorePhase) :
    (s.goto c phase).phase d = s.phase d := Function.update_of_ne hne _ _

end Steps

/-- A volume without a runner, and containers that have not stored anything. -/
def Volume.empty : Volume ι := ⟨fun _ => [], 0, none, none, fun _ => .idle⟩

/-- The stored runner is the complete executable of one container. -/
def StoredWhole (exe : ι → Bytes) (s : Volume ι) : Prop :=
  ∀ file, s.runner = some file → ∃ c, s.content file = exe c

/-- What a container has done is what its phase says: the temporary file has the bytes
written so far. -/
def StorePhase.InStep (exe : Bytes) (s : Volume ι) : StorePhase → Prop
  | .idle => True
  | .writing file off =>
    s.tmp = some file ∧ off ≤ exe.length ∧ s.content file = exe.take off
  | .written => ∃ file, s.tmp = some file ∧ s.content file = exe

/-- What holds between steps when stores do not overlap: all containers but `c` are idle. -/
structure Volume.SoundFor (exe : ι → Bytes) (s : Volume ι) (c : ι) : Prop where
  /-- The temporary file is an inode that exists. -/
  tmp_lt : ∀ file, s.tmp = some file → file < s.next
  /-- So is the stored runner. -/
  runner_lt : ∀ file, s.runner = some file → file < s.next
  /-- They are different files. -/
  tmp_ne : ∀ file, s.tmp = some file → s.runner ≠ some file
  /-- The stored runner is whole. -/
  whole : StoredWhole exe s
  /-- The container that stores. -/
  phase : (s.phase c).InStep (exe c) s
  /-- The others. -/
  idle : ∀ d, d ≠ c → s.phase d = .idle

/-- The invariant. -/
def Volume.Sound (exe : ι → Bytes) (s : Volume ι) : Prop := ∃ c, s.SoundFor exe c

variable {exe : ι → Bytes} {s t : Volume ι}

/-- The container that takes a step. -/
def StoreAction.container : StoreAction ι → ι
  | .openTmp c | .write c _ | .close c | .rename c | .fail c => c

/-- The empty volume. -/
theorem Volume.Sound.empty (c : ι) : (Volume.empty : Volume ι).Sound exe := by
  refine ⟨c, ?_, ?_, ?_, ?_, trivial, fun d _ => rfl⟩
  · rintro file ⟨⟩
  · rintro file ⟨⟩
  · rintro file ⟨⟩
  · rintro file ⟨⟩

/-- Appending the next bytes. -/
theorem writeAt_take (bytes : Bytes) (off n : ℕ) (hoff : off ≤ bytes.length) :
    writeAt (bytes.take off) off ((bytes.drop off).take n) =
      bytes.take (off + ((bytes.drop off).take n).length) := by
  have hlength : (bytes.take off).length = off := by
    rw [List.length_take]
    omega
  have hdrop : (bytes.take off).drop (off + ((bytes.drop off).take n).length) = [] := by
    rw [List.drop_eq_nil_iff, hlength]
    omega
  unfold writeAt
  rw [hdrop, hlength, Nat.sub_self, List.replicate_zero, List.append_nil, List.append_nil,
    List.take_take, Nat.min_self, List.take_add, List.length_take]
  congr 1
  rw [List.take_eq_take_iff, List.length_drop]
  omega

/-- A container that acts while another one stores is idle. -/
theorem Volume.SoundFor.of_active {c d : ι} (hs : s.SoundFor exe c) (hd : s.phase d ≠ .idle) :
    s.SoundFor exe d := by
  by_cases hsame : d = c
  · rwa [hsame]
  · exact absurd (hs.idle d hsame) hd

/-- Writing to a file that is not the runner leaves the runner whole. -/
theorem StoredWhole.put (hs : StoredWhole exe s) {file : ℕ} (hne : s.runner ≠ some file)
    (bytes : Bytes) : StoredWhole exe (s.put file bytes) := by
  intro runner hrunner
  have hother : runner ≠ file := by
    rintro rfl
    exact hne hrunner
  obtain ⟨c, hc⟩ := hs runner hrunner
  exact ⟨c, (Function.update_of_ne hother _ _).trans hc⟩

/-- How far a `handler` call has come with `_build` and the runner. -/
inductive CallPhase
  /-- Not in the container. -/
  | idle
  /-- `_build` has found no marker, and writes the runner. -/
  | building
  /-- `_build` has returned. -/
  | built
  /-- The runner is executing. -/
  | executing
  deriving DecidableEq

/-- One container: `_BUILT` or the marker, and its calls. -/
structure RunContainer (ι : Type) where
  /-- `_BUILT or os.path.exists(_MARKER)`. -/
  marker : Bool
  /-- The calls. -/
  phase : ι → CallPhase

/-- A step of a call. -/
inductive CallAction (ι : Type)
  /-- Enter `_build`, and look for the marker. -/
  | enter (c : ι)
  /-- Finish the runner, and set the marker. -/
  | finish (c : ι)
  /-- The build fails. -/
  | fail (c : ι)
  /-- Execute the runner. -/
  | exec (c : ι)
  /-- Return. -/
  | leave (c : ι)

/-- A fresh container. -/
def RunContainer.fresh : RunContainer ι := ⟨false, fun _ => .idle⟩

/-- No call executes the runner while another one is writing it. -/
def NoTornExec (s : RunContainer ι) : Prop :=
  ∀ c d, s.phase c = .executing → s.phase d ≠ .building

/-- No call starts to build while another one builds. -/
def BuildAlone (s : RunContainer ι) : CallAction ι → Prop
  | .enter _ => s.marker = false → ∀ d, s.phase d ≠ .building
  | _ => True

/-- What holds between steps when builds do not overlap. -/
structure RunContainer.Sound (s : RunContainer ι) : Prop where
  /-- A build ends with setting the marker. -/
  building : ∀ c, s.phase c = .building → s.marker = false
  /-- One call builds at a time. -/
  alone : ∀ c d, s.phase c = .building → s.phase d = .building → c = d
  /-- A call that has been built for finds the marker. -/
  built : ∀ c, s.phase c = .built ∨ s.phase c = .executing → s.marker = true

/-- A fresh container. -/
theorem RunContainer.Sound.fresh : (RunContainer.fresh : RunContainer ι).Sound where
  building := by rintro c ⟨⟩
  alone := by rintro c d ⟨⟩
  built := by
    rintro c (hc | hc)
    · cases hc
    · cases hc

/-- The invariant excludes torn executions. -/
theorem RunContainer.Sound.noTornExec {s : RunContainer ι} (hs : s.Sound) : NoTornExec s := by
  intro c d hexec hbuilding
  have hset := hs.built c (.inr hexec)
  rw [hs.building d hbuilding] at hset
  cases hset

variable [DecidableEq ι]

/-- A container that stops is idle, and leaves the runner alone. -/
theorem Volume.SoundFor.stop {c : ι} (hs : s.SoundFor exe c) : (s.goto c .idle).Sound exe := by
  refine ⟨c, hs.tmp_lt, hs.runner_lt, hs.tmp_ne, hs.whole, ?_, ?_⟩
  · rw [Volume.goto_phase_self]
    trivial
  · exact fun d hne => (s.goto_phase_of_ne hne _).trans (hs.idle d hne)

/-- Opening the temporary file while no other container stores. -/
theorem storeStep_openTmp {c : ι} (hs : s.SoundFor exe c) (hidle : s.phase c = .idle)
    (hstep : storeStep exe s (.openTmp c) = some t) : t.Sound exe := by
  cases htmp : s.tmp with
  | some file =>
    simp only [storeStep, hidle, htmp, Option.some.injEq] at hstep
    subst hstep
    refine ⟨c, hs.tmp_lt, hs.runner_lt, hs.tmp_ne, hs.whole.put (hs.tmp_ne file htmp) [], ?_, ?_⟩
    · rw [Volume.goto_phase_self]
      exact ⟨htmp, Nat.zero_le _, Function.update_self _ _ _⟩
    · exact fun d hne => (Volume.goto_phase_of_ne _ hne _).trans (hs.idle d hne)
  | none =>
    simp only [storeStep, hidle, htmp, Option.some.injEq] at hstep
    subst hstep
    have hrunner : s.runner ≠ some s.next := by
      intro heq
      have hlt := hs.runner_lt _ heq
      omega
    refine ⟨c, ?_, ?_, ?_, hs.whole.put hrunner [], ?_, ?_⟩
    · rintro file ⟨rfl⟩
      exact Nat.lt_succ_self _
    · exact fun file hfile => Nat.lt_succ_of_lt (hs.runner_lt file hfile)
    · rintro file ⟨rfl⟩
      exact hrunner
    · rw [Volume.goto_phase_self]
      exact ⟨rfl, Nat.zero_le _, Function.update_self _ _ _⟩
    · exact fun d hne => (Volume.goto_phase_of_ne _ hne _).trans (hs.idle d hne)

/-- Writing more of the temporary file. -/
theorem storeStep_write {c : ι} {n : ℕ} (hs : s.Sound exe)
    (hstep : storeStep exe s (.write c n) = some t) : t.Sound exe := by
  cases hphase : s.phase c with
  | idle => simp only [storeStep, hphase, reduceCtorEq] at hstep
  | written => simp only [storeStep, hphase, reduceCtorEq] at hstep
  | writing file off =>
    obtain ⟨c₀, hs⟩ := hs
    have hc := hs.of_active (d := c) (by simp [hphase])
    have hstate := hc.phase
    rw [hphase] at hstate
    obtain ⟨htmp, hoff, hcontent⟩ := hstate
    simp only [storeStep, hphase, Option.some.injEq] at hstep
    subst hstep
    refine ⟨c, hc.tmp_lt, hc.runner_lt, hc.tmp_ne, hc.whole.put (hc.tmp_ne file htmp) _, ?_, ?_⟩
    · rw [Volume.goto_phase_self]
      refine ⟨htmp, ?_, ?_⟩
      · rw [List.length_take, List.length_drop]
        omega
      · refine (Function.update_self _ _ _).trans ?_
        rw [hcontent, writeAt_take _ _ _ hoff]
    · exact fun d hne => (Volume.goto_phase_of_ne _ hne _).trans (hc.idle d hne)

/-- Closing the copy. -/
theorem storeStep_close {c : ι} (hs : s.Sound exe)
    (hstep : storeStep exe s (.close c) = some t) : t.Sound exe := by
  cases hphase : s.phase c with
  | idle => simp only [storeStep, hphase, reduceCtorEq] at hstep
  | written => simp only [storeStep, hphase, reduceCtorEq] at hstep
  | writing file off =>
    obtain ⟨c₀, hs⟩ := hs
    have hc := hs.of_active (d := c) (by simp [hphase])
    have hstate := hc.phase
    rw [hphase] at hstate
    obtain ⟨htmp, _, hcontent⟩ := hstate
    by_cases hcomplete : off = (exe c).length
    · simp only [storeStep, hphase, if_pos hcomplete, Option.some.injEq] at hstep
      subst hstep
      refine ⟨c, hc.tmp_lt, hc.runner_lt, hc.tmp_ne, hc.whole, ?_, ?_⟩
      · rw [Volume.goto_phase_self]
        refine ⟨file, htmp, hcontent.trans ?_⟩
        rw [hcomplete, List.take_length]
      · exact fun d hne => (Volume.goto_phase_of_ne _ hne _).trans (hc.idle d hne)
    · simp only [storeStep, hphase, if_neg hcomplete, reduceCtorEq] at hstep

/-- Renaming the complete copy. -/
theorem storeStep_rename {c : ι} (hs : s.Sound exe)
    (hstep : storeStep exe s (.rename c) = some t) : t.Sound exe := by
  cases hphase : s.phase c with
  | idle => simp only [storeStep, hphase, reduceCtorEq] at hstep
  | writing file off => simp only [storeStep, hphase, reduceCtorEq] at hstep
  | written =>
    obtain ⟨c₀, hs⟩ := hs
    have hc := hs.of_active (d := c) (by simp [hphase])
    have hstate := hc.phase
    rw [hphase] at hstate
    obtain ⟨file, htmp, hcontent⟩ := hstate
    simp only [storeStep, hphase, htmp, Option.some.injEq] at hstep
    subst hstep
    refine ⟨c, ?_, ?_, ?_, ?_, ?_, ?_⟩
    · rintro file' ⟨⟩
    · rintro file' ⟨rfl⟩
      exact hc.tmp_lt _ htmp
    · rintro file' ⟨⟩
    · rintro file' ⟨rfl⟩
      exact ⟨c, hcontent⟩
    · rw [Volume.goto_phase_self]
      trivial
    · exact fun d hne => (Volume.goto_phase_of_ne _ hne _).trans (hc.idle d hne)

/-- One step of a store that is alone keeps the invariant. -/
theorem storeStep_sound {action : StoreAction ι} (hs : s.Sound exe) (halone : StoreAlone s action)
    (hstep : storeStep exe s action = some t) : t.Sound exe := by
  cases action with
  | openTmp c =>
    obtain ⟨c₀, hs⟩ := hs
    have hc : s.SoundFor exe c := by
      refine ⟨hs.tmp_lt, hs.runner_lt, hs.tmp_ne, hs.whole, ?_, fun d _ => halone d⟩
      rw [halone c]
      trivial
    exact storeStep_openTmp hc (halone c) hstep
  | write c n => exact storeStep_write hs hstep
  | close c => exact storeStep_close hs hstep
  | rename c => exact storeStep_rename hs hstep
  | fail c =>
    obtain ⟨c₀, hs⟩ := hs
    by_cases hidle : s.phase c = .idle
    · simp only [storeStep, if_pos hidle, reduceCtorEq] at hstep
    · simp only [storeStep, if_neg hidle, Option.some.injEq] at hstep
      subst hstep
      exact (hs.of_active hidle).stop

/-- One step of a call. -/
def callStep (s : RunContainer ι) : CallAction ι → Option (RunContainer ι)
  | .enter c =>
    if s.phase c = .idle then
      some { s with phase := Function.update s.phase c (if s.marker then .built else .building) }
    else none
  | .finish c =>
    if s.phase c = .building then
      some ⟨true, Function.update s.phase c .built⟩
    else none
  | .fail c =>
    if s.phase c = .building then some { s with phase := Function.update s.phase c .idle }
    else none
  | .exec c =>
    if s.phase c = .built then some { s with phase := Function.update s.phase c .executing }
    else none
  | .leave c =>
    if s.phase c = .executing then some { s with phase := Function.update s.phase c .idle }
    else none

/-- One step of a call keeps the invariant. -/
theorem callStep_sound {s t : RunContainer ι} {action : CallAction ι} (hs : s.Sound)
    (halone : BuildAlone s action) (hstep : callStep s action = some t) : t.Sound := by
  obtain ⟨hbuilding, hone, hbuilt⟩ := hs
  cases action with
  | enter c =>
    by_cases hidle : s.phase c = .idle
    · simp only [callStep, if_pos hidle, Option.some.injEq] at hstep
      subst hstep
      cases hmarker : s.marker with
      | true => constructor <;> grind
      | false =>
        have hnone := halone hmarker
        constructor <;> grind
    · simp only [callStep, if_neg hidle, reduceCtorEq] at hstep
  | finish c =>
    by_cases hphase : s.phase c = .building
    · simp only [callStep, if_pos hphase, Option.some.injEq] at hstep
      subst hstep
      constructor <;> grind
    · simp only [callStep, if_neg hphase, reduceCtorEq] at hstep
  | fail c =>
    by_cases hphase : s.phase c = .building
    · simp only [callStep, if_pos hphase, Option.some.injEq] at hstep
      subst hstep
      constructor <;> grind
    · simp only [callStep, if_neg hphase, reduceCtorEq] at hstep
  | exec c =>
    by_cases hphase : s.phase c = .built
    · simp only [callStep, if_pos hphase, Option.some.injEq] at hstep
      subst hstep
      constructor <;> grind
    · simp only [callStep, if_neg hphase, reduceCtorEq] at hstep
  | leave c =>
    by_cases hphase : s.phase c = .executing
    · simp only [callStep, if_pos hphase, Option.some.injEq] at hstep
      subst hstep
      constructor <;> grind
    · simp only [callStep, if_neg hphase, reduceCtorEq] at hstep

/-- **Runners are whole when stores and builds do not overlap.** In every run of the
containers on a volume in which no store begins while another one is going on, the stored
runner is the complete executable of one store. In every run of one container in which no
call starts to build while another one builds, no call executes a runner that is being
written. -/
theorem runner_never_torn (exe : ι → Bytes) :
    (∀ (actions : List (StoreAction ι)) (s : Volume ι),
      Machine.Guarded (storeStep exe) StoreAlone .empty actions →
      Machine.run (storeStep exe) .empty actions = some s → StoredWhole exe s) ∧
    ∀ (actions : List (CallAction ι)) (s : RunContainer ι),
      Machine.Guarded callStep BuildAlone .fresh actions →
      Machine.run callStep .fresh actions = some s → NoTornExec s := by
  refine ⟨fun actions s halone hrun => ?_, fun actions s halone hrun => ?_⟩
  · cases actions with
    | nil =>
      obtain rfl := Option.some.inj hrun
      rintro file ⟨⟩
    | cons action rest =>
      obtain ⟨_, hs⟩ := Machine.run_invariant
        (fun _ _ _ hs hok hstep => storeStep_sound hs hok hstep)
        (Volume.Sound.empty action.container) halone hrun
      exact hs.whole
  · exact (Machine.run_invariant (fun _ _ _ hs hok hstep => callStep_sound hs hok hstep)
      RunContainer.Sound.fresh halone hrun).noTornExec

/-- Two containers that store their runners one after the other, and a call that enters after
another one has built. -/
theorem runner_never_torn_in_turn :
    (∃ s : Volume (Fin 2), Machine.run (storeStep fun c => if c = 0 then [1, 1] else [2, 2]) .empty
        [.openTmp 0, .write 0 2, .close 0, .rename 0, .openTmp 1, .write 1 1, .write 1 1, .close 1,
          .rename 1] = some s ∧
      StoredWhole (fun c => if c = 0 then [1, 1] else [2, 2]) s) ∧
    ∃ s : RunContainer (Fin 2), Machine.run callStep .fresh
        [.enter 0, .finish 0, .enter 1, .exec 0, .exec 1] = some s ∧ NoTornExec s := by
  obtain ⟨hstores, hcalls⟩ := runner_never_torn fun c : Fin 2 => if c = 0 then [1, 1] else [2, 2]
  constructor
  · refine ⟨_, rfl, hstores [.openTmp 0, .write 0 2, .close 0, .rename 0, .openTmp 1, .write 1 1,
      .write 1 1, .close 1, .rename 1] _ ?_ rfl⟩
    exact ⟨Fin.forall_fin_two.mpr ⟨rfl, rfl⟩, trivial, trivial, trivial,
      Fin.forall_fin_two.mpr ⟨rfl, rfl⟩, trivial, trivial, trivial, trivial, trivial⟩
  · refine ⟨_, rfl, hcalls [.enter 0, .finish 0, .enter 1, .exec 0, .exec 1] _ ?_ rfl⟩
    have hfresh : ∀ c : Fin 2, RunContainer.fresh.phase c ≠ .building := fun c => by
      rintro ⟨⟩
    exact ⟨fun _ => hfresh, trivial, fun hmarker => absurd hmarker (by decide), trivial, trivial,
      trivial⟩
/-- A container opens the temporary file while another one is copying to it: the stored
runner is empty. And a call executes the runner while another one builds. -/
theorem runner_torn :
    (∃ s : Volume (Fin 2), Machine.run (storeStep fun c => if c = 0 then [1, 1] else [2, 2]) .empty
        [.openTmp 0, .write 0 2, .close 0, .openTmp 1, .rename 0] = some s ∧
      ¬ StoredWhole (fun c => if c = 0 then [1, 1] else [2, 2]) s) ∧
    ∃ s : RunContainer (Fin 2), Machine.run callStep .fresh
        [.enter 0, .enter 1, .finish 0, .exec 0] = some s ∧ ¬ NoTornExec s := by
  refine ⟨⟨_, rfl, fun hwhole => ?_⟩, ⟨_, rfl, fun htorn => ?_⟩⟩
  · obtain ⟨c, hc⟩ := hwhole 0 rfl
    revert hc
    revert c
    decide
  · exact htorn 0 1 rfl rfl

end ModalRust.RunWrapper
