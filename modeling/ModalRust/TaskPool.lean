import Mathlib.Data.List.Forall2
import Mathlib.Data.List.Perm.Basic
import ModalRust.Machine

/-!
# Bounded task pools

Jobs are started as tasks, at most `limit` at a time. Tasks take their steps in any order. When one
has returned and is joined, the next job is started; if it returned an error the pool fails and
leaves the other tasks where they are. Nothing in this file refers to a particular program.
-/

namespace ModalRust.TaskPool

/-- How jobs are started, what tasks do, and what they return. -/
structure System (J T L ε : Type) where
  /-- The task of a job. -/
  start : J → T
  /-- One step of a task. -/
  step : T → L → Option T
  /-- What a task has returned. -/
  result : T → Option (Except ε Unit)

/-- A pool. -/
structure Pool (J T ε : Type) where
  /-- The jobs that are not started yet. -/
  queue : List J
  /-- The tasks in the pool. -/
  running : List T
  /-- The tasks that were joined, in order. -/
  joined : List T
  /-- The error of the task that made the pool fail. -/
  failed : Option ε

/-- What happens next. -/
inductive Label (L : Type)
  /-- A task takes a step. -/
  | task (i : ℕ) (label : L)
  /-- A task that has returned is joined. -/
  | join (i : ℕ)

variable {J T L ε : Type} (sys : System J T L ε)

/-- The pool at the start. -/
def Pool.start (limit : ℕ) (jobs : List J) : Pool J T ε :=
  ⟨jobs.drop limit, (jobs.take limit).map sys.start, [], none⟩

/-- One step of a pool that has not failed. -/
def Pool.step (p : Pool J T ε) : Label L → Option (Pool J T ε)
  | .task i label =>
    if p.failed.isSome then none
    else (p.running[i]?.bind fun t => sys.step t label).map fun t =>
      { p with running := p.running.set i t }
  | .join i =>
    if p.failed.isSome then none
    else match p.running[i]?, p.running[i]?.bind sys.result with
      | some t, some (.ok ()) =>
        some ⟨p.queue.tail, p.running.eraseIdx i ++ (p.queue.take 1).map sys.start,
          p.joined ++ [t], none⟩
      | some t, some (.error e) =>
        some ⟨p.queue, p.running.eraseIdx i, p.joined ++ [t], some e⟩
      | _, _ => none

/-- Whether the pool has returned without an error. -/
def Pool.Done (p : Pool J T ε) : Prop := p.failed = none ∧ p.running = []

variable {sys} {p q : Pool J T ε} {limit : ℕ} {jobs : List J}

/-- What a step does: one task moves on, or one is joined. -/
theorem Pool.step_cases {label : Label L} (hstep : p.step sys label = some q) :
    p.failed = none ∧
      ((∃ i l t t', label = .task i l ∧ p.running[i]? = some t ∧ sys.step t l = some t' ∧
          q = { p with running := p.running.set i t' }) ∨
        (∃ i t, label = .join i ∧ p.running[i]? = some t ∧ sys.result t = some (.ok ()) ∧
          q = ⟨p.queue.tail, p.running.eraseIdx i ++ (p.queue.take 1).map sys.start,
            p.joined ++ [t], none⟩) ∨
        ∃ i t e, label = .join i ∧ p.running[i]? = some t ∧ sys.result t = some (.error e) ∧
          q = ⟨p.queue, p.running.eraseIdx i, p.joined ++ [t], some e⟩) := by
  cases hfailed : p.failed with
  | some e =>
    unfold Pool.step at hstep
    rw [hfailed] at hstep
    cases label <;> cases hstep
  | none =>
    refine ⟨rfl, ?_⟩
    unfold Pool.step at hstep
    rw [hfailed] at hstep
    cases label with
    | task i l =>
      dsimp only [Option.isSome_none] at hstep
      rw [if_neg Bool.false_ne_true] at hstep
      obtain ⟨t', hbind, rfl⟩ := Option.map_eq_some_iff.mp hstep
      obtain ⟨t, ht, hnext⟩ := Option.bind_eq_some_iff.mp hbind
      exact .inl ⟨i, l, t, t', rfl, ht, hnext, rfl⟩
    | join i =>
      dsimp only [Option.isSome_none] at hstep
      rw [if_neg Bool.false_ne_true] at hstep
      cases ht : p.running[i]? with
      | none =>
        rw [ht] at hstep
        cases hstep
      | some t =>
        rw [ht, Option.bind_some] at hstep
        cases hresult : sys.result t with
        | none =>
          rw [hresult] at hstep
          cases hstep
        | some r =>
          rw [hresult] at hstep
          cases r with
          | ok u =>
            cases hstep
            exact .inr (.inl ⟨i, t, rfl, ht, hresult, rfl⟩)
          | error e =>
            cases hstep
            exact .inr (.inr ⟨i, t, e, rfl, ht, hresult, rfl⟩)

/-- How full a pool is. -/
structure Filled (limit : ℕ) (p : Pool J T ε) : Prop where
  /-- No more tasks than the limit. -/
  le : p.running.length ≤ limit
  /-- As long as jobs wait, the pool is full. -/
  full : p.failed = none → p.queue ≠ [] → p.running.length = limit

/-- A pool starts full, or with all its jobs. -/
theorem filled_start (limit : ℕ) (jobs : List J) : Filled limit (Pool.start sys limit jobs) where
  le := by
    change ((jobs.take limit).map sys.start).length ≤ limit
    rw [List.length_map]
    exact List.length_take_le limit jobs
  full := by
    intro _ hqueue
    change ((jobs.take limit).map sys.start).length = limit
    rw [List.length_map, List.length_take]
    have hlen : (jobs.drop limit).length ≠ 0 :=
      fun hzero => hqueue (List.length_eq_zero_iff.mp hzero)
    rw [List.length_drop] at hlen
    omega

/-- A step keeps how full the pool is. -/
theorem Filled.step (hfilled : Filled limit p) {label : Label L}
    (hstep : p.step sys label = some q) : Filled limit q := by
  have hlen : ∀ i t, p.running[i]? = some t →
      (p.running.eraseIdx i).length + 1 = p.running.length := by
    intro i t ht
    have hi := (List.getElem?_eq_some_iff.mp ht).1
    rw [List.length_eraseIdx, if_pos hi]
    omega
  have hle := hfilled.le
  rcases Pool.step_cases hstep with ⟨hnone, ⟨i, l, t, t', -, ht, -, rfl⟩ | ⟨i, t, -, ht, -, rfl⟩ |
    ⟨i, t, e, -, ht, -, rfl⟩⟩
  · constructor
    · change (p.running.set i t').length ≤ limit
      rw [List.length_set]
      exact hle
    · intro hf hq
      change (p.running.set i t').length = limit
      rw [List.length_set]
      exact hfilled.full hf hq
  · have hlen := hlen i t ht
    constructor
    · change (p.running.eraseIdx i ++ (p.queue.take 1).map sys.start).length ≤ limit
      rw [List.length_append, List.length_map, List.length_take]
      omega
    · intro _ hq
      change p.queue.tail ≠ [] at hq
      change (p.running.eraseIdx i ++ (p.queue.take 1).map sys.start).length = limit
      have hne : p.queue ≠ [] := by
        intro hnil
        rw [hnil] at hq
        exact hq rfl
      have hpos := List.length_pos_iff.mpr hne
      have hfull := hfilled.full hnone hne
      rw [List.length_append, List.length_map, List.length_take]
      omega
  · have hlen := hlen i t ht
    constructor
    · change (p.running.eraseIdx i).length ≤ limit
      omega
    · intro hf
      cases hf

/-- Every job is still waiting or is the job of exactly one task that was started, and its task is
as `Good` says. -/
structure Accounts (Good : J → T → Prop) (jobs : List J) (p : Pool J T ε) : Prop where
  /-- The jobs of the tasks, in the order of the tasks. -/
  started : ∃ mine, (mine ++ p.queue).Perm jobs ∧
    List.Forall₂ Good mine (p.joined ++ p.running)

/-- The jobs of a pool are accounted for at the start. -/
theorem accounts_start {Good : J → T → Prop} (hstart : ∀ j, Good j (sys.start j)) (limit : ℕ)
    (jobs : List J) : Accounts Good jobs (Pool.start sys limit jobs) where
  started := by
    refine ⟨jobs.take limit, ?_, ?_⟩
    · change (jobs.take limit ++ jobs.drop limit).Perm jobs
      rw [List.take_append_drop]
    · change List.Forall₂ Good _ ([] ++ (jobs.take limit).map sys.start)
      rw [List.nil_append, List.forall₂_map_right_iff]
      exact List.forall₂_same.mpr fun j _ => hstart j

/-- Replacing a task by one that is as good. -/
theorem forall₂_set {R : J → T → Prop} {js : List J} {ts : List T} (hall : List.Forall₂ R js ts)
    {i : ℕ} {t t' : T} (ht : ts[i]? = some t) (hnext : ∀ j, R j t → R j t') :
    List.Forall₂ R js (ts.set i t') := by
  induction hall generalizing i with
  | nil => cases ht
  | cons hhead htail ih =>
    cases i with
    | zero =>
      cases ht
      exact .cons (hnext _ hhead) htail
    | succ i => exact .cons hhead (ih ht)

/-- Putting one task at another place, its job goes along. -/
theorem exists_forall₂_of_perm {R : J → T → Prop} {js : List J} {ts us : List T}
    (hall : List.Forall₂ R js ts) (hperm : ts.Perm us) :
    ∃ ks, ks.Perm js ∧ List.Forall₂ R ks us := by
  obtain ⟨ks, hks, hall'⟩ := List.perm_comp_forall₂ hperm.symm hall.flip
  exact ⟨ks, hall', hks.flip⟩

/-- Taking a task out and putting it elsewhere only changes the order. -/
theorem perm_eraseIdx {ts : List T} {i : ℕ} {t : T} (ht : ts[i]? = some t) :
    (t :: ts.eraseIdx i).Perm ts := by
  obtain ⟨hi, rfl⟩ := List.getElem?_eq_some_iff.mp ht
  exact (List.getElem_cons_eraseIdx_perm hi)

/-- A step keeps the account, if every step of a task keeps it good. -/
theorem Accounts.step {Good : J → T → Prop} (hstart : ∀ j, Good j (sys.start j))
    (hgood : ∀ j t l t', Good j t → sys.step t l = some t' → Good j t')
    (haccounts : Accounts Good jobs p) {label : Label L} (hstep : p.step sys label = some q) :
    Accounts Good jobs q := by
  obtain ⟨mine, hperm, hall⟩ := haccounts.started
  rcases Pool.step_cases hstep with ⟨-, ⟨i, l, t, t', -, ht, hnext, rfl⟩ | ⟨i, t, -, ht, -, rfl⟩ |
    ⟨i, t, e, -, ht, -, rfl⟩⟩
  · refine ⟨mine, hperm, ?_⟩
    change List.Forall₂ Good mine (p.joined ++ p.running.set i t')
    have hset : p.joined ++ p.running.set i t' =
        (p.joined ++ p.running).set (p.joined.length + i) t' := by
      rw [List.set_append_right _ _ (Nat.le_add_right _ _), Nat.add_sub_cancel_left]
    rw [hset]
    refine forall₂_set hall ?_ fun j hj => hgood j t l t' hj hnext
    rw [List.getElem?_append_right (Nat.le_add_right _ _), Nat.add_sub_cancel_left]
    exact ht
  · have hmove : (p.joined ++ p.running).Perm (p.joined ++ [t] ++ p.running.eraseIdx i) := by
      rw [List.append_assoc]
      exact (perm_eraseIdx ht).symm.append_left p.joined
    obtain ⟨moved, hmoved, hall'⟩ := exists_forall₂_of_perm hall hmove
    refine ⟨moved ++ p.queue.take 1, ?_, ?_⟩
    · change (moved ++ p.queue.take 1 ++ p.queue.tail).Perm jobs
      rw [List.append_assoc, ← List.drop_one, List.take_append_drop]
      exact (hmoved.append_right _).trans hperm
    · change List.Forall₂ Good _ (p.joined ++ [t] ++ (p.running.eraseIdx i ++
        (p.queue.take 1).map sys.start))
      rw [← List.append_assoc]
      refine List.rel_append hall' ?_
      rw [List.forall₂_map_right_iff]
      exact List.forall₂_same.mpr fun j _ => hstart j
  · have hmove : (p.joined ++ p.running).Perm (p.joined ++ [t] ++ p.running.eraseIdx i) := by
      rw [List.append_assoc]
      exact (perm_eraseIdx ht).symm.append_left p.joined
    obtain ⟨moved, hmoved, hall'⟩ := exists_forall₂_of_perm hall hmove
    exact ⟨moved, (hmoved.append_right _).trans hperm, hall'⟩

/-- The tasks that were joined have returned; unless the pool failed, without an error. -/
structure Joined (sys : System J T L ε) (p : Pool J T ε) : Prop where
  /-- Without a failure, every joined task has succeeded. -/
  ok : p.failed = none → ∀ t ∈ p.joined, sys.result t = some (.ok ())
  /-- A failure is that of the last task that was joined, and those before it have succeeded. -/
  error : ∀ e, p.failed = some e → ∃ before t, p.joined = before ++ [t] ∧
    sys.result t = some (.error e) ∧ ∀ t' ∈ before, sys.result t' = some (.ok ())

/-- Nothing is joined at the start. -/
theorem joined_start (limit : ℕ) (jobs : List J) : Joined sys (Pool.start sys limit jobs) where
  ok := fun _ _ ht => absurd ht List.not_mem_nil
  error := nofun

/-- A step joins a task that has returned. -/
theorem Joined.step (hjoined : Joined sys p) {label : Label L} (hstep : p.step sys label = some q) :
    Joined sys q := by
  rcases Pool.step_cases hstep with ⟨hnone, ⟨i, l, t, t', -, ht, -, rfl⟩ |
    ⟨i, t, -, ht, hresult, rfl⟩ | ⟨i, t, e, -, ht, hresult, rfl⟩⟩
  · exact ⟨hjoined.ok, hjoined.error⟩
  · refine ⟨fun _ t' ht' => ?_, nofun⟩
    rcases List.mem_append.mp ht' with hold | hnew
    · exact hjoined.ok hnone t' hold
    · rw [List.mem_singleton.mp hnew]
      exact hresult
  · refine ⟨nofun, fun e' he' => ?_⟩
    cases he'
    exact ⟨p.joined, t, rfl, hresult, hjoined.ok hnone⟩

/-- The run rule: after every run from the start the pool is filled, its jobs are accounted for, and
the joined tasks have returned. -/
theorem run_invariants {Good : J → T → Prop} (hstart : ∀ j, Good j (sys.start j))
    (hgood : ∀ j t l t', Good j t → sys.step t l = some t' → Good j t') {labels : List (Label L)}
    (hrun : Machine.run (Pool.step sys) (.start sys limit jobs) labels = some p) :
    Filled limit p ∧ Accounts Good jobs p ∧ Joined sys p := by
  refine Machine.run_invariant_of_step (I := fun p => Filled limit p ∧ Accounts Good jobs p ∧
    Joined sys p) ?_ ⟨filled_start limit jobs, accounts_start hstart limit jobs,
      joined_start limit jobs⟩ hrun
  rintro p label q ⟨hfilled, haccounts, hjoined⟩ hstep
  exact ⟨hfilled.step hstep, haccounts.step hstart hgood hstep, hjoined.step hstep⟩

/-- A pool that is done has no jobs left. -/
theorem Filled.queue_of_done (hfilled : Filled limit p) (hlimit : 0 < limit) (hdone : p.Done) :
    p.queue = [] := by
  by_contra hne
  have hfull := hfilled.full hdone.1 hne
  rw [hdone.2] at hfull
  exact absurd hfull (Nat.ne_of_lt hlimit)

/-- A pool is never stuck: it has failed, or it is done, or some task can take a step or be joined,
if every task that has not returned can take a step. -/
theorem exists_step (hlive : ∀ t, sys.result t = none → ∃ l t', sys.step t l = some t')
    (hnone : p.failed = none) (hrunning : p.running ≠ []) :
    ∃ label q, p.step sys label = some q := by
  obtain ⟨t, rest, hcons⟩ := List.exists_cons_of_ne_nil hrunning
  have ht : p.running[0]? = some t := by rw [hcons]; rfl
  cases hresult : sys.result t with
  | none =>
    obtain ⟨l, t', hnext⟩ := hlive t hresult
    refine ⟨.task 0 l, { p with running := p.running.set 0 t' }, ?_⟩
    unfold Pool.step
    dsimp only
    rw [hnone, ht, Option.bind_some, hnext]
    rfl
  | some r =>
    unfold Pool.step
    refine ⟨.join 0, ?_⟩
    dsimp only
    rw [hnone, ht, Option.bind_some, hresult]
    cases r with
    | ok u => exact ⟨_, rfl⟩
    | error e => exact ⟨_, rfl⟩

end ModalRust.TaskPool
