import Mathlib.Data.List.Basic

/-!
# Runs of a labelled state machine

A partial step function `σ → α → Option σ` describes a machine whose steps are
chosen by a schedule of labels: `none` means that the label is not enabled. The
lemmas here carry a property from single steps to whole runs, also when only
the steps of *guarded* schedules preserve it. Nothing in this file refers to a
particular system.
-/

namespace ModalRust.Machine

variable {σ α : Type*}

/-- Execute a schedule. The result is `none` as soon as a label is not enabled. -/
def run (step : σ → α → Option σ) : σ → List α → Option σ
  | s, [] => some s
  | s, a :: as => (step s a).bind fun t => run step t as

/-- Every executed label satisfies `ok` in the state in which it is taken. -/
def Guarded (step : σ → α → Option σ) (ok : σ → α → Prop) : σ → List α → Prop
  | _, [] => True
  | s, a :: as => ok s a ∧ (match step s a with
    | none => True
    | some t => Guarded step ok t as)

/-- Guarding a concrete schedule is decidable whenever each guard is. -/
instance decidableGuarded (step : σ → α → Option σ) (ok : σ → α → Prop)
    [∀ s a, Decidable (ok s a)] : ∀ s as, Decidable (Guarded step ok s as)
  | _, [] => isTrue trivial
  | s, a :: as =>
    match h : step s a with
    | none => decidable_of_iff (ok s a) (by simp [Guarded, h])
    | some t =>
      have := decidableGuarded step ok t as
      decidable_of_iff (ok s a ∧ Guarded step ok t as) (by simp [Guarded, h])

/-- A nonempty run starts with an enabled step. -/
theorem run_cons_eq_some {step : σ → α → Option σ} {s u : σ} {a : α} {as : List α} :
    run step s (a :: as) = some u ↔ ∃ t, step s a = some t ∧ run step t as = some u := by
  simp [run, Option.bind_eq_some_iff]

/-- Running a concatenated schedule is running its two parts in turn. -/
theorem run_append {step : σ → α → Option σ} (s : σ) (as bs : List α) :
    run step s (as ++ bs) = (run step s as).bind fun t => run step t bs := by
  induction as generalizing s with
  | nil => rfl
  | cons a as ih =>
    simp only [List.cons_append, run]
    cases step s a with
    | none => rfl
    | some t => exact ih t

/-- What is left of a guarded schedule after a prefix is guarded where the prefix ends. -/
theorem Guarded.drop {step : σ → α → Option σ} {ok : σ → α → Prop} {s t : σ} {as bs : List α}
    (h : Guarded step ok s (as ++ bs)) (hrun : run step s as = some t) :
    Guarded step ok t bs := by
  induction as generalizing s with
  | nil =>
    obtain rfl := Option.some.inj hrun
    exact h
  | cons a as ih =>
    obtain ⟨u, hu, hrest⟩ := run_cons_eq_some.mp hrun
    simp only [List.cons_append, Guarded, hu] at h
    exact ih h.2 hrest

/-- A guard that holds everywhere. -/
theorem Guarded.of_forall {step : σ → α → Option σ} {ok : σ → α → Prop} (h : ∀ s a, ok s a)
    {s : σ} {as : List α} : Guarded step ok s as := by
  induction as generalizing s with
  | nil => trivial
  | cons a as ih =>
    refine ⟨h s a, ?_⟩
    cases step s a with
    | none => trivial
    | some t => exact ih

/-- Two guards are one. -/
theorem Guarded.and {step : σ → α → Option σ} {ok ok' : σ → α → Prop} {s : σ} {as : List α}
    (h : Guarded step ok s as) (h' : Guarded step ok' s as) :
    Guarded step (fun s a => ok s a ∧ ok' s a) s as := by
  induction as generalizing s with
  | nil => trivial
  | cons a as ih =>
    refine ⟨⟨h.1, h'.1⟩, ?_⟩
    cases hstep : step s a with
    | none => trivial
    | some t =>
      simp only [Guarded, hstep] at h h'
      exact ih h.2 h'.2

/-- The run rule: an invariant kept by every guarded step holds after every
guarded run. -/
theorem run_invariant {step : σ → α → Option σ} {ok : σ → α → Prop} {I : σ → Prop}
    (hstep : ∀ s a t, I s → ok s a → step s a = some t → I t)
    {s t : σ} {as : List α} (hinv : I s) (hok : Guarded step ok s as)
    (hrun : run step s as = some t) : I t := by
  induction as generalizing s with
  | nil =>
    simp only [run, Option.some.injEq] at hrun
    exact hrun ▸ hinv
  | cons a as ih =>
    obtain ⟨u, hu, hrest⟩ := run_cons_eq_some.mp hrun
    simp only [Guarded, hu] at hok
    exact ih (hstep s a u hinv hok.1 hu) hok.2 hrest

/-- The run rule without a guard. -/
theorem run_invariant_of_step {step : σ → α → Option σ} {I : σ → Prop}
    (hstep : ∀ s a t, I s → step s a = some t → I t)
    {s t : σ} {as : List α} (hinv : I s) (hrun : run step s as = some t) : I t := by
  induction as generalizing s with
  | nil =>
    simp only [run, Option.some.injEq] at hrun
    exact hrun ▸ hinv
  | cons a as ih =>
    obtain ⟨u, hu, hrest⟩ := run_cons_eq_some.mp hrun
    exact ih (hstep s a u hinv hu) hrest

end ModalRust.Machine
