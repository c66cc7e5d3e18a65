import ModalRust.Text

/-!
# Fallible computations

What the parts of a fallible computation returned, when the whole of it has succeeded. Nothing in
this file refers to a particular program.
-/

namespace ModalRust

variable {ε α β : Type}

/-- Two steps that succeed have both succeeded. -/
theorem exists_of_bind_ok {x : Except ε α} {f : α → Except ε β} {b : β}
    (hok : (x >>= f) = .ok b) : ∃ a, x = .ok a ∧ f a = .ok b := by
  cases x with
  | error e => cases hok
  | ok a => exact ⟨a, rfl, hok⟩

/-- What is computed from a success is computed from its value. -/
theorem exists_of_map_ok {x : Except ε α} {f : α → β} {b : β} (hok : x.map f = .ok b) :
    ∃ a, x = .ok a ∧ f a = b := by
  cases x with
  | error e => cases hok
  | ok a =>
    cases hok
    exact ⟨a, rfl, rfl⟩

/-- A success keeps its value when errors are rephrased. -/
theorem eq_of_mapError_ok {ε' : Type} {x : Except ε α} {f : ε → ε'} {a : α}
    (hok : x.mapError f = .ok a) : x = .ok a := by
  cases x with
  | error e => cases hok
  | ok b =>
    cases hok
    rfl

/-- An optional step that succeeds has succeeded, if there was one. -/
theorem eq_of_mapM_ok {x : Option α} {f : α → Except ε β} {y : Option β} (hok : x.mapM f = .ok y) :
    y = x.bind fun a => (f a).toOption := by
  cases x with
  | none =>
    cases hok
    rfl
  | some a =>
    rw [Option.mapM_some] at hok
    obtain ⟨b, hb, heq⟩ := exists_of_bind_ok hok
    cases heq
    rw [Option.bind_some, hb]
    rfl

/-- A pass over a list that succeeds has taken the step of every element. -/
theorem exists_of_foldlM_ok {σ : Type} {f : σ → α → Except ε σ} {before after : List α} {a : α}
    {s t : σ} (hok : (before ++ a :: after).foldlM f s = .ok t) :
    ∃ s₁ s₂, f s₁ a = .ok s₂ ∧ after.foldlM f s₂ = .ok t := by
  rw [List.foldlM_append] at hok
  obtain ⟨s₁, -, hrest⟩ := exists_of_bind_ok hok
  rw [List.foldlM_cons] at hrest
  obtain ⟨s₂, hstep, hafter⟩ := exists_of_bind_ok hrest
  exact ⟨s₁, s₂, hstep, hafter⟩

/-- What every step keeps is kept by the pass. -/
theorem map_eq_of_mapM_ok {γ : Type} {f : α → Except ε β} {g : β → γ} {h : α → γ}
    (hstep : ∀ a b, f a = .ok b → g b = h a) {l : List α} {bs : List β}
    (hok : l.mapM f = .ok bs) : bs.map g = l.map h := by
  induction l generalizing bs with
  | nil =>
    cases hok
    rfl
  | cons a l ih =>
    rw [List.mapM_cons] at hok
    obtain ⟨b, hb, hrest⟩ := exists_of_bind_ok hok
    obtain ⟨rest, hmap, hlast⟩ := exists_of_bind_ok hrest
    cases hlast
    rw [List.map_cons, List.map_cons, hstep a b hb, ih hmap]

/-- A pass over the same elements in another order gives the same results in another order. -/
theorem exists_perm_of_mapM_ok {f : α → Except ε β} {l m : List α} (hperm : l.Perm m)
    {bs : List β} (hok : l.mapM f = .ok bs) : ∃ cs, m.mapM f = .ok cs ∧ bs.Perm cs := by
  induction hperm generalizing bs with
  | nil => exact ⟨bs, hok, .refl _⟩
  | cons a _ ih =>
    rw [List.mapM_cons] at hok
    obtain ⟨b, hb, hrest⟩ := exists_of_bind_ok hok
    obtain ⟨rest, hmap, hlast⟩ := exists_of_bind_ok hrest
    cases hlast
    obtain ⟨cs, hcs, hsame⟩ := ih hmap
    refine ⟨b :: cs, ?_, hsame.cons b⟩
    rw [List.mapM_cons, hb, hcs]
    rfl
  | swap a a' l =>
    rw [List.mapM_cons] at hok
    obtain ⟨b', hb', hrest⟩ := exists_of_bind_ok hok
    obtain ⟨rest', hmap', hlast⟩ := exists_of_bind_ok hrest
    cases hlast
    rw [List.mapM_cons] at hmap'
    obtain ⟨b, hb, hrest⟩ := exists_of_bind_ok hmap'
    obtain ⟨rest, hmap, hlast⟩ := exists_of_bind_ok hrest
    cases hlast
    refine ⟨b :: b' :: rest, ?_, .swap _ _ _⟩
    rw [List.mapM_cons, hb, List.mapM_cons, hb', hmap]
    rfl
  | trans _ _ ih₁ ih₂ =>
    obtain ⟨cs, hcs, hfirst⟩ := ih₁ hok
    obtain ⟨ds, hds, hsecond⟩ := ih₂ hcs
    exact ⟨ds, hds, hfirst.trans hsecond⟩

/-- A pass over a list that fails has failed at the first element that fails. -/
theorem exists_of_mapM_error {f : α → Except ε β} {l : List α} {e : ε}
    (herror : l.mapM f = .error e) :
    ∃ before a after, l = before ++ a :: after ∧ (∀ x ∈ before, ∃ b, f x = .ok b) ∧
      f a = .error e := by
  induction l with
  | nil => cases herror
  | cons a l ih =>
    rw [List.mapM_cons] at herror
    cases ha : f a with
    | error e' =>
      rw [ha] at herror
      cases herror
      exact ⟨[], a, l, rfl, nofun, ha⟩
    | ok b =>
      cases hl : l.mapM f with
      | ok bs =>
        rw [ha, hl] at herror
        cases herror
      | error e' =>
        rw [ha, hl] at herror
        cases herror
        obtain ⟨before, bad, after, hsplit, hbefore, hbad⟩ := ih hl
        refine ⟨a :: before, bad, after, by rw [hsplit]; rfl, ?_, hbad⟩
        intro x hx
        rcases List.mem_cons.mp hx with rfl | hx
        · exact ⟨b, ha⟩
        · exact hbefore x hx

end ModalRust
