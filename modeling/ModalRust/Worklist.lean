import Mathlib.Data.List.Basic
import Mathlib.Logic.Relation

/-!
# Depth-first worklists

The loop that pops a node from a stack, skips it if it was seen, and otherwise visits
it and pushes its successors. With enough fuel the loop ends, and what it has seen is
exactly what can be reached from its start. Nothing in this file refers to a
particular graph.
-/

namespace ModalRust.Worklist

variable {α β : Type*}

/-- One node can be reached from another. -/
def Reaches (next : α → List α) : α → α → Prop := Relation.ReflTransGen fun x y => y ∈ next x

/-- What a seen node reaches is seen, or it is reached from the stack. -/
theorem reaches_of_closed {next : α → List α} {seen stack : List α}
    (hclosed : ∀ x ∈ seen, ∀ y ∈ next x, y ∈ seen ∨ y ∈ stack) {x y : α} (hx : x ∈ seen)
    (h : Reaches next x y) : y ∈ seen ∨ ∃ z ∈ stack, Reaches next z y := by
  induction h using Relation.ReflTransGen.head_induction_on with
  | refl => exact .inl hx
  | head hstep hrest ih =>
    rcases hclosed _ hx _ hstep with hseen | hstack
    · exact ih hseen
    · exact .inr ⟨_, hstack, hrest⟩

variable [DecidableEq α]

/-- Push the successors that were not seen yet. -/
def push (seen : List α) : List α → List α → List α
  | [], stack => stack
  | y :: ys, stack => push seen ys (if y ∈ seen then stack else y :: stack)

/-- The loop, with an accumulator that is updated at each visit. The result is `none`
if the fuel runs out. -/
def explore (next : α → List α) (visit : β → α → β) :
    ℕ → β → List α → List α → Option (β × List α)
  | _, acc, seen, [] => some (acc, seen)
  | 0, _, _, _ :: _ => none
  | fuel + 1, acc, seen, x :: stack =>
    if x ∈ seen then explore next visit fuel acc seen stack
    else explore next visit fuel (visit acc x) (x :: seen) (push (x :: seen) (next x) stack)

/-- The number of successors of the nodes that are not seen yet. -/
def unseen (next : α → List α) (seen : List α) : List α → ℕ
  | [] => 0
  | x :: nodes => (if x ∈ seen then 0 else (next x).length) + unseen next seen nodes

/-- What `push` puts on the stack. -/
theorem mem_push {seen new stack : List α} {y : α} :
    y ∈ push seen new stack ↔ y ∈ stack ∨ y ∈ new ∧ y ∉ seen := by
  induction new generalizing stack with
  | nil => simp [push]
  | cons z new ih =>
    rw [push, ih]
    by_cases hz : z ∈ seen
    · rw [if_pos hz, List.mem_cons]
      constructor
      · rintro (h | ⟨h, hy⟩)
        · exact .inl h
        · exact .inr ⟨.inr h, hy⟩
      · rintro (h | ⟨rfl | h, hy⟩)
        · exact .inl h
        · exact absurd hz hy
        · exact .inr ⟨h, hy⟩
    · rw [if_neg hz, List.mem_cons, List.mem_cons]
      constructor
      · rintro ((rfl | h) | ⟨h, hy⟩)
        · exact .inr ⟨.inl rfl, hz⟩
        · exact .inl h
        · exact .inr ⟨.inr h, hy⟩
      · rintro (h | ⟨rfl | h, hy⟩)
        · exact .inl (.inr h)
        · exact .inl (.inl rfl)
        · exact .inr ⟨h, hy⟩

/-- `push` adds at most the successors. -/
theorem length_push_le (seen new stack : List α) :
    (push seen new stack).length ≤ stack.length + new.length := by
  induction new generalizing stack with
  | nil => simp [push]
  | cons z new ih =>
    rw [push, List.length_cons]
    by_cases hz : z ∈ seen
    · rw [if_pos hz]
      have h := ih stack
      omega
    · rw [if_neg hz]
      have h := ih (z :: stack)
      rw [List.length_cons] at h
      omega

/-- Seeing a node does not raise the count. -/
theorem unseen_cons_le (next : α → List α) (x : α) (seen nodes : List α) :
    unseen next (x :: seen) nodes ≤ unseen next seen nodes := by
  induction nodes with
  | nil => exact Nat.le_refl _
  | cons y nodes ih =>
    have hif : (if y ∈ x :: seen then 0 else (next y).length) ≤
        if y ∈ seen then 0 else (next y).length := by
      by_cases hy : y ∈ seen
      · simp [hy]
      · by_cases hyx : y = x <;> simp [hy, hyx]
    simp only [unseen]
    omega

/-- Seeing a node takes its successors out of the count. -/
theorem unseen_cons {next : α → List α} {seen nodes : List α} {x : α} (hx : x ∈ nodes)
    (hseen : x ∉ seen) :
    unseen next (x :: seen) nodes + (next x).length ≤ unseen next seen nodes := by
  induction nodes with
  | nil => cases hx
  | cons y nodes ih =>
    simp only [unseen]
    by_cases hyx : y = x
    · have h := unseen_cons_le next x seen nodes
      rw [hyx, if_pos (by simp), if_neg hseen]
      omega
    · have h := ih (by simpa [Ne.symm hyx] using hx)
      have hif : (if y ∈ x :: seen then 0 else (next y).length) =
          if y ∈ seen then 0 else (next y).length := by simp [hyx]
      omega

/-- The loop ends when the fuel covers the stack and all successors not seen yet. -/
theorem explore_isSome {next : α → List α} {visit : β → α → β} {nodes : List α}
    (hnodes : ∀ x, next x ≠ [] → x ∈ nodes) {fuel : ℕ} {acc : β} {seen stack : List α}
    (hfuel : stack.length + unseen next seen nodes ≤ fuel) :
    (explore next visit fuel acc seen stack).isSome := by
  induction fuel generalizing acc seen stack with
  | zero =>
    cases stack with
    | nil => rfl
    | cons x stack => simp at hfuel
  | succ fuel ih =>
    cases stack with
    | nil => rfl
    | cons x stack =>
      rw [List.length_cons] at hfuel
      rw [explore]
      split
      · exact ih (by omega)
      · next hx =>
        apply ih
        have hpush := length_push_le (x :: seen) (next x) stack
        by_cases hnext : next x = []
        · have hle := unseen_cons_le next x seen nodes
          rw [hnext, List.length_nil] at hpush
          rw [hnext]
          omega
        · have hdrop : unseen next (x :: seen) nodes + (next x).length ≤
              unseen next seen nodes := unseen_cons (hnodes x hnext) hx
          omega

/-- What the loop has seen at its end is what it had seen before together with all that
can be reached from its stack, provided that the successors of seen nodes were seen or
are on the stack. -/
theorem mem_explore {next : α → List α} {visit : β → α → β} {fuel : ℕ} {acc acc' : β}
    {seen stack result : List α} (hclosed : ∀ x ∈ seen, ∀ y ∈ next x, y ∈ seen ∨ y ∈ stack)
    (hrun : explore next visit fuel acc seen stack = some (acc', result)) {y : α} :
    y ∈ result ↔ y ∈ seen ∨ ∃ x ∈ stack, Reaches next x y := by
  induction fuel generalizing acc seen stack with
  | zero =>
    cases stack with
    | nil =>
      cases hrun
      simp
    | cons x stack => cases hrun
  | succ fuel ih =>
    cases stack with
    | nil =>
      cases hrun
      simp
    | cons x stack =>
      rw [explore] at hrun
      split at hrun
      · next hx =>
        have hclosed' : ∀ z ∈ seen, ∀ w ∈ next z, w ∈ seen ∨ w ∈ stack := by
          intro z hz w hw
          rcases hclosed z hz w hw with h | h
          · exact .inl h
          · rcases List.mem_cons.mp h with rfl | h
            · exact .inl hx
            · exact .inr h
        rw [ih hclosed' hrun]
        constructor
        · rintro (h | ⟨z, hz, h⟩)
          · exact .inl h
          · exact .inr ⟨z, List.mem_cons_of_mem _ hz, h⟩
        · rintro (h | ⟨z, hz, h⟩)
          · exact .inl h
          · rcases List.mem_cons.mp hz with rfl | hz
            · exact reaches_of_closed hclosed' hx h
            · exact .inr ⟨z, hz, h⟩
      · have hclosed' : ∀ z ∈ x :: seen, ∀ w ∈ next z,
            w ∈ x :: seen ∨ w ∈ push (x :: seen) (next x) stack := by
          intro z hz w hw
          rw [mem_push]
          by_cases hseen : w ∈ x :: seen
          · exact .inl hseen
          · rcases List.mem_cons.mp hz with rfl | hz
            · exact .inr (.inr ⟨hw, hseen⟩)
            · rcases hclosed z hz w hw with h | h
              · exact .inl (List.mem_cons_of_mem _ h)
              · rcases List.mem_cons.mp h with rfl | h
                · exact .inl (List.mem_cons_self ..)
                · exact .inr (.inl h)
        rw [ih hclosed' hrun]
        constructor
        · rintro (h | ⟨z, hz, h⟩)
          · rcases List.mem_cons.mp h with rfl | h
            · exact .inr ⟨y, List.mem_cons_self .., .refl⟩
            · exact .inl h
          · rcases mem_push.mp hz with hz | ⟨hz, -⟩
            · exact .inr ⟨z, List.mem_cons_of_mem _ hz, h⟩
            · exact .inr ⟨x, List.mem_cons_self .., .head hz h⟩
        · rintro (h | ⟨z, hz, h⟩)
          · exact .inl (List.mem_cons_of_mem _ h)
          · rcases List.mem_cons.mp hz with rfl | hz
            · exact reaches_of_closed hclosed' (List.mem_cons_self ..) h
            · exact .inr ⟨z, mem_push.mpr (.inl hz), h⟩

/-- What every visit of a new node preserves holds at the end of the loop. -/
theorem explore_invariant {next : α → List α} {visit : β → α → β} {P : β → List α → Prop}
    (hvisit : ∀ acc seen x, x ∉ seen → P acc seen → P (visit acc x) (x :: seen)) {fuel : ℕ}
    {acc acc' : β} {seen stack result : List α} (h : P acc seen)
    (hrun : explore next visit fuel acc seen stack = some (acc', result)) : P acc' result := by
  induction fuel generalizing acc seen stack with
  | zero =>
    cases stack with
    | nil =>
      cases hrun
      exact h
    | cons x stack => cases hrun
  | succ fuel ih =>
    cases stack with
    | nil =>
      cases hrun
      exact h
    | cons x stack =>
      rw [explore] at hrun
      split at hrun
      · exact ih h hrun
      · next hx => exact ih (hvisit acc seen x hx h) hrun

end ModalRust.Worklist
