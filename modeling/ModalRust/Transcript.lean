import ModalRust.Session

/-!
# Transcripts of sessions

Two sessions with different servers may show the same: what can be observed of a world
grows by the same observations, whatever the servers reply. A program shows a transcript if,
from every world, it appends exactly that transcript to what is observed; or, if the
transcript is an error, it always fails with that error. Nothing in this file refers to a
particular program.
-/

namespace ModalRust.Session

variable {ρ : Type} {Reply : ρ → Type} {ε σ τ α β γ : Type}

/-- One transcript after another. -/
def followedBy (first second : Except ε (List γ)) : Except ε (List γ) :=
  first.bind fun gs => second.map (gs ++ ·)

/-- The transcripts of a list of rounds, one after another. -/
def inOrder (rounds : List (Except ε (List γ))) : Except ε (List γ) :=
  rounds.foldr followedBy (.ok [])

/-- What is observed after a session from a given world, or the error that it fails with. -/
def transcriptOf (obs : World Reply ε σ τ → List γ) (m : Program Reply ε σ τ α)
    (w : World Reply ε σ τ) : Except ε (List γ) :=
  match m w with
  | .ok _ w' => .ok (obs w')
  | .error e _ => .error e

/-- From every world, the program appends the transcript to what is observed and returns a
value in `A`; or it always fails with the error. -/
def Shows (obs : World Reply ε σ τ → List γ) (m : Program Reply ε σ τ α)
    (transcript : Except ε (List γ)) (A : α → Prop) : Prop :=
  match transcript with
  | .ok gs => ∀ w, ∃ a w', m w = .ok a w' ∧ A a ∧ obs w' = obs w ++ gs
  | .error e => ∀ w, ∃ w', m w = .error e w'

namespace Shows

variable {obs : World Reply ε σ τ → List γ} {m : Program Reply ε σ τ α}
  {transcript transcript' : Except ε (List γ)} {A A' : α → Prop} {B : β → Prop}

/-- Weaken what is known of the value. -/
theorem mono (hm : Shows obs m transcript A) (hA : ∀ a, A a → A' a) :
    Shows obs m transcript A' := by
  cases transcript with
  | error e => exact hm
  | ok gs =>
    intro w
    obtain ⟨a, w', hrun, ha, hobs⟩ := hm w
    exact ⟨a, w', hrun, hA a ha, hobs⟩

/-- The transcript of a session that starts with nothing observed. -/
theorem transcriptOf_eq (hm : Shows obs m transcript A) {w : World Reply ε σ τ}
    (hw : obs w = []) : transcriptOf obs m w = transcript := by
  unfold transcriptOf
  cases transcript with
  | error e =>
    obtain ⟨w', hrun⟩ := hm w
    rw [hrun]
  | ok gs =>
    obtain ⟨a, w', hrun, -, hobs⟩ := hm w
    rw [hrun]
    change Except.ok (obs w') = _
    rw [hobs, hw, List.nil_append]

/-- Returning a value shows nothing. -/
theorem pure {a : α} (ha : A a) : Shows obs (pure a : Program Reply ε σ τ α) (.ok []) A := by
  intro w
  exact ⟨a, w, rfl, ha, (List.append_nil _).symm⟩

/-- Computing offline shows nothing, or fails. -/
theorem offline {result : Except ε α} (hA : ∀ a, result = .ok a → A a) :
    Shows obs (offline result : Program Reply ε σ τ α) (result.map fun _ => []) A := by
  cases result with
  | ok a => exact pure (hA a rfl)
  | error e => exact fun w => ⟨w, rfl⟩

/-- A program that fails is not continued. -/
theorem error_bind {f : α → Program Reply ε σ τ β} {e : ε} (hm : Shows obs m (.error e) A) :
    Shows obs (m >>= f) (.error e) B := by
  intro w
  obtain ⟨w', hrun⟩ := hm w
  refine ⟨w', ?_⟩
  change EStateM.bind m f w = _
  simp only [EStateM.bind, hrun]

/-- Doing one thing after another. -/
theorem bind {f : α → Program Reply ε σ τ β} (hm : Shows obs m transcript A)
    (hf : ∀ a, A a → Shows obs (f a) transcript' B) :
    Shows obs (m >>= f) (followedBy transcript transcript') B := by
  have hbind {w w' : World Reply ε σ τ} {a : α} (hrun : m w = .ok a w') :
      (m >>= f) w = f a w' := by
    change EStateM.bind m f w = _
    simp only [EStateM.bind, hrun]
  cases transcript with
  | error e => exact hm.error_bind
  | ok gs =>
    cases transcript' with
    | error e =>
      intro w
      obtain ⟨a, w₁, hrun, ha, -⟩ := hm w
      obtain ⟨w₂, hrun'⟩ := hf a ha w₁
      exact ⟨w₂, (hbind hrun).trans hrun'⟩
    | ok gs' =>
      intro w
      obtain ⟨a, w₁, hrun, ha, hobs⟩ := hm w
      obtain ⟨b, w₂, hrun', hb, hobs'⟩ := hf a ha w₁
      refine ⟨b, w₂, (hbind hrun).trans hrun', hb, ?_⟩
      rw [hobs', hobs, List.append_assoc]

/-- Doing one thing after another, neither of which fails. -/
theorem bind_append {f : α → Program Reply ε σ τ β} {gs gs' : List γ}
    (hm : Shows obs m (.ok gs) A) (hf : ∀ a, A a → Shows obs (f a) (.ok gs') B) :
    Shows obs (m >>= f) (.ok (gs ++ gs')) B :=
  hm.bind hf

/-- Doing one thing that shows one observation, and then another. -/
theorem bind_cons {f : α → Program Reply ε σ τ β} {g : γ} {gs : List γ}
    (hm : Shows obs m (.ok [g]) A) (hf : ∀ a, A a → Shows obs (f a) (.ok gs) B) :
    Shows obs (m >>= f) (.ok (g :: gs)) B :=
  hm.bind hf

/-- Doing one thing, and then failing. -/
theorem bind_error {f : α → Program Reply ε σ τ β} {gs : List γ} {e : ε}
    (hm : Shows obs m (.ok gs) A) (hf : ∀ a, A a → Shows obs (f a) (.error e) B) :
    Shows obs (m >>= f) (.error e) B :=
  hm.bind hf

/-- Doing two things, of which the first shows nothing. -/
theorem silent_bind {f : α → Program Reply ε σ τ β} (hm : Shows obs m (.ok []) A)
    (hf : ∀ a, A a → Shows obs (f a) transcript B) : Shows obs (m >>= f) transcript B := by
  have hresult := hm.bind hf
  cases transcript with
  | error e => exact hresult
  | ok gs => exact hresult

/-- Doing two things, of which the second shows nothing. -/
theorem bind_silent {f : α → Program Reply ε σ τ β} (hm : Shows obs m transcript A)
    (hf : ∀ a, A a → Shows obs (f a) (.ok []) B) : Shows obs (m >>= f) transcript B := by
  have hresult := hm.bind hf
  cases transcript with
  | error e => exact hresult
  | ok gs =>
    have hsame : followedBy (.ok gs : Except ε (List γ)) (.ok []) = .ok gs :=
      congrArg Except.ok (List.append_nil gs)
    rwa [hsame] at hresult

/-- Changing the own state shows nothing, if it is not observed. -/
theorem update {f : τ → τ} (hobs : ∀ w : World Reply ε σ τ, obs { w with own := f w.own } = obs w) :
    Shows obs (update f : Program Reply ε σ τ Unit) (.ok []) fun _ => True := by
  intro w
  exact ⟨(), { w with own := f w.own }, rfl, trivial, by rw [hobs, List.append_nil]⟩

/-- Reading the own state shows nothing. -/
theorem own : Shows obs (own : Program Reply ε σ τ τ) (.ok []) fun _ => True := by
  intro w
  exact ⟨w.own, w, rfl, trivial, (List.append_nil _).symm⟩

/-- A loop that collects results, and shows one observation in each round. -/
theorem mapM' {f : α → Program Reply ε σ τ β} {R : α → β → Prop} {g : α → γ}
    (hf : ∀ a, Shows obs (f a) (.ok [g a]) (R a)) (as : List α) :
    Shows obs (List.mapM' f as) (.ok (as.map g)) fun bs => List.Forall₂ R as bs := by
  induction as with
  | nil => exact pure .nil
  | cons a as ih =>
    refine (hf a).bind fun b hb => ih.bind_silent fun bs hbs => ?_
    exact pure (.cons hb hbs)

end Shows

/-- Rounds fail together exactly if one of them fails. -/
theorem inOrder_eq_error_iff {rounds : List (Except ε (List γ))} :
    (∃ e, inOrder rounds = .error e) ↔ ∃ round ∈ rounds, ∃ e, round = .error e := by
  induction rounds with
  | nil => simp [inOrder]
  | cons round rounds ih =>
    have hcons : inOrder (round :: rounds) = followedBy round (inOrder rounds) := rfl
    rw [hcons, List.exists_mem_cons_iff, ← ih]
    cases round with
    | error e => simp [followedBy, Except.bind]
    | ok gs => cases inOrder rounds <;> simp [followedBy, Except.bind, Except.map]

end ModalRust.Session
