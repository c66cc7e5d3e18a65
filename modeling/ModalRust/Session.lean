import Mathlib.Data.List.Forall2

/-!
# Sessions with a server

A program that talks to a server. It has a state of its own, sends requests one after
another, and may fail. The server is any state machine that answers requests, and every
request is logged with its reply. A triple says what holds when such a program returns and
when it fails; its rules follow the program text. Nothing in this file refers to a
particular program.
-/

namespace ModalRust.Session

/-- A request with the reply that it got. -/
structure Event {ρ : Type} (Reply : ρ → Type) (ε : Type) where
  /-- The request. -/
  request : ρ
  /-- The reply, or the error that the request failed with. -/
  reply : Except ε (Reply request)

/-- What a session reads and changes. -/
structure World {ρ : Type} (Reply : ρ → Type) (ε σ τ : Type) where
  /-- The state of the server. -/
  server : σ
  /-- The state of the program. -/
  own : τ
  /-- The requests so far, the latest last. -/
  log : List (Event Reply ε)

/-- A server: it answers a request in its state, and moves on. -/
abbrev Server {ρ : Type} (Reply : ρ → Type) (ε σ : Type) :=
  (request : ρ) → σ → Except ε (Reply request) × σ

/-- A program that talks to a server. -/
abbrev Program {ρ : Type} (Reply : ρ → Type) (ε σ τ α : Type) :=
  EStateM ε (World Reply ε σ τ) α

variable {ρ : Type} {Reply : ρ → Type} {ε σ τ α β : Type}

/-- The world after a request was answered. -/
def World.answered (w : World Reply ε σ τ) (server : σ) (request : ρ)
    (reply : Except ε (Reply request)) : World Reply ε σ τ :=
  ⟨server, w.own, w.log ++ [⟨request, reply⟩]⟩

/-- Being answered does not change the program's own state. -/
@[simp] theorem World.own_answered (w : World Reply ε σ τ) (server : σ) (request : ρ)
    (reply : Except ε (Reply request)) : (w.answered server request reply).own = w.own := rfl

/-- The request is logged with its reply. -/
@[simp] theorem World.log_answered (w : World Reply ε σ τ) (server : σ) (request : ρ)
    (reply : Except ε (Reply request)) :
    (w.answered server request reply).log = w.log ++ [⟨request, reply⟩] := rfl

/-- Send a request. -/
def ask (server : Server Reply ε σ) (request : ρ) : Program Reply ε σ τ (Reply request) :=
  fun w =>
    match server request w.server with
    | (.ok a, s) => .ok a (w.answered s request (.ok a))
    | (.error e, s) => .error e (w.answered s request (.error e))

/-- Change the program's own state. -/
def update (f : τ → τ) : Program Reply ε σ τ Unit :=
  fun w => .ok () { w with own := f w.own }

/-- Read the program's own state. -/
def own : Program Reply ε σ τ τ := fun w => .ok w.own w

/-- A computation that sends nothing. -/
def offline : Except ε α → Program Reply ε σ τ α
  | .ok a => pure a
  | .error e => throw e

/-- From a world in `P`, a session that returns ends in `Q`, and one that fails in `E`. -/
def Triple (P : World Reply ε σ τ → Prop) (m : Program Reply ε σ τ α)
    (Q : α → World Reply ε σ τ → Prop) (E : World Reply ε σ τ → Prop) : Prop :=
  ∀ w, P w → match m w with
    | .ok a w' => Q a w'
    | .error _ w' => E w'

/-- However a session ends, it keeps `I`. -/
def Keeps (I : World Reply ε σ τ → Prop) (m : Program Reply ε σ τ α) : Prop :=
  Triple I m (fun _ => I) I

variable {P P' : World Reply ε σ τ → Prop} {Q Q' : α → World Reply ε σ τ → Prop}
  {E E' : World Reply ε σ τ → Prop} {R : β → World Reply ε σ τ → Prop}
  {I : World Reply ε σ τ → Prop} {server : Server Reply ε σ} {m : Program Reply ε σ τ α}

namespace Triple

/-- A triple, from what holds at both ends. -/
theorem intro (h : ∀ w, P w → match m w with
    | .ok a w' => Q a w'
    | .error _ w' => E w') : Triple P m Q E := h

/-- What holds at the end of a session. -/
theorem apply (hm : Triple P m Q E) {w : World Reply ε σ τ} (hw : P w) :
    match m w with
    | .ok a w' => Q a w'
    | .error _ w' => E w' :=
  hm w hw

/-- Strengthen what is assumed and weaken what is concluded. -/
theorem mono (hm : Triple P m Q E) (hP : ∀ w, P' w → P w) (hQ : ∀ a w, Q a w → Q' a w)
    (hE : ∀ w, E w → E' w) : Triple P' m Q' E' := by
  intro w hw
  have hresult := hm w (hP w hw)
  cases hrun : m w with
  | ok a w' =>
    rw [hrun] at hresult
    exact hQ a w' hresult
  | error e w' =>
    rw [hrun] at hresult
    exact hE w' hresult

/-- Two triples of one session hold together. -/
theorem and (hm : Triple P m Q E) (hm' : Triple P' m Q' E') :
    Triple (fun w => P w ∧ P' w) m (fun a w => Q a w ∧ Q' a w) (fun w => E w ∧ E' w) := by
  rintro w ⟨hw, hw'⟩
  have hresult := hm w hw
  have hresult' := hm' w hw'
  cases hrun : m w with
  | ok a w' =>
    rw [hrun] at hresult hresult'
    exact ⟨hresult, hresult'⟩
  | error e w' =>
    rw [hrun] at hresult hresult'
    exact ⟨hresult, hresult'⟩

/-- Returning a value. -/
theorem pure {a : α} (h : ∀ w, P w → Q a w) : Triple P (pure a : Program Reply ε σ τ α) Q E :=
  fun w hw => h w hw

/-- Doing one thing after another. -/
theorem bind {f : α → Program Reply ε σ τ β} (hm : Triple P m Q E)
    (hf : ∀ a, Triple (Q a) (f a) R E) : Triple P (m >>= f) R E := by
  intro w hw
  have hresult := hm w hw
  change match EStateM.bind m f w with
    | .ok b w' => R b w'
    | .error _ w' => E w'
  unfold EStateM.bind
  cases hrun : m w with
  | ok a w' =>
    rw [hrun] at hresult
    exact hf a w' hresult
  | error e w' =>
    rw [hrun] at hresult
    exact hresult

/-- Sending a request. -/
theorem ask {request : ρ} {Q : Reply request → World Reply ε σ τ → Prop}
    (hok : ∀ w a s, P w → server request w.server = (.ok a, s) →
      Q a (w.answered s request (.ok a)))
    (herror : ∀ w e s, P w → server request w.server = (.error e, s) →
      E (w.answered s request (.error e))) :
    Triple P (Session.ask server request) Q E := by
  intro w hw
  unfold Session.ask
  rcases hanswer : server request w.server with ⟨reply, s⟩
  cases reply with
  | ok a => exact hok w a s hw hanswer
  | error e => exact herror w e s hw hanswer

/-- Changing the own state. -/
theorem update {f : τ → τ} {Q : Unit → World Reply ε σ τ → Prop}
    (h : ∀ w, P w → Q () { w with own := f w.own }) : Triple P (Session.update f) Q E :=
  fun w hw => h w hw

/-- Reading the own state. -/
theorem own {Q : τ → World Reply ε σ τ → Prop} (h : ∀ w, P w → Q w.own w) :
    Triple P (Session.own : Program Reply ε σ τ τ) Q E :=
  fun w hw => h w hw

/-- Computing offline. -/
theorem offline {result : Except ε α} (hok : ∀ a w, result = .ok a → P w → Q a w)
    (herror : ∀ w, P w → E w) : Triple P (Session.offline result) Q E := by
  intro w hw
  cases result with
  | ok a => exact hok a w rfl hw
  | error e => exact herror w hw

/-- A loop that collects results, with an invariant over what is collected so far. -/
theorem mapM' {f : α → Program Reply ε σ τ β} {J : List α → List β → World Reply ε σ τ → Prop}
    (hstep : ∀ a done bs, Triple (J done bs) (f a) (fun b => J (done ++ [a]) (bs ++ [b])) E)
    (as : List α) (done : List α) (bs : List β) :
    Triple (J done bs) (List.mapM' f as) (fun bs' => J (done ++ as) (bs ++ bs')) E := by
  induction as generalizing done bs with
  | nil =>
    refine pure fun w hw => ?_
    rw [List.append_nil, List.append_nil]
    exact hw
  | cons a as ih =>
    refine bind (hstep a done bs) fun b => bind (ih (done ++ [a]) (bs ++ [b])) fun bs' => ?_
    refine pure fun w hw => ?_
    rw [List.append_assoc, List.append_assoc] at hw
    exact hw

end Triple

/-- Every event of a log is as `R` says it should be after the events before it. -/
def EachAfter (R : List α → α → Prop) (log : List α) : Prop :=
  ∀ before e after, log = before ++ e :: after → R before e

namespace EachAfter

variable {R : List α → α → Prop} {log later : List α}

/-- The empty log. -/
theorem nil : EachAfter R [] := by simp [EachAfter]

/-- More events. -/
theorem append (hlog : EachAfter R log)
    (hlater : ∀ before e after, later = before ++ e :: after → R (log ++ before) e) :
    EachAfter R (log ++ later) := by
  intro before e after hsplit
  rcases List.append_eq_append_iff.mp hsplit with ⟨middle, rfl, heq⟩ | ⟨middle, rfl, heq⟩
  · exact hlater middle e after heq
  · cases middle with
    | nil => simpa using hlater [] e after heq.symm
    | cons d middle =>
      obtain ⟨rfl, _⟩ := List.cons.inj heq
      exact hlog before e middle rfl

/-- More events, about which nothing depends on the events before them. -/
theorem append_of_forall (hlog : EachAfter R log) (hlater : ∀ e ∈ later, ∀ before, R before e) :
    EachAfter R (log ++ later) :=
  hlog.append fun before e after heq => hlater e (by simp [heq]) _

/-- One more event. -/
theorem concat {e : α} (hlog : EachAfter R log) (he : R log e) : EachAfter R (log ++ [e]) := by
  refine hlog.append fun before d after heq => ?_
  cases before with
  | nil =>
    obtain ⟨rfl, _⟩ := List.cons.inj heq
    rwa [List.append_nil]
  | cons d' before => simp at heq

/-- What holds of the event at an index. -/
theorem getElem? (hlog : EachAfter R log) {i : ℕ} {e : α} (he : log[i]? = some e) :
    R (log.take i) e := by
  obtain ⟨hi, rfl⟩ := List.getElem?_eq_some_iff.mp he
  exact hlog (log.take i) log[i] (log.drop (i + 1)) (by simp)

end EachAfter

/-- A session that leaves its own state alone and sends only requests whose events satisfy
`q`. If it returns `a`, its events are as `S a` says. -/
def Emits (q : Event Reply ε → Prop) (m : Program Reply ε σ τ α)
    (S : α → List (Event Reply ε) → Prop) : Prop :=
  ∀ w, match m w with
    | .ok a w' => w'.own = w.own ∧
        ∃ events, w'.log = w.log ++ events ∧ (∀ e ∈ events, q e) ∧ S a events
    | .error _ w' => w'.own = w.own ∧ ∃ events, w'.log = w.log ++ events ∧ ∀ e ∈ events, q e

namespace Emits

variable {q : Event Reply ε → Prop} {S S' : α → List (Event Reply ε) → Prop}
  {T : β → List (Event Reply ε) → Prop}

/-- Weaken what is said about the events. -/
theorem mono (hm : Emits q m S) (h : ∀ a events, S a events → S' a events) : Emits q m S' := by
  intro w
  have hresult := hm w
  cases hrun : m w with
  | ok a w' =>
    rw [hrun] at hresult
    obtain ⟨hown, events, hlog, hq, hS⟩ := hresult
    exact ⟨hown, events, hlog, hq, h a events hS⟩
  | error e w' =>
    rw [hrun] at hresult
    exact hresult

/-- Returning a value sends nothing. -/
theorem pure {a : α} (h : S a []) : Emits q (pure a : Program Reply ε σ τ α) S :=
  fun w => ⟨rfl, [], (List.append_nil w.log).symm, by simp, h⟩

/-- Computing offline sends nothing. -/
theorem offline {result : Except ε α} (h : ∀ a, result = .ok a → S a []) :
    Emits q (offline result : Program Reply ε σ τ α) S := by
  cases result with
  | ok a => exact pure (h a rfl)
  | error e => exact fun w => ⟨rfl, [], (List.append_nil w.log).symm, by simp⟩

/-- Sending one request. -/
theorem ask {request : ρ} {S : Reply request → List (Event Reply ε) → Prop}
    (hq : ∀ reply, q ⟨request, reply⟩) (h : ∀ a, S a [⟨request, .ok a⟩]) :
    Emits q (ask server request : Program Reply ε σ τ (Reply request)) S := by
  intro w
  unfold Session.ask
  rcases server request w.server with ⟨reply, s⟩
  cases reply with
  | ok a => exact ⟨rfl, _, rfl, by simpa using hq (.ok a), h a⟩
  | error e => exact ⟨rfl, _, rfl, by simpa using hq (.error e)⟩

/-- Doing one thing after another: the events follow each other. -/
theorem bind {f : α → Program Reply ε σ τ β} (hm : Emits q m S)
    (hf : ∀ a events, S a events → Emits q (f a) fun b later => T b (events ++ later)) :
    Emits q (m >>= f) T := by
  intro w
  have hresult := hm w
  change match EStateM.bind m f w with
    | .ok b w' => w'.own = w.own ∧
        ∃ events, w'.log = w.log ++ events ∧ (∀ e ∈ events, q e) ∧ T b events
    | .error _ w' => w'.own = w.own ∧ ∃ events, w'.log = w.log ++ events ∧ ∀ e ∈ events, q e
  unfold EStateM.bind
  cases hrun : m w with
  | error e w' =>
    rw [hrun] at hresult
    exact hresult
  | ok a w₁ =>
    rw [hrun] at hresult
    obtain ⟨hown, events, hlog, hq, hS⟩ := hresult
    have hlater := hf a events hS w₁
    cases hrun' : f a w₁ with
    | error e w₂ =>
      simp only [hrun'] at hlater ⊢
      obtain ⟨hown', later, hlog', hq'⟩ := hlater
      refine ⟨hown'.trans hown, events ++ later, by rw [hlog', hlog, List.append_assoc], ?_⟩
      intro e he
      exact (List.mem_append.mp he).elim (hq e) (hq' e)
    | ok b w₂ =>
      simp only [hrun'] at hlater ⊢
      obtain ⟨hown', later, hlog', hq', hT⟩ := hlater
      refine ⟨hown'.trans hown, events ++ later, by rw [hlog', hlog, List.append_assoc], ?_, hT⟩
      intro e he
      exact (List.mem_append.mp he).elim (hq e) (hq' e)

/-- A loop that collects results, and sends one request in each round. -/
theorem mapM' {f : α → Program Reply ε σ τ β} {R : α → β → Prop} {g : α → β → Event Reply ε}
    (hf : ∀ a, Emits q (f a) fun b events => R a b ∧ events = [g a b]) (as : List α) :
    Emits q (List.mapM' f as) fun bs events =>
      List.Forall₂ R as bs ∧ events = List.zipWith g as bs := by
  induction as with
  | nil => exact pure ⟨.nil, rfl⟩
  | cons a as ih =>
    refine bind (hf a) fun b first hfirst => bind ih fun bs rest hrest => pure ?_
    obtain ⟨hrelated, rfl⟩ := hfirst
    obtain ⟨hall, rfl⟩ := hrest
    exact ⟨.cons hrelated hall, by simp⟩

/-- Such a session as a triple, in a world with a given state and log. -/
theorem triple (hm : Emits q m S) (p : τ) (log : List (Event Reply ε)) :
    Triple (fun w => w.own = p ∧ w.log = log) m
      (fun a w => w.own = p ∧
        ∃ events, w.log = log ++ events ∧ (∀ e ∈ events, q e) ∧ S a events)
      (fun w => w.own = p ∧ ∃ events, w.log = log ++ events ∧ ∀ e ∈ events, q e) := by
  rintro w ⟨rfl, rfl⟩
  exact hm w

end Emits

namespace Keeps

/-- Returning a value. -/
theorem pure (a : α) : Keeps I (pure a : Program Reply ε σ τ α) := Triple.pure fun _ hw => hw

/-- Doing one thing after another. -/
theorem bind {f : α → Program Reply ε σ τ β} (hm : Keeps I m) (hf : ∀ a, Keeps I (f a)) :
    Keeps I (m >>= f) :=
  Triple.bind hm hf

/-- Sending a request. -/
theorem ask {request : ρ}
    (h : ∀ w reply s, I w → server request w.server = (reply, s) →
      I (w.answered s request reply)) :
    Keeps I (ask server request) :=
  Triple.ask (fun w a s hw hanswer => h w (.ok a) s hw hanswer)
    (fun w e s hw hanswer => h w (.error e) s hw hanswer)

/-- Computing offline. -/
theorem offline (result : Except ε α) : Keeps I (offline result) :=
  Triple.offline (fun _ _ _ hw => hw) (fun _ hw => hw)

/-- A loop that collects results. -/
theorem mapM' {f : α → Program Reply ε σ τ β} (hstep : ∀ a, Keeps I (f a)) (as : List α) :
    Keeps I (List.mapM' f as) :=
  Triple.mapM' (J := fun _ _ => I) (fun a _ _ => hstep a) as [] []

end Keeps

attribute [irreducible] Triple

end ModalRust.Session
