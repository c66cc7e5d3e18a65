import Mathlib.Data.List.Induction

/-!
# Filling in a record

A reader goes through pairs of a name and a text, reads the text and stores what it read as the
component of that name. It succeeds if every text can be read, and of a component that is given
more than once the last value counts. Nothing in this file refers to a particular program.
-/

namespace ModalRust

variable {σ κ ν γ ε : Type} [DecidableEq κ]

/-- The value that was last given to a name. -/
def lastGiven (name : κ) (pairs : List (κ × ν)) : Option ν :=
  (pairs.filter fun pair => pair.1 = name).getLast?.map Prod.snd

/-- A further pair gives a value to its own name and to no other. -/
theorem lastGiven_append (name : κ) (pairs : List (κ × ν)) (pair : κ × ν) :
    lastGiven name (pairs ++ [pair]) =
      if pair.1 = name then some pair.2 else lastGiven name pairs := by
  unfold lastGiven
  rw [List.filter_append]
  by_cases hname : pair.1 = name
  · rw [if_pos hname]
    simp [hname]
  · rw [if_neg hname]
    simp [hname]

/-- What was last given is among the pairs. -/
theorem mem_of_lastGiven {pairs : List (κ × ν)} {name : κ} {value : ν}
    (hlast : lastGiven name pairs = some value) : (name, value) ∈ pairs := by
  obtain ⟨pair, hpair, rfl⟩ := Option.map_eq_some_iff.mp hlast
  have hmem := List.mem_of_getLast? hpair
  rw [List.mem_filter] at hmem
  obtain ⟨hmem, hname⟩ := hmem
  rw [← of_decide_eq_true hname]
  exact hmem

/-- A pair in front counts if its name is not given again. -/
theorem lastGiven_cons (name : κ) (pair : κ × ν) (pairs : List (κ × ν)) :
    lastGiven name (pair :: pairs) =
      (lastGiven name pairs).or (if pair.1 = name then some pair.2 else none) := by
  induction pairs using List.reverseRecOn with
  | nil => exact lastGiven_append name [] pair
  | append_singleton pairs last ih =>
    rw [← List.cons_append, lastGiven_append, lastGiven_append, ih]
    by_cases hname : last.1 = name
    · rw [if_pos hname, if_pos hname, Option.some_or]
    · rw [if_neg hname, if_neg hname]

/-- Leaving out another name changes nothing, and leaving out the name leaves nothing. -/
theorem lastGiven_filter (name other : κ) (pairs : List (κ × ν)) :
    lastGiven name (pairs.filter fun pair => pair.1 ≠ other) =
      if name = other then none else lastGiven name pairs := by
  unfold lastGiven
  rw [List.filter_filter]
  by_cases hname : name = other
  · subst hname
    rw [if_pos rfl, List.filter_eq_nil_iff.mpr fun pair _ => by simp]
    rfl
  · rw [if_neg hname]
    congr 2
    refine List.filter_congr fun pair _ => ?_
    by_cases heq : pair.1 = name
    · simp [heq, hname]
    · simp [heq]

/-- Renaming that keeps a name apart from the others keeps its last value. -/
theorem lastGiven_map {κ' ν' : Type} [DecidableEq κ'] {f : κ × ν → κ' × ν'} {g : ν → ν'}
    {name : κ} {name' : κ'} {pairs : List (κ × ν)}
    (hname : ∀ pair ∈ pairs, (f pair).1 = name' ↔ pair.1 = name)
    (hvalue : ∀ pair ∈ pairs, pair.1 = name → (f pair).2 = g pair.2) :
    lastGiven name' (pairs.map f) = (lastGiven name pairs).map g := by
  induction pairs using List.reverseRecOn with
  | nil => rfl
  | append_singleton pairs pair ih =>
    rw [List.map_append, List.map_singleton, lastGiven_append, lastGiven_append,
      ih (fun p hp => hname p (List.mem_append_left _ hp)) fun p hp =>
        hvalue p (List.mem_append_left _ hp)]
    by_cases heq : pair.1 = name
    · rw [if_pos ((hname pair (by simp)).mpr heq), if_pos heq, hvalue pair (by simp) heq]
      rfl
    · rw [if_neg (mt (hname pair (by simp)).mp heq), if_neg heq]

/-- A reader stores what it reads of a known name as the component of this name, and nothing
else. -/
structure Fills (known : κ → Prop) (get : σ → κ → γ) (read : κ → ν → Option γ)
    (fill : σ → κ × ν → Except ε σ) : Prop where
  /-- A value that can be read is stored. -/
  stores : ∀ {s : σ} {name : κ} {value : ν} {c : γ}, known name → read name value = some c →
    ∃ s', fill s (name, value) = .ok s' ∧ get s' name = c ∧
      ∀ other, known other → other ≠ name → get s' other = get s other
  /-- A value that cannot be read is refused. -/
  refuses : ∀ {s : σ} {name : κ} {value : ν}, known name → read name value = none →
    ∃ e, fill s (name, value) = .error e

namespace Fills

variable {known : κ → Prop} {get : σ → κ → γ} {read : κ → ν → Option γ}
  {fill : σ → κ × ν → Except ε σ}

/-- **Every component is the last value that was given to it**, or what it was before. -/
theorem exists_filled (hfills : Fills known get read fill) {pairs : List (κ × ν)} (s : σ)
    (hpairs : ∀ pair ∈ pairs, known pair.1 ∧ (read pair.1 pair.2).isSome) :
    ∃ s', pairs.foldlM fill s = .ok s' ∧ ∀ name, known name →
      get s' name = ((lastGiven name pairs).bind (read name)).getD (get s name) := by
  induction pairs using List.reverseRecOn with
  | nil => exact ⟨s, rfl, fun _ _ => rfl⟩
  | append_singleton pairs pair ih =>
    obtain ⟨s', hs', hget⟩ := ih fun p hp => hpairs p (List.mem_append_left _ hp)
    obtain ⟨hknown, hread⟩ := hpairs pair (by simp)
    obtain ⟨c, hc⟩ := Option.isSome_iff_exists.mp hread
    obtain ⟨s'', hfill, hstored, hkept⟩ := hfills.stores (s := s') hknown hc
    refine ⟨s'', ?_, fun name hname => ?_⟩
    · rw [List.foldlM_append, hs']
      change (fill s' pair).bind pure = .ok s''
      rw [show fill s' pair = .ok s'' from hfill]
      rfl
    · rw [lastGiven_append]
      by_cases heq : pair.1 = name
      · subst heq
        rw [if_pos rfl, hstored, Option.bind_some, hc]
        rfl
      · rw [if_neg heq, hkept name hname (Ne.symm heq), hget name hname]

omit [DecidableEq κ] in
/-- One value that cannot be read is enough to fail. -/
theorem exists_refused (hfills : Fills known get read fill) {pairs : List (κ × ν)} {pair : κ × ν}
    (s : σ) (hpairs : ∀ pair ∈ pairs, known pair.1) (hpair : pair ∈ pairs)
    (hread : read pair.1 pair.2 = none) : ∃ e, pairs.foldlM fill s = .error e := by
  induction pairs generalizing s with
  | nil => cases hpair
  | cons first pairs ih =>
    rw [List.foldlM_cons]
    cases hfirst : fill s first with
    | error e => exact ⟨e, rfl⟩
    | ok s' =>
      rcases List.mem_cons.mp hpair with rfl | hmem
      · obtain ⟨e, he⟩ := hfills.refuses (s := s) (hpairs pair (by simp)) hread
        rw [show fill s pair = .error e from he] at hfirst
        cases hfirst
      · exact ih s' (fun p hp => hpairs p (List.mem_cons_of_mem _ hp)) hmem

end Fills

end ModalRust
