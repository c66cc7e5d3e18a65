import ModalRust.Str

/-!
# The lines of a text

`str::lines`, and the lines of a text that is put together from parts that end in line feeds. A
scanner that trims every line sees the same lines whether they end in a line feed or in a carriage
return and a line feed. Nothing in this file refers to a particular program.
-/

namespace ModalRust

/-- `str::lines`: a line ends at a line feed, a carriage return just before it is dropped, and a
last line needs no line feed. -/
def lines : Text → List Text
  | [] => []
  | c :: t =>
    if c = '\n' then [] :: lines t
    else if c = '\r' ∧ t.head? = some '\n' then lines t
    else
      match lines t with
      | [] => [[c]]
      | line :: rest => (c :: line) :: rest

/-- What stands between the line feeds of a text. -/
def betweenFeeds : Text → List Text
  | [] => [[]]
  | c :: t =>
    if c = '\n' then [] :: betweenFeeds t
    else
      match betweenFeeds t with
      | [] => [[c]]
      | line :: rest => (c :: line) :: rest

/-- There is always something, be it nothing. -/
theorem betweenFeeds_ne_nil (t : Text) : betweenFeeds t ≠ [] := by
  cases t with
  | nil => exact List.cons_ne_nil _ _
  | cons c t =>
    unfold betweenFeeds
    split_ifs with hc
    · exact List.cons_ne_nil _ _
    · cases betweenFeeds t <;> exact List.cons_ne_nil _ _

/-- A line feed takes a text apart. -/
theorem betweenFeeds_append (s t : Text) :
    betweenFeeds (s ++ '\n' :: t) = betweenFeeds s ++ betweenFeeds t := by
  induction s with
  | nil => rfl
  | cons c s ih =>
    rw [List.cons_append, betweenFeeds, betweenFeeds, ih]
    split_ifs with hc
    · rfl
    · cases hs : betweenFeeds s with
      | nil => exact absurd hs (betweenFeeds_ne_nil s)
      | cons line rest => rfl

/-- A text without line feeds is one line. -/
theorem betweenFeeds_of_notMem {t : Text} (ht : '\n' ∉ t) : betweenFeeds t = [t] := by
  induction t with
  | nil => rfl
  | cons c t ih =>
    rw [List.mem_cons, not_or] at ht
    rw [betweenFeeds, if_neg (Ne.symm ht.1), ih ht.2]

/-- A part in front of a text joins its first line, if it has no line feed. -/
theorem exists_betweenFeeds_append {s : Text} (hs : '\n' ∉ s) (t : Text) :
    ∃ line rest, betweenFeeds t = line :: rest ∧ betweenFeeds (s ++ t) = (s ++ line) :: rest := by
  obtain ⟨line, rest, ht⟩ := List.exists_cons_of_ne_nil (betweenFeeds_ne_nil t)
  refine ⟨line, rest, ht, ?_⟩
  induction s with
  | nil => exact ht
  | cons c s ih =>
    rw [List.mem_cons, not_or] at hs
    rw [List.cons_append, betweenFeeds, if_neg (Ne.symm hs.1), ih hs.2]
    rfl

/-- Whitespace at the end of a text is trimmed. -/
theorem trim_append_singleton {c : Char} (hc : isWhitespace c = true) (t : Text) :
    trim (t ++ [c]) = trim t := by
  unfold trim
  rw [List.dropWhile_append]
  split_ifs with hempty
  · rw [List.isEmpty_iff] at hempty
    rw [hempty, List.dropWhile_cons_of_pos hc]
    rfl
  · exact List.rdropWhile_concat_pos _ _ _ hc

/-- Whitespace before a text is trimmed. -/
theorem trim_append_of_forall {s : Text} (hs : ∀ c ∈ s, isWhitespace c = true) (t : Text) :
    trim (s ++ t) = trim t := by
  unfold trim
  rw [List.dropWhile_append_of_pos hs]

/-- A line of `str::lines` against the same line with its carriage return. -/
def EndsAs (raw line : Text) : Prop := raw = line ∨ raw = line ++ ['\r']

/-- A character in front of two such lines. -/
theorem EndsAs.cons {raw line : Text} (hends : EndsAs raw line) (c : Char) :
    EndsAs (c :: raw) (c :: line) := by
  rcases hends with rfl | rfl
  · exact .inl rfl
  · exact .inr rfl

/-- Both are trimmed to the same text. -/
theorem EndsAs.trim_eq {raw line : Text} (hends : EndsAs raw line) : trim raw = trim line := by
  rcases hends with rfl | rfl
  · rfl
  · exact trim_append_singleton (by decide) line

/-- `str::lines` gives what is between the line feeds, without the carriage returns at the ends of
lines and without an empty last line. -/
theorem forall₂_betweenFeeds (t : Text) :
    List.Forall₂ EndsAs (betweenFeeds t) (lines t) ∨
      List.Forall₂ EndsAs (betweenFeeds t) (lines t ++ [[]]) := by
  induction t with
  | nil => exact .inr (.cons (.inl rfl) .nil)
  | cons c t ih =>
    by_cases hfeed : c = '\n'
    · rw [betweenFeeds, lines, if_pos hfeed, if_pos hfeed]
      exact ih.imp (.cons (.inl rfl)) (.cons (.inl rfl))
    · by_cases hreturn : c = '\r' ∧ t.head? = some '\n'
      · obtain ⟨t', rfl⟩ : ∃ t', t = '\n' :: t' := by
          cases t with
          | nil => exact absurd hreturn.2 nofun
          | cons d t' => exact ⟨t', by rw [Option.some.inj hreturn.2]⟩
        rw [betweenFeeds, if_neg hfeed, lines, if_neg hfeed, if_pos hreturn]
        rw [betweenFeeds, if_pos rfl, lines, if_pos rfl] at ih ⊢
        rw [hreturn.1]
        have hline : EndsAs ['\r'] [] := .inr rfl
        rcases ih with hall | hall
        · rcases hall with - | ⟨-, hrest⟩
          exact .inl (.cons hline hrest)
        · rcases hall with - | ⟨-, hrest⟩
          exact .inr (.cons hline hrest)
      · rw [betweenFeeds, if_neg hfeed, lines, if_neg hfeed, if_neg hreturn]
        obtain ⟨raw, raws, hraw⟩ := List.exists_cons_of_ne_nil (betweenFeeds_ne_nil t)
        rw [hraw] at ih ⊢
        cases hlines : lines t with
        | nil =>
          rw [hlines] at ih
          rcases ih with hall | hall
          · cases hall
          · cases hall with
            | cons hline hrest =>
              cases hrest
              exact .inl (.cons (hline.cons c) .nil)
        | cons line rest =>
          rw [hlines] at ih
          rcases ih with hall | hall
          · cases hall with
            | cons hline hrest => exact .inl (.cons (hline.cons c) hrest)
          · cases hall with
            | cons hline hrest => exact .inr (.cons (hline.cons c) hrest)

/-- The trimmed lines of a text. -/
theorem map_trim_betweenFeeds (t : Text) :
    (betweenFeeds t).map trim = (lines t).map trim ∨
      (betweenFeeds t).map trim = (lines t).map trim ++ [[]] := by
  have hmap {raws ls : List Text} (hall : List.Forall₂ EndsAs raws ls) :
      raws.map trim = ls.map trim := by
    induction hall with
    | nil => rfl
    | cons hline _ ih => rw [List.map_cons, List.map_cons, hline.trim_eq, ih]
  rcases forall₂_betweenFeeds t with hall | hall
  · exact .inl (hmap hall)
  · right
    rw [hmap hall, List.map_append]
    rfl

/-- A part behind a text joins its last line, if it has no line feed. -/
theorem exists_betweenFeeds_append_right {s : Text} (hs : '\n' ∉ s) (t : Text) :
    ∃ before line, betweenFeeds t = before ++ [line] ∧
      betweenFeeds (t ++ s) = before ++ [line ++ s] := by
  induction t with
  | nil => exact ⟨[], [], rfl, betweenFeeds_of_notMem hs⟩
  | cons c t ih =>
    obtain ⟨before, line, ht, hts⟩ := ih
    by_cases hc : c = '\n'
    · refine ⟨[] :: before, line, ?_, ?_⟩
      · rw [betweenFeeds, if_pos hc, ht, List.cons_append]
      · rw [List.cons_append, betweenFeeds, if_pos hc, hts, List.cons_append]
    · rw [List.cons_append, betweenFeeds, if_neg hc, betweenFeeds, if_neg hc, ht, hts]
      cases before with
      | nil => exact ⟨[], c :: line, rfl, rfl⟩
      | cons first before => exact ⟨(c :: first) :: before, line, rfl, rfl⟩

/-- A carriage return at the end of a text is trimmed from its last line. -/
theorem map_trim_betweenFeeds_return (t : Text) :
    (betweenFeeds (t ++ ['\r'])).map trim = (betweenFeeds t).map trim := by
  obtain ⟨before, line, ht, hreturn⟩ :=
    exists_betweenFeeds_append_right (s := ['\r']) (by decide) t
  rw [ht, hreturn, List.map_append, List.map_append, List.map_singleton, List.map_singleton,
    trim_append_singleton (by decide)]

end ModalRust
