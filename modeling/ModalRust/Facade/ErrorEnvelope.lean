import ModalRust.Facade.Envelope

/-!
# The way of an error to the client

Every error of the runner is rendered into a failure envelope, emitted as a line, parsed
by the client and reconstructed. The kind and the texts always survive. The details
survive unless they are `null`, which stands for no details, or are nested so deeply that
the client rejects the line, or hold a float that is not read back from its literal.
Whatever becomes of an error, it is never taken for a success.
-/

namespace ModalRust.Facade

open ModalRust.Runtime

variable {platform : Platform} {readFloat : Literal → Option FloatText} {Out : Type}
  {fromValue : Json → Except Text Out}

/-- The details that the client makes of a `details` field. -/
def nonNull : Json → Option Json
  | .null => none
  | v => some v

/-- Details other than `null` are kept. -/
theorem nonNull_of_ne {v : Json} (hv : v ≠ .null) : nonNull v = some v := by
  cases v with
  | null => exact absurd rfl hv
  | _ => rfl

/-- Only details other than `null` are kept. -/
theorem nonNull_eq_some {v w : Json} : nonNull v = some w ↔ w ≠ .null ∧ v = w := by
  constructor
  · intro hkept
    have hv : v ≠ .null := by
      rintro rfl
      cases hkept
    rw [nonNull_of_ne hv] at hkept
    obtain rfl := Option.some.inj hkept
    exact ⟨hv, rfl⟩
  · rintro ⟨hw, rfl⟩
    exact nonNull_of_ne hw

/-- The details of a failure object. -/
theorem detailsField_failureObject (err : RunnerError) (details : Json) :
    detailsField (failureObject err details) = nonNull details := by
  have hget : (failureObject err details).get "details".toList = some details := rfl
  rw [detailsField, hget]
  cases details <;> rfl

/-- **A failure object is reconstructed as its error, up to the details.** -/
theorem reconstructRunnerError_failureObject (err : RunnerError) (details : Json) :
    reconstructRunnerError (failureObject err details) =
      match err with
      | .function message _ => .function message (nonNull details)
      | err => err := by
  rw [← detailsField_failureObject err]
  cases err <;> rfl

/-- The client's reading of a failure envelope: the error, with its details read anew, or
the rejection of the line. -/
theorem parseEnvelope_toEnvelope (fromValue : Json → Except Text Out)
    (hparses : platform.ParsesWith readFloat) (err : RunnerError) :
    (∃ details, (err.details.getD .null).depth ≤ 125 ∧
      (err.details.getD .null).toValue (JsonTree.reread (readNumber readFloat)) = some details ∧
      parseEnvelope platform fromValue (emitLine err.toEnvelope) =
        .error (.runner (reconstructRunnerError (failureObject err details)))) ∨
    ((125 < (err.details.getD .null).depth ∨
      (err.details.getD .null).toValue (JsonTree.reread (readNumber readFloat)) = none) ∧
      ∃ message, parseEnvelope platform fromValue (emitLine err.toEnvelope) =
        .error (.decode message)) := by
  have hline := parseValue_emitLine hparses err.toEnvelope
  rw [toEnvelope_eq, depth_failureEnvelope, toValue_failureEnvelope] at hline
  rw [toEnvelope_eq, parseEnvelope]
  generalize err.details.getD .null = payload at hline ⊢
  cases hparse : platform.parseValue (toUtf8 (emitLine (failureEnvelope err payload))) with
  | error e =>
    refine Or.inr ⟨?_, e, rfl⟩
    rw [hparse] at hline
    by_cases hdepth : payload.depth + 2 ≤ 127
    · rw [if_pos hdepth] at hline
      exact Or.inr (Option.map_eq_none_iff.mp hline.symm)
    · exact Or.inl (by omega)
  | ok v =>
    rw [hparse] at hline
    by_cases hdepth : payload.depth + 2 ≤ 127
    · rw [if_pos hdepth] at hline
      obtain ⟨details, hread, rfl⟩ := Option.map_eq_some_iff.mp hline.symm
      exact Or.inl ⟨details, by omega, hread, rfl⟩
    · rw [if_neg hdepth] at hline
      cases hline

/-- The errors that reach the client as they are. -/
def SurvivesEnvelope (readFloat : Literal → Option FloatText) (err : RunnerError) : Prop :=
  ∀ details ∈ err.details,
    details ≠ .null ∧ details.depth ≤ 125 ∧ ∀ n ∈ details.numbers, n.Exact readFloat

/-- An error without details survives. -/
theorem SurvivesEnvelope.of_no_details {err : RunnerError} (hdetails : err.details = none) :
    SurvivesEnvelope readFloat err := by
  intro details hmem
  rw [hdetails] at hmem
  cases hmem

/-- **An error reaches the client as it is exactly if it survives.** -/
theorem parseEnvelope_eq_runner_iff (fromValue : Json → Except Text Out)
    (hparses : platform.ParsesWith readFloat) {err : RunnerError}
    (hstored : ∀ details ∈ err.details, details.Stored) :
    parseEnvelope platform fromValue (emitLine err.toEnvelope) = .error (.runner err) ↔
      SurvivesEnvelope readFloat err := by
  have hread := parseEnvelope_toEnvelope fromValue hparses err
  cases hdetails : err.details with
  | none =>
    refine iff_of_true ?_ (.of_no_details hdetails)
    rw [hdetails] at hread
    rcases hread with ⟨details, -, hself, hparse⟩ | ⟨hbad, -⟩
    · obtain rfl : JsonTree.null = details := Option.some.inj hself
      rw [hparse, reconstructRunnerError_failureObject]
      cases err with
      | function message details =>
        obtain rfl : details = none := hdetails
        rfl
      | _ => rfl
    · rcases hbad with hdepth | hnone
      · exact absurd hdepth (by decide)
      · cases hnone
  | some payload =>
    rw [hdetails, Option.getD_some] at hread
    obtain ⟨message, rfl⟩ : ∃ message, err = .function message (some payload) := by
      cases err with
      | function message details =>
        obtain rfl : details = some payload := hdetails
        exact ⟨message, rfl⟩
      | _ => cases hdetails
    have hstored : payload.Stored := hstored payload rfl
    constructor
    · intro hsame details hmem
      obtain rfl : payload = details := Option.some.inj hmem
      rcases hread with ⟨details, hdepth, hvalue, hparse⟩ | ⟨-, text, hparse⟩
      · rw [hparse, reconstructRunnerError_failureObject] at hsame
        have hkept : nonNull details = some payload := by
          simpa using hsame
        obtain ⟨hne, rfl⟩ := nonNull_eq_some.mp hkept
        exact ⟨hne, hdepth, JsonTree.exact_of_reread_eq_self hstored hvalue⟩
      · rw [hparse] at hsame
        cases hsame
    · intro hsurvives
      obtain ⟨hne, hdepth, hexact⟩ := hsurvives payload rfl
      have hself := JsonTree.reread_eq_self hstored hexact
      rcases hread with ⟨details, -, hvalue, hparse⟩ | ⟨hdeep | hnone, -⟩
      · obtain rfl : payload = details := Option.some.inj (hself.symm.trans hvalue)
        rw [hparse, reconstructRunnerError_failureObject]
        simp only [nonNull_of_ne hne]
      · omega
      · rw [hself] at hnone
        cases hnone

/-- **No failure is taken for a success.** -/
theorem parseEnvelope_toEnvelope_ne_ok (hparses : platform.ParsesWith readFloat)
    (err : RunnerError) (out : Out) :
    parseEnvelope platform fromValue (emitLine err.toEnvelope) ≠ .ok out := by
  intro hok
  rcases parseEnvelope_toEnvelope fromValue hparses err with
    ⟨details, -, -, hparse⟩ | ⟨-, message, hparse⟩ <;>
  · rw [hparse] at hok
    cases hok

/-- `null` details are lost. -/
theorem parseEnvelope_null_details (fromValue : Json → Except Text Out)
    (hparses : platform.ParsesWith readFloat) (message : Text) :
    parseEnvelope platform fromValue
        (emitLine (RunnerError.function message (some .null)).toEnvelope) =
      .error (.runner (.function message none)) := by
  rcases parseEnvelope_toEnvelope fromValue hparses (.function message (some .null)) with
    ⟨details, -, hread, hparse⟩ | ⟨hdeep | hnone, -⟩
  · obtain rfl : JsonTree.null = details := Option.some.inj hread
    rw [hparse, reconstructRunnerError_failureObject]
    rfl
  · exact absurd hdeep (Nat.not_lt_zero _)
  · cases hnone

/-- **Failure envelopes and the errors behind them.** An error reaches the client as it is
exactly if it survives; two errors that survive are never confused; no error is taken for
a success. Of the others, those that differ in `null` details are confused. -/
theorem errorEnvelope_faithful_iff (fromValue : Json → Except Text Out)
    (hparses : platform.ParsesWith readFloat) :
    (∀ err : RunnerError, (∀ details ∈ err.details, details.Stored) →
      (parseEnvelope platform fromValue (emitLine err.toEnvelope) = .error (.runner err) ↔
        SurvivesEnvelope readFloat err)) ∧
    (∀ err err' : RunnerError, (∀ details ∈ err.details, details.Stored) →
      (∀ details ∈ err'.details, details.Stored) → SurvivesEnvelope readFloat err →
        SurvivesEnvelope readFloat err' →
          parseEnvelope platform fromValue (emitLine err.toEnvelope) =
            parseEnvelope platform fromValue (emitLine err'.toEnvelope) → err = err') ∧
    (∀ (err : RunnerError) (out : Out),
      parseEnvelope platform fromValue (emitLine err.toEnvelope) ≠ .ok out) ∧
    ∀ message, parseEnvelope platform fromValue
        (emitLine (RunnerError.function message (some .null)).toEnvelope) =
      parseEnvelope platform fromValue
        (emitLine (RunnerError.function message none).toEnvelope) := by
  refine ⟨fun err hstored => parseEnvelope_eq_runner_iff _ hparses hstored, ?_,
    parseEnvelope_toEnvelope_ne_ok hparses, ?_⟩
  · intro err err' hstored hstored' hsurvives hsurvives' hsame
    rw [(parseEnvelope_eq_runner_iff _ hparses hstored).mpr hsurvives,
      (parseEnvelope_eq_runner_iff _ hparses hstored').mpr hsurvives'] at hsame
    exact Error.runner.inj (Except.error.inj hsame)
  · intro message
    have hnone : ∀ details ∈ (RunnerError.function message none).details, details.Stored :=
      nofun
    rw [parseEnvelope_null_details fromValue hparses,
      (parseEnvelope_eq_runner_iff _ hparses hnone).mpr (.of_no_details rfl)]

/-- An array in an array, and so on. -/
def nested : ℕ → Json
  | 0 => .null
  | n + 1 => .array [nested n]

/-- Its depth. -/
theorem depth_nested (n : ℕ) : (nested n).depth = n := by
  induction n with
  | zero => rfl
  | succ n ih => rw [nested, JsonTree.depth, JsonTree.depthItems, ih, JsonTree.depthItems,
      Nat.max_zero]

/-- Such arrays are stored. -/
theorem stored_nested (n : ℕ) : (nested n).Stored := by
  induction n with
  | zero => trivial
  | succ n ih => exact ⟨ih, trivial⟩

/-- They hold no number. -/
theorem numbers_nested (n : ℕ) : (nested n).numbers = [] := by
  induction n with
  | zero => rfl
  | succ n ih => rw [nested, JsonTree.numbers, JsonTree.numbersItems, ih]; rfl

/-- Details of depth 125 reach the client. -/
theorem error_reaches_client :
    parseEnvelope (.reading readShortest) (fun _ => Except.ok ())
        (emitLine (RunnerError.function "boom".toList (some (nested 125))).toEnvelope) =
      .error (.runner (.function "boom".toList (some (nested 125)))) := by
  refine ((errorEnvelope_faithful_iff (fun _ => Except.ok ())
    (Platform.parsesWith_reading readShortest)).1
    (.function "boom".toList (some (nested 125))) ?_).mpr ?_
  · intro details hdetails
    obtain rfl : nested 125 = details := Option.some.inj hdetails
    exact stored_nested 125
  · intro details hdetails
    obtain rfl : nested 125 = details := Option.some.inj hdetails
    refine ⟨nofun, (depth_nested 125).le, fun n hn => ?_⟩
    rw [numbers_nested] at hn
    cases hn

/-- Details of depth 126 do not, and `null` details neither. -/
theorem error_does_not_reach_client :
    parseEnvelope (.reading readShortest) (fun _ => Except.ok ())
        (emitLine (RunnerError.function "boom".toList (some (nested 126))).toEnvelope) ≠
      .error (.runner (.function "boom".toList (some (nested 126)))) ∧
    parseEnvelope (.reading readShortest) (fun _ => Except.ok ())
        (emitLine (RunnerError.function "boom".toList (some .null)).toEnvelope) =
      .error (.runner (.function "boom".toList none)) := by
  refine ⟨fun hreaches => ?_,
    parseEnvelope_null_details _ (Platform.parsesWith_reading readShortest) _⟩
  have hstored : ∀ details ∈ (RunnerError.function "boom".toList (some (nested 126))).details,
      details.Stored := by
    intro details hdetails
    obtain rfl : nested 126 = details := Option.some.inj hdetails
    exact stored_nested 126
  have hsurvives := (parseEnvelope_eq_runner_iff _ (Platform.parsesWith_reading readShortest)
    hstored).mp hreaches
  have hdepth := (hsurvives (nested 126) rfl).2.1
  rw [depth_nested] at hdepth
  omega

end ModalRust.Facade
