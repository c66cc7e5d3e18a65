import ModalRust.Runtime.Call

/-!
# The decode-only mode predicts the run

`--check-input` validates an input before anything is paid for, so it must refuse exactly
what the run would refuse: an input that is not JSON, an entrypoint that is not registered
or an input that does not decode. In a registry whose entrypoints were registered with
both wrappers of one handler it does, with the same envelope, and without running the
handler.
-/

namespace ModalRust.Runtime

/-- The envelope that accepts an input. -/
def acceptedEnvelope : Json := .json [("ok".toList, .bool true)]

/-- The failure refuses the input, before the handler runs. -/
def RunnerError.Refuses (err : RunnerError) : Prop :=
  err.kind = "decode_error".toList ∨ err.kind = "unknown_entrypoint".toList

/-- A failure to encode the output refuses no input. -/
theorem RunnerError.not_refuses_encode (message : Text) : ¬ (encode message).Refuses := by
  have hkind : (encode message).kind = "encode_error".toList := rfl
  unfold Refuses
  rw [hkind]
  decide

/-- Neither does a user error. -/
theorem RunnerError.not_refuses_function (message : Text) (details : Option Json) :
    ¬ (function message details).Refuses := by
  have hkind : (function message details).kind = "function_error".toList := rfl
  unfold Refuses
  rw [hkind]
  decide

/-- Neither does a panic. -/
theorem RunnerError.not_refuses_panic (message backtrace : Text) :
    ¬ (panic message backtrace).Refuses := by
  have hkind : (panic message backtrace).kind = "panic".toList := rfl
  unfold Refuses
  rw [hkind]
  decide

/-- The emitted envelope refuses the input. -/
def Exit.Refuses {σ : Type} (exit : Exit σ) : Prop :=
  ∃ kind, exit.envelope.bind errorKind = some kind ∧
    (kind = "decode_error".toList ∨ kind = "unknown_entrypoint".toList)

/-- A failure envelope refuses the input if its failure does. -/
theorem refuses_emit_toEnvelope {σ : Type} {err : RunnerError} {code : ℕ} {proc : Proc σ} :
    (emit err.toEnvelope code proc).Refuses ↔ err.Refuses := by
  have hkind : (emit err.toEnvelope code proc).envelope.bind errorKind = some err.kind :=
    errorKind_toEnvelope err
  unfold Exit.Refuses RunnerError.Refuses
  rw [hkind]
  constructor
  · rintro ⟨kind, hsome, hrefuses⟩
    obtain rfl := Option.some.inj hsome
    exact hrefuses
  · exact fun hrefuses => ⟨_, rfl, hrefuses⟩

/-- An envelope without an error refuses nothing. -/
theorem not_refuses_emit {σ : Type} {envelope : Json} {code : ℕ} {proc : Proc σ}
    (henvelope : errorKind envelope = none) : ¬ (emit envelope code proc).Refuses := by
  rintro ⟨kind, hsome, -⟩
  have hnone : (emit envelope code proc).envelope.bind errorKind = none := henvelope
  rw [hnone] at hsome
  cases hsome

/-- A decoding failure is a `decode_error`. -/
theorem TypedFn.refuses_of_decode_eq_error {σ : Type} {f : TypedFn σ} {input : Bytes}
    {err : RunnerError} (hdecode : f.decode input = .error err) : err.Refuses := by
  unfold TypedFn.decode at hdecode
  cases hslice : f.fromSlice input with
  | error e =>
    rw [hslice] at hdecode
    obtain rfl : RunnerError.decode e = err := Except.error.inj hdecode
    exact Or.inl rfl
  | ok arg =>
    rw [hslice] at hdecode
    cases hdecode

/-- A continued call returns what its continuation returns. -/
theorem Run.result_bind_eq_some {σ α β : Type*} {run : Run σ α} {next : α → σ → Run σ β}
    {value : β} (hresult : (run.bind next).result = some value) :
    ∃ a, run.result = some a ∧ (next a run.user).result = some value := by
  unfold Run.bind at hresult
  cases hrun : run.result with
  | none => simp [hrun] at hresult
  | some a => exact ⟨a, rfl, by simpa [hrun] using hresult⟩

/-- The encoder fails with an `encode_error` only. -/
theorem TypedFn.encode_error {σ : Type} {f : TypedFn σ} {value : f.Out} {user : σ}
    {err : RunnerError} (hresult : (f.encode value user).result = some (.error err)) :
    ¬ err.Refuses := by
  obtain ⟨result, -, hmap⟩ := Run.result_bind_eq_some hresult
  have hmap : result.mapError RunnerError.encode = .error err := Option.some.inj hmap
  cases result with
  | ok bytes => cases hmap
  | error e =>
    obtain rfl : RunnerError.encode e = err := Except.error.inj hmap
    exact RunnerError.not_refuses_encode e

/-- A user error becomes a `function_error`. -/
theorem TypedFn.toRunnerError_result {σ : Type} {f : TypedFn σ} {e : f.Err} {user : σ}
    {err : RunnerError} (hresult : (f.toRunnerError e user).result = some err) :
    ¬ err.Refuses := by
  obtain ⟨described, -, hfunction⟩ := Run.result_bind_eq_some hresult
  obtain rfl : RunnerError.function described.1 described.2 = err := Option.some.inj hfunction
  exact RunnerError.not_refuses_function _ _

/-- **A handler whose input decodes does not refuse it.** -/
theorem typed_error_of_decode {σ : Type} {f : TypedFn σ} {input : Bytes} {arg : f.In} {user : σ}
    {err : RunnerError} (hdecode : f.decode input = .ok arg)
    (hresult : (typed f input user).result = some (.error err)) : ¬ err.Refuses := by
  simp only [typed, hdecode] at hresult
  obtain ⟨result, -, hresult⟩ := Run.result_bind_eq_some hresult
  cases result with
  | ok out => exact TypedFn.encode_error hresult
  | error e =>
    obtain ⟨err', herr', hpure⟩ := Run.result_bind_eq_some hresult
    obtain rfl : err' = err := Except.error.inj (Option.some.inj hpure)
    exact TypedFn.toRunnerError_result herr'

/-- A run of a handler does not refuse the input if the handler does not. -/
theorem runHandler_error {σ : Type} {platform : Platform} {stack : List Text}
    {handler : HandlerFn σ} {input : Bytes} {proc : Proc σ} {err : RunnerError}
    (hhandler : ∀ err, (handler input proc.user).result = some (.error err) → ¬ err.Refuses)
    (hrun : (runHandler platform stack handler input proc).1 = .error err) : ¬ err.Refuses := by
  simp only [runHandler] at hrun
  cases hresult : (handler input proc.user).result with
  | some result =>
    rw [hresult] at hrun
    exact hhandler err (by rw [hresult]; exact congrArg some hrun)
  | none =>
    rw [hresult] at hrun
    obtain rfl := Except.error.inj hrun
    exact RunnerError.not_refuses_panic _ _

/-- The output of a handler that does not refuse its input is an answer. -/
theorem not_refuses_bind_reparse {platform : Platform} {result : Except RunnerError Bytes}
    (hresult : ∀ err, result = .error err → ¬ err.Refuses) {err : RunnerError}
    (hbind : result.bind (reparse platform) = .error err) : ¬ err.Refuses := by
  cases result with
  | error err' =>
    obtain rfl : err' = err := Except.error.inj hbind
    exact hresult err' rfl
  | ok bytes =>
    have hbind : reparse platform bytes = .error err := hbind
    unfold reparse at hbind
    cases hparse : platform.parseValue bytes with
    | ok value => rw [hparse] at hbind; cases hbind
    | error e =>
      rw [hparse] at hbind
      obtain rfl := Except.error.inj hbind
      exact RunnerError.not_refuses_encode _

/-- The decode-only mode on the arguments of a call. -/
theorem runCliWithArgs_checkInput {σ : Type} {platform : Platform} {registry : Registry σ}
    {callers argv : List Text} {entrypoint inputJson : Text} {proc : Proc σ}
    (hargv : parseArgs argv = .ok ⟨entrypoint, .json inputJson⟩) :
    runCliWithArgs platform registry callers ("--check-input".toList :: argv) proc =
      runCheckInputInner platform registry entrypoint (toUtf8 inputJson) proc := by
  rw [runCliWithArgs, if_pos List.head?_cons, List.tail_cons, runCheckInput, hargv]
  rfl

/-- **Check-input predicts the run.** In a registry built from typed handlers the
decode-only mode refuses an input exactly when the one-shot run does, and then with the
same envelope; every other input is accepted. It leaves the process as it was, so that no
handler has run. -/
theorem checkInput_predicts_run {σ : Type} {platform : Platform}
    {fns : List (Text × TypedFn σ)} {registry : Registry σ} {callers argv : List Text}
    {entrypoint inputJson : Text} {proc : Proc σ} (hbuilt : Registry.ofTyped fns = some registry)
    (hargv : parseArgs argv = .ok ⟨entrypoint, .json inputJson⟩) :
    let run := runCliWithArgs platform registry callers argv proc
    let check := runCliWithArgs platform registry callers ("--check-input".toList :: argv) proc
    (check.Refuses ↔ run.Refuses) ∧
      (check.Refuses → check.envelope = run.envelope ∧ check.stdout = run.stdout ∧
        check.code = run.code) ∧
      (¬ check.Refuses → check.envelope = some acceptedEnvelope ∧
        check.stdout = emitLine acceptedEnvelope ∧ check.code = 0) ∧
      check.proc = proc := by
  intro run check
  have hrefused : ∀ {err : RunnerError} {proc' : Proc σ}, err.Refuses →
      check = emit err.toEnvelope 1 proc → run = emit err.toEnvelope 1 proc' →
      (check.Refuses ↔ run.Refuses) ∧
        (check.Refuses → check.envelope = run.envelope ∧ check.stdout = run.stdout ∧
          check.code = run.code) ∧
        (¬ check.Refuses → check.envelope = some acceptedEnvelope ∧
          check.stdout = emitLine acceptedEnvelope ∧ check.code = 0) ∧
        check.proc = proc := by
    intro err proc' herr hcheck hrun
    rw [hcheck, hrun]
    have hrefuses : (emit err.toEnvelope 1 proc).Refuses := refuses_emit_toEnvelope.mpr herr
    exact ⟨⟨fun _ => refuses_emit_toEnvelope.mpr herr, fun _ => hrefuses⟩,
      fun _ => ⟨rfl, rfl, rfl⟩, fun hnot => absurd hrefuses hnot, rfl⟩
  have hcheck : check = _ := runCliWithArgs_checkInput hargv
  have hrun : run = _ := runCliWithArgs_eq_call hargv
  unfold runCheckInputInner at hcheck
  unfold call at hrun
  cases hparse : platform.parseValue (toUtf8 inputJson) with
  | error e =>
    simp only [hparse] at hcheck hrun
    exact hrefused (Or.inl rfl) hcheck hrun
  | ok value =>
    simp only [hparse] at hcheck hrun
    cases hget : registry.get entrypoint with
    | none =>
      simp only [hget, Option.isNone_none, if_true] at hcheck hrun
      exact hrefused (Or.inr rfl) hcheck hrun
    | some handler =>
      obtain ⟨f, rfl, hgetCheck⟩ := Registry.paired_of_ofTyped hbuilt entrypoint handler hget
      simp only [hget, hgetCheck, Option.isNone_some, Bool.false_eq_true, if_false] at hcheck hrun
      cases hdecode : f.decode (toUtf8 inputJson) with
      | error err =>
        -- Both wrappers fail in the same first step.
        have hchecker : typedCheck f (toUtf8 inputJson) = .error err := by
          rw [typedCheck, hdecode]
          rfl
        have hhandler : runHandler platform (oneShotStack callers) (typed f) (toUtf8 inputJson)
            proc = (.error err, ⟨proc.user, none⟩) := by
          simp only [runHandler, typed, hdecode]
          rfl
        simp only [hchecker] at hcheck
        simp only [hhandler] at hrun
        exact hrefused (TypedFn.refuses_of_decode_eq_error hdecode) hcheck hrun
      | ok arg =>
        have hchecker : typedCheck f (toUtf8 inputJson) = .ok () := by
          rw [typedCheck, hdecode]
          rfl
        simp only [hchecker] at hcheck
        have hcheckNot : ¬ check.Refuses := by
          rw [hcheck]
          exact not_refuses_emit rfl
        have hrunNot : ¬ run.Refuses := by
          rw [hrun]
          cases hresult : (runHandler platform (oneShotStack callers) (typed f)
              (toUtf8 inputJson) proc).1.bind (reparse platform) with
          | ok value => exact not_refuses_emit (errorKind_successEnvelope value)
          | error err =>
            have herr : ¬ err.Refuses := not_refuses_bind_reparse (fun err' herr' =>
              runHandler_error (fun err'' => typed_error_of_decode hdecode) herr') hresult
            exact fun hrefuses => herr (refuses_emit_toEnvelope.mp hrefuses)
        refine ⟨⟨fun h => absurd h hcheckNot, fun h => absurd h hrunNot⟩,
          fun h => absurd h hcheckNot, fun _ => ?_, ?_⟩
        · rw [hcheck]
          exact ⟨rfl, rfl, rfl⟩
        · rw [hcheck]
          rfl

/-- A handler of the unit input that counts how often it runs. -/
def countingFn : TypedFn ℕ where
  In := Unit
  Out := ℕ
  Err := Text
  fromSlice bytes :=
    if bytes = toUtf8 "null".toList then .ok ()
    else .error "invalid type: expected unit".toList
  body _ user := ⟨[], some (.ok (user + 1)), user + 1⟩
  toVec value user := Run.pure (.ok (toUtf8 (Nat.toDigits 10 value))) user
  describe message user := Run.pure (message, none) user

/-- The prediction for the counting handler: its input is accepted and it has not run. -/
theorem checkInput_predicts_run_counting :
    ∃ registry, Registry.ofTyped [("count".toList, countingFn)] = some registry ∧
      let argv := ["--entrypoint".toList, "count".toList, "--input-json".toList, "null".toList]
      let run := runCliWithArgs (.ofTable [("null".toList, .null)] []) registry [] argv (.fresh 0)
      let check := runCliWithArgs (.ofTable [("null".toList, .null)] []) registry []
        ("--check-input".toList :: argv) (.fresh 0)
      (check.Refuses ↔ run.Refuses) ∧
        (check.Refuses → check.envelope = run.envelope ∧ check.stdout = run.stdout ∧
          check.code = run.code) ∧
        (¬ check.Refuses → check.envelope = some acceptedEnvelope ∧
          check.stdout = emitLine acceptedEnvelope ∧ check.code = 0) ∧
        check.proc = .fresh 0 :=
  have hbuilt : ∃ registry, Registry.ofTyped [("count".toList, countingFn)] = some registry :=
    ⟨_, by rfl⟩
  let ⟨registry, hregistry⟩ := hbuilt
  ⟨registry, hregistry, checkInput_predicts_run hregistry (by rfl)⟩

end ModalRust.Runtime
