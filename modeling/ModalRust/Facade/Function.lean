import ModalRust.Facade.ErrorEnvelope

/-!
# Calling an entrypoint locally and remotely

`Function::local` calls the registered handler in the caller's process, without
`catch_unwind`. `Function::remote` sends the input away and decodes the envelope that the
runner emitted for it. The main theorem compares the two when the transport delivers that
envelope unchanged: on which inputs and handler outcomes a failure looks the same on both
paths.
-/

namespace ModalRust.Facade

open ModalRust.Runtime

variable {σ Out : Type}

/-- A handle to an entrypoint of an app. -/
structure Function (σ : Type) where
  /-- The registry of the app. -/
  registry : Registry σ
  /-- The entrypoint. -/
  name : Text
  /-- The handler, if the entrypoint is registered. -/
  handler : Option (HandlerFn σ)

/-- `App::function`. -/
def App.function (registry : Registry σ) (name : Text) : Function σ :=
  ⟨registry, name, registry.get name⟩

/-- The error of an unknown name. -/
def Function.unknown (function : Function σ) : Error :=
  .unknownEntrypoint function.name function.registry.names

/-- `Function::local`. The input is the result of its serialization, and `fromSlice` is
`serde_json::from_slice` at the output type. The call unwinds when the handler does. -/
def Function.local (function : Function σ) (input : Except Text Text)
    (fromSlice : Bytes → Except Text Out) (user : σ) : Run σ (Except Error Out) :=
  match function.handler with
  | none => Run.pure (.error function.unknown) user
  | some handler =>
    match input with
    | .error e => Run.pure (.error (.encode e)) user
    | .ok inputJson =>
      (handler (toUtf8 inputJson) user).bind fun
        | .error err => Run.pure (.error (.runner err))
        | .ok out => Run.pure ((fromSlice out).mapError .decode)

/-- `Function::remote`, where `invoke` yields the envelope for an entrypoint and an input. -/
def Function.remote (function : Function σ) (platform : Platform) (input : Except Text Text)
    (fromValue : Json → Except Text Out) (invoke : Text → Text → Text) : Except Error Out :=
  match input with
  | .error e => .error (.encode e)
  | .ok inputJson => parseEnvelope platform fromValue (invoke function.name inputJson)

/-- The two errors have the same variant and carry the same data, backtraces apart. -/
def SameFailure : Error → Error → Prop
  | .unknownEntrypoint name known, .unknownEntrypoint name' known' => name = name' ∧ known = known'
  | .runner e, .runner e' => e.kind = e'.kind ∧ e.message = e'.message ∧ e.details = e'.details
  | .encode message, .encode message' => message = message'
  | .decode message, .decode message' => message = message'
  | _, _ => False

/-- A local call, which may unwind, and a remote call fail alike, or both succeed. -/
def Alike : Option (Except Error Out) → Except Error Out → Prop
  | some (.ok _), .ok _ => True
  | some (.error e), .error e' => SameFailure e e'
  | _, _ => False

/-- The transport delivers the envelope that the runner emits, over the one-shot command
line or over the serve loop. -/
def Delivers (platform : Platform) (registry : Registry σ) (proc : Proc σ)
    (invoke : Text → Text → Text) (name input : Text) : Prop :=
  (∃ callers argv source, parseArgs argv = .ok ⟨name, source⟩ ∧
    readInput platform source = .ok (toUtf8 input) ∧
      invoke name input = (runCliWithArgs platform registry callers argv proc).stdout) ∨
  ∃ callers, invoke name input = (serveOne platform registry callers ⟨name, input⟩ proc).out

/-- The two decoders of the output type both succeed, or fail with the same text. -/
inductive DecodeAlike : Except Text Out → Except Text Out → Prop
  /-- Both succeed. -/
  | ok (out out' : Out) : DecodeAlike (.ok out) (.ok out')
  /-- Both fail. -/
  | error (message : Text) : DecodeAlike (.error message) (.error message)

/-- The handler outcomes on an input for which the two calls fail alike. -/
inductive Agrees (platform : Platform) (readFloat : Literal → Option FloatText)
    (fromSlice : Bytes → Except Text Out) (fromValue : Json → Except Text Out) (input : Text) :
    Option (Except RunnerError Bytes) → Prop
  /-- The runner rejects the input, and the handler does so in the same words. -/
  | rejected {e : Text} (hinput : platform.parseValue (toUtf8 input) = .error e) :
    Agrees platform readFloat fromSlice fromValue input (some (.error (.decode e)))
  /-- The handler returns an error that survives its envelope. -/
  | failed {v : Json} {err : RunnerError} (hinput : platform.parseValue (toUtf8 input) = .ok v)
    (hsurvives : SurvivesEnvelope readFloat err) :
    Agrees platform readFloat fromSlice fromValue input (some (.error err))
  /-- The handler returns JSON that leaves room for the envelope, and the output type
  decodes it like the value that the client reads. -/
  | returned {v value value' : Json} {bytes : Bytes}
    (hinput : platform.parseValue (toUtf8 input) = .ok v)
    (hbytes : platform.parseValue bytes = .ok value) (hdepth : value.depth ≤ 126)
    (hread : value.toValue (JsonTree.reread (readNumber readFloat)) = some value')
    (hdecode : DecodeAlike (fromSlice bytes) (fromValue value')) :
    Agrees platform readFloat fromSlice fromValue input (some (.ok bytes))
  /-- The client rejects the envelope in the words in which the output type rejects the
  returned JSON. -/
  | unreadable {v value : Json} {bytes : Bytes} {message : Text}
    (hinput : platform.parseValue (toUtf8 input) = .ok v)
    (hbytes : platform.parseValue bytes = .ok value)
    (hline : platform.parseValue (toUtf8 (emitLine (successEnvelope value))) = .error message)
    (hslice : fromSlice bytes = .error message) :
    Agrees platform readFloat fromSlice fromValue input (some (.ok bytes))

variable {platform : Platform} {readFloat : Literal → Option FloatText} {registry : Registry σ}
  {proc : Proc σ} {invoke : Text → Text → Text} {name input : Text}
  {fromSlice : Bytes → Except Text Out} {fromValue : Json → Except Text Out}

/-- What is delivered is the envelope of a call. -/
theorem Delivers.eq_call (hdelivers : Delivers platform registry proc invoke name input) :
    ∃ stack, invoke name input =
      emitLine (envelopeOf (call platform registry stack name (toUtf8 input) proc).1) := by
  rcases hdelivers with ⟨callers, argv, source, hargv, hread, hline⟩ | ⟨callers, hline⟩
  · exact ⟨_, hline.trans (stdout_runCliWithArgs hargv hread)⟩
  · exact ⟨_, hline.trans (out_serveOne platform registry callers name input proc)⟩

/-- A local error is the error that arrives exactly if it survives. -/
theorem alike_toEnvelope_iff (hparses : platform.ParsesWith readFloat) {err : RunnerError}
    (hstored : ∀ details ∈ err.details, details.Stored) :
    Alike (some (.error (.runner err)))
        (parseEnvelope platform fromValue (emitLine err.toEnvelope)) ↔
      SurvivesEnvelope readFloat err := by
  have hiff := parseEnvelope_eq_runner_iff fromValue hparses hstored
  constructor
  · intro halike
    refine hiff.mp ?_
    rcases parseEnvelope_toEnvelope fromValue hparses err with
      ⟨details, -, -, hparse⟩ | ⟨-, message, hparse⟩
    · rw [hparse, reconstructRunnerError_failureObject] at halike ⊢
      cases err with
      | function message payload =>
        obtain rfl : payload = nonNull details := halike.2.2
        rfl
      | _ => rfl
    · rw [hparse] at halike
      exact halike.elim
  · intro hsurvives
    rw [hiff.mpr hsurvives]
    exact ⟨rfl, rfl, rfl⟩

/-- Only a decode error with the same text looks like one. -/
theorem sameFailure_decode_iff {err : RunnerError} {e : Text} :
    SameFailure (.runner err) (.runner (.decode e)) ↔ err = .decode e := by
  constructor
  · rintro ⟨hkind, hmessage, -⟩
    cases err with
    | decode m =>
      obtain rfl : m = e := hmessage
      rfl
    | unknownEntrypoint m =>
      have hne : "unknown_entrypoint".toList ≠ "decode_error".toList := by decide
      exact (hne hkind).elim
    | function m details =>
      have hne : "function_error".toList ≠ "decode_error".toList := by decide
      exact (hne hkind).elim
    | encode m =>
      have hne : "encode_error".toList ≠ "decode_error".toList := by decide
      exact (hne hkind).elim
    | panic m backtrace =>
      have hne : "panic".toList ≠ "decode_error".toList := by decide
      exact (hne hkind).elim
  · rintro rfl
    exact ⟨rfl, rfl, rfl⟩

/-- The envelope of an error that survives arrives as an error of the runner. -/
theorem parseEnvelope_of_no_details (hparses : platform.ParsesWith readFloat) {err : RunnerError}
    (hdetails : err.details = none) :
    parseEnvelope platform fromValue (emitLine err.toEnvelope) = .error (.runner err) := by
  refine (parseEnvelope_eq_runner_iff _ hparses ?_).mpr (.of_no_details hdetails)
  intro details hmem
  rw [hdetails] at hmem
  cases hmem

/-- A success envelope arrives like the returned bytes exactly if the output type decodes
both alike, or rejects the bytes in the words in which the client rejects the line. -/
theorem alike_successEnvelope_iff (hparses : platform.ParsesWith readFloat) {bytes : Bytes}
    {v value : Json} (hinput : platform.parseValue (toUtf8 input) = .ok v)
    (hbytes : platform.parseValue bytes = .ok value) :
    Alike (some ((fromSlice bytes).mapError .decode))
        (parseEnvelope platform fromValue (emitLine (successEnvelope value))) ↔
      Agrees platform readFloat fromSlice fromValue input (some (.ok bytes)) := by
  constructor
  · intro halike
    by_cases hrejected : 126 < value.depth ∨
        value.toValue (JsonTree.reread (readNumber readFloat)) = none
    · obtain ⟨message, hline⟩ := exists_error_of_rejected hparses hrejected
      rw [parseEnvelope_of_error fromValue hline] at halike
      cases hslice : fromSlice bytes with
      | ok out =>
        rw [hslice] at halike
        exact halike.elim
      | error e =>
        rw [hslice] at halike
        obtain rfl : e = message := halike
        exact .unreadable hinput hbytes hline hslice
    · have hdepth : value.depth ≤ 126 := by omega
      obtain ⟨value', hread⟩ := Option.ne_none_iff_exists'.mp (not_or.mp hrejected).2
      rw [parseEnvelope_successEnvelope hparses hdepth hread] at halike
      refine .returned hinput hbytes hdepth hread ?_
      revert halike
      cases fromSlice bytes with
      | ok out =>
        cases fromValue value' with
        | ok out' => exact fun _ => .ok out out'
        | error e => exact fun halike => halike.elim
      | error message =>
        cases fromValue value' with
        | ok out' => exact fun halike => halike.elim
        | error e =>
          intro halike
          obtain rfl : message = e := halike
          exact .error message
  · intro hagrees
    cases hagrees with
    | returned hinput' hbytes' hdepth hread hdecode =>
      obtain rfl := Except.ok.inj (hbytes.symm.trans hbytes')
      rw [parseEnvelope_successEnvelope hparses hdepth hread]
      revert hdecode
      generalize fromSlice bytes = decoded, fromValue _ = decoded'
      rintro (⟨out, out'⟩ | ⟨message⟩)
      · trivial
      · rfl
    | unreadable hinput' hbytes' hline hslice =>
      obtain rfl := Except.ok.inj (hbytes.symm.trans hbytes')
      rw [parseEnvelope_of_error fromValue hline, hslice]
      rfl

/-- A message ends with a place in a text. -/
def NamesPlace (message : Text) : Prop :=
  ∃ line column : ℕ, " at line ".toList ++ Nat.toDigits 10 line ++ " column ".toList ++
    Nat.toDigits 10 column <:+ message

/-- serde_json ends the errors of `from_slice` with their place in the text, and knows no place in a
value for those of `from_value`. -/
structure PlacesErrors (fromSlice : Bytes → Except Text Out) (fromValue : Json → Except Text Out) :
    Prop where
  /-- Errors in a text have a place. -/
  slice : ∀ bytes message, fromSlice bytes = .error message → NamesPlace message
  /-- Errors in a value have none. -/
  value : ∀ v message, fromValue v = .error message → ¬ NamesPlace message

/-- With such messages, a returned JSON that the output type rejects never fails alike if the client
reads the line. -/
theorem exists_ok_of_agrees (hplaces : PlacesErrors fromSlice fromValue) {bytes : Bytes}
    (hline : ∀ value, platform.parseValue bytes = .ok value →
      ∃ v, platform.parseValue (toUtf8 (emitLine (successEnvelope value))) = .ok v)
    (hagrees : Agrees platform readFloat fromSlice fromValue input (some (.ok bytes))) :
    ∃ out, fromSlice bytes = .ok out := by
  cases hagrees with
  | returned hinput hbytes hdepth hread hdecode =>
    rcases hslice : fromSlice bytes with message | out
    · rw [hslice] at hdecode
      generalize hvalue : fromValue _ = decoded at hdecode
      cases hdecode
      exact absurd (hplaces.slice bytes message hslice) (hplaces.value _ message hvalue)
    · exact ⟨out, rfl⟩
  | unreadable hinput hbytes hrejected hslice =>
    obtain ⟨v, hv⟩ := hline _ hbytes
    rw [hv] at hrejected
    cases hrejected

/-- The result of a local call of a handler, given what the handler returned. -/
def localResult (fromSlice : Bytes → Except Text Out) :
    Except RunnerError Bytes → Except Error Out
  | .error err => .error (.runner err)
  | .ok out => (fromSlice out).mapError .decode

/-- A local call of a registered entrypoint unwinds exactly when its handler does. -/
theorem local_result {handler : HandlerFn σ} (hget : registry.get name = some handler)
    (user : σ) :
    ((App.function registry name).local (.ok input) fromSlice user).result =
      (handler (toUtf8 input) user).result.map (localResult fromSlice) := by
  simp only [App.function, Function.local, hget, Run.bind]
  cases (handler (toUtf8 input) user).result with
  | none => rfl
  | some result => cases result <;> rfl

/-- A local and a remote call of a registered entrypoint on a serialized input. -/
theorem alike_call_iff (hparses : platform.ParsesWith readFloat) {handler : HandlerFn σ}
    (hget : registry.get name = some handler) (stack : List Text)
    (hstored : ∀ err, (handler (toUtf8 input) proc.user).result = some (.error err) →
      ∀ details ∈ err.details, details.Stored) :
    Alike ((handler (toUtf8 input) proc.user).result.map (localResult fromSlice))
        (parseEnvelope platform fromValue (emitLine (envelopeOf
          (call platform registry stack name (toUtf8 input) proc).1))) ↔
      Agrees platform readFloat fromSlice fromValue input
        (handler (toUtf8 input) proc.user).result := by
  unfold call
  cases hinput : platform.parseValue (toUtf8 input) with
  | error e =>
    simp only [envelopeOf]
    rw [parseEnvelope_of_no_details hparses rfl]
    constructor
    · cases (handler (toUtf8 input) proc.user).result with
      | none => exact fun halike => halike.elim
      | some result =>
        cases result with
        | error err =>
          intro halike
          obtain rfl := sameFailure_decode_iff.mp halike
          exact .rejected hinput
        | ok bytes =>
          intro halike
          simp only [Option.map_some, localResult] at halike
          cases hslice : fromSlice bytes <;>
          · rw [hslice] at halike
            exact halike.elim
    · intro hagrees
      generalize (handler (toUtf8 input) proc.user).result = result at hagrees
      cases hagrees with
      | rejected hinput' =>
        obtain rfl := Except.error.inj (hinput.symm.trans hinput')
        exact ⟨rfl, rfl, rfl⟩
      | failed hinput' => cases hinput.symm.trans hinput'
      | returned hinput' => cases hinput.symm.trans hinput'
      | unreadable hinput' => cases hinput.symm.trans hinput'
  | ok v =>
    simp only [hget, runHandler]
    cases hresult : (handler (toUtf8 input) proc.user).result with
    | none =>
      -- The local call unwinds, whatever the remote call reports.
      refine iff_of_false id fun hagrees => ?_
      cases hagrees
    | some result =>
      cases result with
      | error err =>
        refine (alike_toEnvelope_iff hparses (hstored err hresult)).trans ⟨.failed hinput, ?_⟩
        intro hagrees
        cases hagrees with
        | rejected hinput' => cases hinput.symm.trans hinput'
        | failed hinput' hsurvives => exact hsurvives
      | ok bytes =>
        simp only [Except.bind, reparse, Option.map_some, localResult]
        cases hbytes : platform.parseValue bytes with
        | ok value => exact alike_successEnvelope_iff hparses hinput hbytes
        | error e =>
          simp only [Except.mapError, envelopeOf]
          rw [parseEnvelope_of_no_details hparses rfl]
          refine iff_of_false ?_ ?_
          · cases fromSlice bytes <;> exact id
          · intro hagrees
            cases hagrees with
            | returned hinput' hbytes' => cases hbytes.symm.trans hbytes'
            | unreadable hinput' hbytes' => cases hbytes.symm.trans hbytes'

/-- **A local and a remote call fail alike exactly if the entrypoint is registered and its
handler's outcome on the input, if the input serializes at all, is one of those in `Agrees`.**
In particular they never do when the handler unwinds. -/
theorem local_remote_alike_iff (hparses : platform.ParsesWith readFloat)
    (serialized : Except Text Text)
    (hdelivers : ∀ input, serialized = .ok input →
      Delivers platform registry proc invoke name input)
    (hstored : ∀ handler input err, registry.get name = some handler →
      (handler (toUtf8 input) proc.user).result = some (.error err) →
        ∀ details ∈ err.details, details.Stored) :
    Alike ((App.function registry name).local serialized fromSlice proc.user).result
        ((App.function registry name).remote platform serialized fromValue invoke) ↔
      ∃ handler, registry.get name = some handler ∧ ∀ input, serialized = .ok input →
        Agrees platform readFloat fromSlice fromValue input
          (handler (toUtf8 input) proc.user).result := by
  cases hget : registry.get name with
  | none =>
    refine iff_of_false ?_ (fun ⟨_, hsome, _⟩ => nomatch hsome)
    have hlocal : ((App.function registry name).local serialized fromSlice proc.user).result =
        some (.error (.unknownEntrypoint name registry.names)) := by
      simp only [App.function, Function.local, hget]
      rfl
    rw [hlocal]
    cases serialized with
    | error e => exact id
    | ok input =>
      obtain ⟨stack, hline⟩ := (hdelivers input rfl).eq_call
      have hremote : (App.function registry name).remote platform (.ok input) fromValue invoke =
          parseEnvelope platform fromValue (invoke name input) := rfl
      rw [hremote, hline]
      unfold call
      cases platform.parseValue (toUtf8 input) with
      | error e =>
        simp only [envelopeOf]
        rw [parseEnvelope_of_no_details hparses rfl]
        exact id
      | ok v =>
        simp only [hget, envelopeOf]
        rw [parseEnvelope_of_no_details hparses rfl]
        exact id
  | some handler =>
    cases serialized with
    | error e =>
      have hlocal : ((App.function registry name).local (.error e) fromSlice proc.user).result =
          some (.error (.encode e)) := by
        simp only [App.function, Function.local, hget]
        rfl
      rw [hlocal]
      exact iff_of_true rfl ⟨handler, rfl, nofun⟩
    | ok input =>
      obtain ⟨stack, hline⟩ := (hdelivers input rfl).eq_call
      have hremote : (App.function registry name).remote platform (.ok input) fromValue invoke =
          parseEnvelope platform fromValue (invoke name input) := rfl
      rw [hremote, hline, local_result hget,
        alike_call_iff hparses hget stack fun err => hstored handler input err hget]
      constructor
      · intro hagrees
        refine ⟨handler, rfl, fun input' hinput => ?_⟩
        obtain rfl := Except.ok.inj hinput
        exact hagrees
      · rintro ⟨handler', hhandler, hagrees⟩
        obtain rfl := Option.some.inj hhandler
        exact hagrees input rfl

/-- A registry with one entrypoint, whose handler always has the same outcome. -/
def answering (hooks : List PanicInfo) (result : Option (Except RunnerError Bytes)) :
    Registry Unit where
  __ := Registry.new
  handlers := Std.TreeMap.empty.insert "f".toList fun _ user => ⟨hooks, result, user⟩

/-- A transport that runs the one-shot command line. -/
def oneShot (platform : Platform) (registry : Registry Unit) (name input : Text) : Text :=
  (runCliWithArgs platform registry []
    ["--entrypoint".toList, name, "--input-json".toList, input] (.fresh ())).stdout

/-- It delivers what the runner emits. -/
theorem delivers_oneShot (platform : Platform) (registry : Registry Unit) (name input : Text) :
    Delivers platform registry (.fresh ()) (oneShot platform registry) name input :=
  Or.inl ⟨[], _, .json input, rfl, rfl, rfl⟩

/-- The entrypoint of that registry. -/
theorem get_answering (hooks : List PanicInfo) (result : Option (Except RunnerError Bytes)) :
    (answering hooks result).get "f".toList = some fun _ user => ⟨hooks, result, user⟩ := rfl

/-- A user error looks the same on both paths. -/
theorem user_error_alike :
    let registry := answering [] (some (.error (.function "no".toList none)))
    let platform := Platform.reading readShortest
    Alike ((App.function registry "f".toList).local (.ok "null".toList)
        (fun _ => Except.ok ()) (Proc.fresh ()).user).result
      ((App.function registry "f".toList).remote platform (.ok "null".toList)
        (fun _ => Except.ok ()) (oneShot platform registry)) := by
  intro registry platform
  have hparses : platform.ParsesWith readShortest := Platform.parsesWith_reading readShortest
  have hget := get_answering [] (some (.error (.function "no".toList none)))
  refine (local_remote_alike_iff hparses (.ok "null".toList)
    (fun input _ => delivers_oneShot platform registry _ input) ?_).mpr ⟨_, hget, ?_⟩
  · intro handler input err hhandler hresult
    obtain rfl := Option.some.inj (hget.symm.trans hhandler)
    obtain rfl := Except.error.inj (Option.some.inj hresult)
    exact nofun
  · intro input hinput
    obtain rfl := Except.ok.inj hinput
    have hnull : platform.parseValue (toUtf8 "null".toList) = .ok .null := by
      refine eq_ok_of_toOption ?_
      rw [parseValue_toUtf8 hparses]
      rfl
    exact .failed hnull (.of_no_details rfl)

/-- A panic does not: the local call unwinds, and the remote call reports the panic. -/
theorem panic_not_alike :
    let registry := answering [⟨"boom".toList, []⟩] none
    let platform := Platform.reading readShortest
    ((App.function registry "f".toList).local (.ok "null".toList)
        (fun _ => Except.ok ()) (Proc.fresh ()).user).result = none ∧
      ¬ Alike ((App.function registry "f".toList).local (.ok "null".toList)
          (fun _ => Except.ok ()) (Proc.fresh ()).user).result
        ((App.function registry "f".toList).remote platform (.ok "null".toList)
          (fun _ => Except.ok ()) (oneShot platform registry)) := by
  intro registry platform
  have hlocal : ((App.function registry "f".toList).local (.ok "null".toList)
      (fun _ => Except.ok ()) (Proc.fresh ()).user).result = none :=
    local_result (get_answering [⟨"boom".toList, []⟩] none) _
  refine ⟨hlocal, ?_⟩
  rw [hlocal]
  exact id

end ModalRust.Facade
