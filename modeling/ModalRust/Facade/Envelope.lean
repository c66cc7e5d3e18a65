import ModalRust.JsonNumber
import ModalRust.Runtime.Call

/-!
# The client's side of an envelope

`parse_envelope` and `reconstruct_runner_error`, which turn the line that the runner
emitted back into an output or an error of the facade. The first theorems say what is read
from a failure envelope and from a success envelope, for a client that parses as
serde_json does: the payload is read anew, and the line is rejected when the payload is
nested too deeply.
-/

namespace ModalRust.Facade

open ModalRust.Runtime

/-- The errors of a call, as far as the serialized input, the handler or the envelope
cause them. -/
inductive Error
  /-- The name is not registered, with the names that are. -/
  | unknownEntrypoint (name : Text) (known : List Text)
  /-- The failure taxonomy of the runner, wrapped. -/
  | runner (e : RunnerError)
  /-- The input failed to serialize. -/
  | encode (message : Text)
  /-- The output failed to deserialize. -/
  | decode (message : Text)

/-- The text of a field that holds a string, or the empty text. -/
def textField (key : Text) (v : Json) : Text := ((v.get key).bind Json.asStr).getD []

/-- The details in a failure object: `null` stands for none. -/
def detailsField (error : Json) : Option Json :=
  match error.get "details".toList with
  | some .null => none
  | details => details

/-- `reconstruct_runner_error`: a failure object as an error of the runner. -/
def reconstructRunnerError (error : Json) : RunnerError :=
  let kind := textField "kind".toList error
  let message := textField "message".toList error
  if kind = "decode_error".toList then .decode message
  else if kind = "unknown_entrypoint".toList then .unknownEntrypoint message
  else if kind = "function_error".toList then .function message (detailsField error)
  else if kind = "encode_error".toList then .encode message
  else if kind = "panic".toList then .panic message (textField "backtrace".toList error)
  else .decode ("unrecognized error kind: ".toList ++ kind)

/-- `parse_envelope::<Out>`, where `fromValue` is `serde_json::from_value` at the output type. -/
def parseEnvelope {Out : Type} (platform : Platform) (fromValue : Json → Except Text Out)
    (envelope : Text) : Except Error Out :=
  match platform.parseValue (toUtf8 envelope) with
  | .error e => .error (.decode e)
  | .ok v =>
    match v.get "ok".toList with
    | some (.bool true) => (fromValue ((v.get "value".toList).getD .null)).mapError .decode
    | _ => .error (.runner (reconstructRunnerError ((v.get "error".toList).getD .null)))

end ModalRust.Facade

namespace ModalRust.Runtime.Platform

/-- The platform parses values as serde_json does, given how it reads a float. Only the
texts of the parse errors remain open. -/
def ParsesWith (platform : Platform) (readFloat : Literal → Option FloatText) : Prop :=
  ∀ bytes, (platform.parseValue bytes).toOption = (fromUtf8 bytes).bind (fromStr readFloat)

/-- A platform that parses values in this way and knows no frames. -/
def reading (readFloat : Literal → Option FloatText) : Platform where
  __ := ofTable [] []
  parseValue bytes :=
    match (fromUtf8 bytes).bind (fromStr readFloat) with
    | some v => .ok v
    | none => .error "expected value at line 1 column 1".toList

/-- It parses as it should. -/
theorem parsesWith_reading (readFloat : Literal → Option FloatText) :
    (reading readFloat).ParsesWith readFloat := by
  intro bytes
  simp only [reading]
  cases (fromUtf8 bytes).bind (fromStr readFloat) <;> rfl

end ModalRust.Runtime.Platform

namespace ModalRust.Facade

open ModalRust.Runtime

variable {platform : Platform} {readFloat : Literal → Option FloatText}

/-- A floating-point reader that returns the literal it was given. -/
def readShortest (l : Literal) : Option FloatText :=
  if hl : l.WellFormed ∧ (l.fraction ≠ [] ∨ l.exponent ≠ []) then some ⟨l, hl.1, hl.2⟩ else none

/-- A parse that yields a value. -/
theorem eq_ok_of_toOption {α : Type} {result : Except Text α} {v : α}
    (hresult : result.toOption = some v) : result = .ok v := by
  cases result with
  | error e => cases hresult
  | ok v' => rw [Option.some.inj hresult]

/-- What such a platform makes of a text. -/
theorem parseValue_toUtf8 (hparses : platform.ParsesWith readFloat) (t : Text) :
    (platform.parseValue (toUtf8 t)).toOption = fromStr readFloat t := by
  rw [hparses, fromUtf8_toUtf8, Option.bind_some]

/-- The failure object of an error with given details. -/
def failureObject (err : RunnerError) (details : Json) : Json :=
  .object [("backtrace".toList, .string err.backtrace), ("details".toList, details),
    ("kind".toList, .string err.kind), ("message".toList, .string err.message)]

/-- The failure envelope of an error with given details. -/
def failureEnvelope (err : RunnerError) (details : Json) : Json :=
  .object [("error".toList, failureObject err details), ("ok".toList, .bool false)]

/-- The failure envelope, with its fields in order. -/
theorem toEnvelope_eq (err : RunnerError) :
    err.toEnvelope = failureEnvelope err (err.details.getD .null) := rfl

/-- The success envelope, with its fields in order. -/
theorem successEnvelope_eq (value : Json) :
    successEnvelope value = .object [("ok".toList, .bool true), ("value".toList, value)] := rfl

/-- A failure envelope nests its details twice. -/
theorem depth_failureEnvelope (err : RunnerError) (details : Json) :
    (failureEnvelope err details).depth = details.depth + 2 := by
  simp only [failureEnvelope, failureObject, JsonTree.depth, JsonTree.depthEntries]
  omega

/-- A success envelope nests its value once. -/
theorem depth_successEnvelope (value : Json) :
    (successEnvelope value).depth = value.depth + 1 := by
  simp only [successEnvelope_eq, JsonTree.depth, JsonTree.depthEntries]
  omega

/-- In a failure envelope only the details are read anew. -/
theorem toValue_failureEnvelope {read : Number → Option Number} (err : RunnerError)
    (details : Json) :
    (failureEnvelope err details).toValue read =
      (details.toValue read).map (failureEnvelope err) := by
  simp only [failureEnvelope, failureObject, JsonTree.toValue, JsonTree.toValueEntries]
  cases details.toValue read with
  | none => rfl
  | some details => rfl

/-- In a success envelope only the value is read anew. -/
theorem toValue_successEnvelope {read : Number → Option Number} (value : Json) :
    (successEnvelope value).toValue read = (value.toValue read).map successEnvelope := by
  simp only [successEnvelope_eq, JsonTree.toValue, JsonTree.toValueEntries]
  cases value.toValue read with
  | none => rfl
  | some value => rfl

/-- The text of an emitted envelope, as the platform parses it. -/
theorem parseValue_emitLine (hparses : platform.ParsesWith readFloat) (envelope : Json) :
    (platform.parseValue (toUtf8 (emitLine envelope))).toOption =
      if envelope.depth ≤ 127 then
        envelope.toValue (JsonTree.reread (readNumber readFloat)) else none := by
  rw [parseValue_toUtf8 hparses, emitLine]
  exact envelope.fromStr_print readFloat _ (by decide)

/-- The client's reading of a success envelope: its value, read anew and decoded. -/
theorem parseEnvelope_successEnvelope {Out : Type} {fromValue : Json → Except Text Out}
    (hparses : platform.ParsesWith readFloat) {value value' : Json} (hdepth : value.depth ≤ 126)
    (hread : value.toValue (JsonTree.reread (readNumber readFloat)) = some value') :
    parseEnvelope platform fromValue (emitLine (successEnvelope value)) =
      (fromValue value').mapError .decode := by
  have hline := parseValue_emitLine hparses (successEnvelope value)
  rw [depth_successEnvelope, if_pos (by omega), toValue_successEnvelope, hread,
    Option.map_some] at hline
  rw [parseEnvelope, eq_ok_of_toOption hline]
  rfl

/-- The client does not parse a success envelope that is too deep or holds a refused
number. -/
theorem exists_error_of_rejected (hparses : platform.ParsesWith readFloat) {value : Json}
    (hrejected : 126 < value.depth ∨
      value.toValue (JsonTree.reread (readNumber readFloat)) = none) :
    ∃ message,
      platform.parseValue (toUtf8 (emitLine (successEnvelope value))) = .error message := by
  have hline := parseValue_emitLine hparses (successEnvelope value)
  have hnone : (platform.parseValue (toUtf8 (emitLine (successEnvelope value)))).toOption =
      none := by
    rw [hline, depth_successEnvelope, toValue_successEnvelope]
    rcases hrejected with hdeep | hread
    · rw [if_neg (by omega)]
    · rw [hread, Option.map_none, ite_self]
  cases hparse : platform.parseValue (toUtf8 (emitLine (successEnvelope value))) with
  | error e => exact ⟨e, rfl⟩
  | ok v =>
    rw [hparse] at hnone
    cases hnone

/-- A line that is not parsed is an error in decoding. -/
theorem parseEnvelope_of_error {Out : Type} (fromValue : Json → Except Text Out)
    {line message : Text} (hline : platform.parseValue (toUtf8 line) = .error message) :
    parseEnvelope platform fromValue line = .error (.decode message) := by
  rw [parseEnvelope, hline]

end ModalRust.Facade
