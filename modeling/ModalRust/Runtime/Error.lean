import ModalRust.Json

/-!
# The failure taxonomy of the runner

`RunnerError` with its five kinds, and the failure envelope that every mode of the
runner renders it into. The two other envelopes are the success envelope and the
acknowledgement of a prime frame.
-/

namespace ModalRust.Runtime

/-- The failure taxonomy of one runner call. -/
inductive RunnerError
  /-- The input was not JSON, or not of the handler's input type. -/
  | decode (message : Text)
  /-- The entrypoint is not registered. -/
  | unknownEntrypoint (message : Text)
  /-- The handler returned an error; `details` is its serialized form, if it has one. -/
  | function (message : Text) (details : Option Json)
  /-- The handler's output failed to serialize. -/
  | encode (message : Text)
  /-- The handler unwound. -/
  | panic (message backtrace : Text)

namespace RunnerError

/-- The frozen discriminant of the failure envelope. -/
def kind : RunnerError → Text
  | decode _ => "decode_error".toList
  | unknownEntrypoint _ => "unknown_entrypoint".toList
  | function _ _ => "function_error".toList
  | encode _ => "encode_error".toList
  | panic _ _ => "panic".toList

/-- The human-readable field of the failure envelope. -/
def message : RunnerError → Text
  | decode m => m
  | unknownEntrypoint m => m
  | function message _ => message
  | encode m => m
  | panic message _ => message

/-- The wrapped user error. -/
def details : RunnerError → Option Json
  | function _ details => details
  | _ => none

/-- The captured backtrace, empty unless the handler unwound. -/
def backtrace : RunnerError → Text
  | panic _ backtrace => backtrace
  | _ => []

/-- The failure envelope. -/
def toEnvelope (err : RunnerError) : Json :=
  .json [("ok".toList, .bool false),
    ("error".toList, .json [("kind".toList, .string err.kind),
      ("message".toList, .string err.message), ("details".toList, err.details.getD .null),
      ("backtrace".toList, .string err.backtrace)])]

/-- The `Display` rendering. -/
def display (err : RunnerError) : Text := err.kind ++ ": ".toList ++ err.message

end RunnerError

/-- The success envelope of a handler's value. -/
def successEnvelope (value : Json) : Json :=
  .json [("ok".toList, .bool true), ("value".toList, value)]

/-- The acknowledgement of a prime frame. -/
def primeAck (primed failed : ℕ) (errors : List Text) : Json :=
  .json [("primed".toList, .number (.posInt (.ofNat primed))),
    ("failed".toList, .number (.posInt (.ofNat failed))),
    ("errors".toList, .array (errors.map .string))]

/-- What one request or prime frame is answered with. -/
inductive IsEnvelope : Json → Prop
  /-- A handler's value. -/
  | success (value : Json) : IsEnvelope (successEnvelope value)
  /-- A failure of one of the five kinds. -/
  | failure (err : RunnerError) : IsEnvelope err.toEnvelope
  /-- The outcome of the primes. -/
  | primed (primed failed : ℕ) (errors : List Text) : IsEnvelope (primeAck primed failed errors)

/-- The failure kind that a reader finds in an envelope. -/
def errorKind (envelope : Json) : Option Text :=
  ((envelope.get "error".toList).bind (Json.get "kind".toList)).bind Json.asStr

/-- A failure envelope carries the kind of its error. -/
theorem errorKind_toEnvelope (err : RunnerError) : errorKind err.toEnvelope = some err.kind := rfl

/-- A success envelope carries no failure kind. -/
theorem errorKind_successEnvelope (value : Json) : errorKind (successEnvelope value) = none := rfl

end ModalRust.Runtime
