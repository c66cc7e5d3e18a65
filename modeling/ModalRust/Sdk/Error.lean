import ModalRust.Text

/-!
# SDK errors

The error type of the control-plane client and the test that decides whether an
RPC is sent again.
-/

namespace ModalRust.Sdk

/-- The gRPC status codes. -/
inductive Code
  | ok | cancelled | unknown | invalidArgument | deadlineExceeded | notFound | alreadyExists
  | permissionDenied | resourceExhausted | failedPrecondition | aborted | outOfRange
  | unimplemented | internal | unavailable | dataLoss | unauthenticated
  deriving DecidableEq, Repr

/-- The error type of `modal-rust-sdk` operations. -/
inductive Error
  /-- Credential or config-file resolution failure. -/
  | config (msg : Text)
  /-- Channel, TLS or connection establishment failure. -/
  | transport (msg : Text)
  /-- A call returned a non-OK status. -/
  | status (code : Code) (message : Text)
  /-- Input that was rejected on the client side. -/
  | invalid (msg : Text)
  /-- Payload encode or decode failure. -/
  | codec (msg : Text)
  /-- A remote operation terminated with a failure result. -/
  | build (msg : Text)
  /-- The client-side poll deadline expired. -/
  | deadline (msg : Text)
  deriving DecidableEq

/-- The status codes on which a request is sent again whatever the message. -/
def Code.isTransient : Code → Bool
  | .unavailable | .deadlineExceeded | .resourceExhausted | .internal | .unknown => true
  | _ => false

/-- The message fragments that betray a transport reset under another code. -/
def resetFragments : List Text :=
  ["connection reset", "connectionreset", "error reading a body", "h2 protocol error",
    "broken pipe", "transport error", "socket connection closed", "goaway",
    "connection closed"].map String.toList

/-- Whether a call that failed with this error is sent again. -/
def Error.isTransient : Error → Bool
  | .transport _ => true
  | .status code message =>
    if code.isTransient then true
    else resetFragments.any fun fragment => containsText fragment (message.map Char.toLower)
  | _ => false

/-- A connection reset while waiting for the response, as tonic reports it. -/
def connectionReset : Error := .status .unavailable "connection reset".toList

/-- A mid-stream reset is recognised by its message under any code. -/
example : (Error.status .aborted "H2 protocol error: ...".toList).isTransient = true := by
  decide

/-- A failure result of the remote side is final. -/
example : (Error.build "connection reset".toList).isTransient = false := by decide

end ModalRust.Sdk
