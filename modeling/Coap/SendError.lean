import Coap.CodecError
import Coap.Transport
import Coap.Uri.Basic

/-!
# Failures of sending

A message is not sent if it has no encoding, if the transport refuses it,
or if it cannot be kept track of; a request also if its URI is malformed.
-/

namespace Coap

/-- Why a message was not sent. -/
inductive SendError where
  | codec (cause : CodecError)
  | transport (cause : TransportError)
  | uri (cause : UriError)
  /-- Only confirmable messages have an outcome to be told of. -/
  | callbackRequiresConfirmable
  /-- Another message with this id has not been acknowledged yet. -/
  | messageIdInFlight (id : UInt16)
  deriving DecidableEq, Repr

/-- What is told of a failure: what its cause tells, if it has one. -/
def SendError.message : SendError → String
  | codec cause => cause.message
  | transport cause => cause.message
  | uri cause => cause.message
  | callbackRequiresConfirmable =>
      "a result callback requires a confirmable message"
  | messageIdInFlight id =>
      s!"message id {id.toNat} is still awaiting acknowledgement"

end Coap
