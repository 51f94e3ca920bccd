import Coap.Endpoint.Call
import Coap.Uri.Options

/-!
# Sending messages and requests

A confirmable message is put in flight before it is sent for the first
time. If that sending fails the message is not tried again: it is taken out
of flight, the holder of its ticket is told, and so is the caller.

A request is a message made from a URI: its options name the resource, its
token starts with its id.
-/

namespace Coap.Call

/-- Send a message that is not tracked. -/
def sendOnce (destination : SocketAddress) (datagram : Bytes) :
    Call (Except SendError Unit) := do
  let sent ← sendDatagram destination datagram
  return sent.mapError .transport

/-- Take a message out of flight whose first sending failed. -/
def giveUp (id : UInt16) (cause : TransportError) :
    Call (Except SendError Unit) := do
  let entry ← locked .inFlight (perform (·.dequeue id))
  notify (entry.bind (·.notify (.failed cause)))
  return .error (.transport cause)

/-- Send a message that is tracked until it is acknowledged. -/
def sendTracked (destination : SocketAddress) (id : UInt16) (datagram : Bytes)
    (ticket : Option Ticket) : Call (Except SendError Unit) := do
  let fraction ← fraction
  let e ← endpoint
  let timeout ← ofOption (e.config.transmission.initialTimeout? fraction)
  let queued ← locked .inFlight do
    let now ← time
    perform (·.enqueue id destination datagram ticket now timeout)
  match queued with
  | .error err => return .error err
  | .ok () =>
      match ← sendDatagram destination datagram with
      | .ok () => return .ok ()
      | .error cause => giveUp id cause

/-- Send a message. Only a confirmable one may have a ticket. -/
def send (destination : SocketAddress) (m : Message) (ticket : Option Ticket) :
    Call (Except SendError Unit) := do
  if ticket.isSome && !m.isConfirmable then
    return .error .callbackRequiresConfirmable
  match ← perform (·.serialize m) with
  | .error err => return .error (.codec err)
  | .ok datagram =>
      if m.isConfirmable then sendTracked destination m.id datagram ticket
      else sendOnce destination datagram

/-- Send an empty acknowledgement. -/
def ack (destination : SocketAddress) (token : Token) (id : UInt16) :
    Call (Except SendError Unit) :=
  send destination (.ack token id) none

/-- Reject a message. -/
def reset (destination : SocketAddress) (id : UInt16) :
    Call (Except SendError Unit) :=
  send destination (.reset id) none

end Coap.Call

namespace Coap

/-- What a request asks for. -/
structure Request where
  method : Method
  destination : SocketAddress
  /-- Whether the request is to be acknowledged. -/
  confirmable : Bool
  uri : String
  /-- Options besides those that name the resource. -/
  extra : Options
  /-- The payload, for the methods that have one. -/
  payload : Option Bytes
  ticket : Option Ticket

namespace Request

/-- The message type of a request. -/
def type (r : Request) : MessageType :=
  if r.confirmable then .confirmable else .nonConfirmable

/-- The payload that is sent: there is none with a method that only names a
resource. -/
def body (r : Request) : Option Bytes :=
  match r.method with
  | .get => none
  | .delete => none
  | .post => r.payload
  | .put => r.payload

/-- The message of a request. -/
def message (r : Request) (u : Uri) (id : UInt16) (random : UInt32) : Message :=
  .new r.type r.method.code id (Endpoint.tokenFor id random)
    ((u.options (some r.destination)).merge r.extra) r.body

end Request

/-- Send a request and tell its id. -/
def Call.request (r : Request) : Call (Except SendError UInt16) := do
  match Uri.ofText r.uri with
  | .error err => return .error (.uri err)
  | .ok u =>
      let id ← perform Endpoint.takeId
      let random ← word
      let sent ← send r.destination (r.message u id random) r.ticket
      return sent.map fun () => id

end Coap
