import Coap.Endpoint.Call

/-!
# Receiving messages

A receive waits for one datagram. Malformed datagrams are noise: they are
dropped as if nothing had come. An acknowledgement or rejection takes the
message it answers out of flight, and the holder of that message's ticket is
told, before the receive returns it.
-/

namespace Coap.Call

/-- Take the message out of flight that an acknowledgement or rejection
answers. -/
def settle (answer : Message) : Call Unit := do
  let entry ← locked .inFlight (perform (·.dequeue answer.id))
  notify (entry.bind (·.notify (Endpoint.outcomeOf answer)))

/-- Wait for a datagram and read the message in it. What the datagram can be
written to is settled before the wait begins. -/
def receiveMessage : Call (Except TransportError (Option Message)) :=
  locked .readBuffer do
    let exposed ← perform (·.openReadBuffer)
    match ← nextDatagram with
    | .error cause => return .error cause
    | .ok none => return .ok none
    | .ok (some (datagram, sender)) =>
        let m ← perform (·.accept exposed datagram sender)
        return .ok m

/-- Receive a message, if one comes in time. -/
def receiveNext : Call (Except TransportError (Option Message)) := do
  match ← receiveMessage with
  | .error cause => return .error cause
  | .ok none => return .ok none
  | .ok (some m) =>
      if m.isAck || m.isReset then settle m
      return .ok (some m)

end Coap.Call
