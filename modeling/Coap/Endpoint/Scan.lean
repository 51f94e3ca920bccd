import Coap.Endpoint.Receive

/-!
# Sending messages again

A scan goes over the messages whose timers have run out, in the order they
were first sent. One that has been sent often enough is given up on; any
other is sent again, which doubles its timeout, or given up on if it cannot
be sent. The messages in flight are locked from the first look at them to
the last change, so an acknowledgement either comes before a whole scan or
after it. Those who wait for the outcome of a message that was given up on
are told when the lock is free again.
-/

namespace Coap.Call

/-- A message taken out of flight, with its outcome. -/
abbrev Finished := Entry × Outcome

/-- Take a message out of flight. -/
def finish (id : UInt16) (outcome : Outcome) : Call (List Finished) := do
  let entry ← perform (·.dequeue id)
  return (entry.map (·, outcome)).toList

/-- Send a message again, or give up on it. -/
def retry (now : Instant) (entry : Entry) : Call (List Finished) := do
  let e ← endpoint
  if e.config.transmission.maxRetransmit < entry.transmissions then
    finish entry.id .retriesExhausted
  else
    match ← sendDatagram entry.destination entry.message with
    | .ok () =>
        modify (·.noteRetransmission entry.id now)
        return []
    | .error cause => finish entry.id (.failed cause)

/-- Go over the messages with the given ids and tell which have ended. -/
def scan (now : Instant) : List UInt16 → Call (List Finished)
  | [] => return []
  | id :: rest => do
      let e ← endpoint
      let first ←
        match e.inFlight.get? id with
        | some entry => retry now entry
        | none => pure []
      let others ← scan now rest
      return first ++ others

/-- Go over all messages whose timers have run out. -/
def checkQueues : Call Unit := do
  let finished ← locked .inFlight do
    let now ← time
    let e ← endpoint
    let due ← ofOption (e.inFlight.expiredIds? now)
    scan now due
  notifyAll (finished.filterMap fun (entry, outcome) => entry.notify outcome)

/-- Receive a message, then look for messages to be sent again. -/
def poll : Call (Except TransportError (Option Message)) := do
  let received ← receiveNext
  checkQueues
  return received

/-- One round of receiving in the background: a message that comes is given
to the handler, then messages are sent again. The value tells whether there
may be another round, which there may unless the socket is gone. -/
def receiveRound (handler : Message → Call Unit) : Call Bool := do
  match ← receiveNext with
  | .error .closed => return false
  | .error _ =>
      checkQueues
      return true
  | .ok none =>
      checkQueues
      return true
  | .ok (some m) =>
      report (.delivered m)
      handler m
      checkQueues
      return true

end Coap.Call
