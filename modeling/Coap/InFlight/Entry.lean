import Coap.InFlight.Timer
import Coap.Net.SocketAddress
import Coap.Transport

/-!
# Messages in flight

A confirmable message is in flight until it is acknowledged or rejected,
until it cannot be sent, or until it has been sent often enough. Its entry
holds what is needed to send it again, and a ticket if somebody wants to
know how it ends: the outcome is then told in a notification that carries
the ticket.

## Main results

* `transmissions_retransmitted` — sending again counts one transmission
  more.
* `notify_eq_none` — exactly an entry without a ticket notifies nobody.
-/

namespace Coap

/-- How a confirmable message ended. -/
inductive Outcome where
  /-- A matching acknowledgement arrived. -/
  | acknowledged
  /-- The peer rejected the message. -/
  | rejected
  /-- The transport refused to send it. -/
  | failed (cause : TransportError)
  /-- It was sent as often as allowed. -/
  | retriesExhausted
  deriving DecidableEq, Repr

/-- Whether a message has arrived for sure. -/
def Outcome.isSuccess (o : Outcome) : Bool := o == .acknowledged

/-- What somebody who waits for an outcome knows it by. -/
abbrev Ticket := Nat

/-- An outcome, told to the holder of a ticket. -/
structure Notification where
  ticket : Ticket
  /-- The id of the message that ended. -/
  id : UInt16
  outcome : Outcome
  deriving DecidableEq, Repr

/-- A confirmable message that awaits its acknowledgement. -/
structure Entry where
  id : UInt16
  destination : SocketAddress
  /-- The message as it was sent, to be sent again unchanged. -/
  message : Bytes
  /-- The ticket of whoever waits for the outcome. -/
  ticket : Option Ticket
  /-- How often the message has been sent. -/
  transmissions : UInt16
  timer : Timer
  deriving DecidableEq

namespace Entry

/-- The entry of a message that is about to be sent for the first time. -/
def new (id : UInt16) (destination : SocketAddress) (message : Bytes)
    (ticket : Option Ticket) (now : Instant) (timeout : Duration) : Entry :=
  ⟨id, destination, message, ticket, 1, ⟨now, timeout⟩⟩

/-- One more than a count of transmissions, up to the largest count. -/
def countUp (n : UInt16) : UInt16 := if n.toNat < 65535 then n + 1 else n

/-- The entry after its message was sent again. -/
def retransmitted (e : Entry) (now : Instant) : Entry :=
  { e with
    transmissions := countUp e.transmissions
    timer := e.timer.backoff now }

/-- Who is told that a message ended, and how. -/
def notify (e : Entry) (outcome : Outcome) : Option Notification :=
  e.ticket.map fun ticket => ⟨ticket, e.id, outcome⟩

theorem transmissions_retransmitted {e : Entry} {now : Instant}
    (h : e.transmissions.toNat < 65535) :
    (e.retransmitted now).transmissions.toNat = e.transmissions.toNat + 1 := by
  have : (1 : UInt16).toNat = 1 := rfl
  simp only [retransmitted, countUp, h, if_true, UInt16.toNat_add, this]
  omega

theorem notify_eq_none {e : Entry} {outcome : Outcome} :
    e.notify outcome = none ↔ e.ticket = none := by
  simp [notify]

/-- An entry up to its timer, each part with its name. -/
def listing (e : Entry) : String :=
  let callback := if e.ticket.isSome then "true" else "false"
  s!"RetransmissionEntry \x7b message_id: {e.id.toNat}, " ++
    s!"destination: {e.destination.text}, " ++
    s!"message_len: {e.message.length}, has_callback: {callback}, " ++
    s!"retry_count: {e.transmissions.toNat}"

end Entry

end Coap
