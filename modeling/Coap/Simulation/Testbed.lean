import Coap.Simulation.Script

/-!
# The testbed of a simulation

One endpoint with its scripts, a clock that only the simulation moves, and
the locks that calls on the endpoint take. Up to two calls are under way:
one of the caller's and the receive loop's. All that can be seen of them
from outside is kept in a log.

A lock is held by the first of those who asked for it, until it gives the
lock back; then the next one holds it.

## Main results

* `holds_enter` — a lock that nobody holds is held by whoever asks for it.
* `holds_leave` — a lock that is given back goes to the next one.
* `now_le_deadline` — no deadline is in the past.
-/

namespace Coap.Simulation

/-- Who carries out a call. -/
inductive Party where
  | caller
  | loop
  deriving DecidableEq, Repr

/-- What is seen from outside. -/
inductive Record where
  /-- A call told an event. -/
  | told (event : Event)
  /-- The socket is given a datagram to send. -/
  | sending (destination : SocketAddress) (datagram : Bytes)
      (outcome : SendOutcome)
  /-- A datagram was sent that was not sent at once. -/
  | sent

/-- The testbed of a simulation. -/
structure Testbed where
  endpoint : Endpoint
  /-- The time. -/
  now : Nat
  words : Supply UInt32
  fractions : Supply Float
  /-- What becomes of the next datagrams; further ones are sent at once. -/
  outcomes : List SendOutcome
  /-- What is received next, in this order. -/
  arrivals : List Arrival
  /-- The socket's own address. -/
  localAddress : Except Failure SocketAddress
  /-- Who has asked for the messages in flight, the holder first. -/
  inFlightQueue : List Party
  /-- Who has asked for the read buffer, the holder first. -/
  readBufferQueue : List Party
  /-- What has been seen so far. -/
  log : List Record

namespace Testbed

/-! ## Time -/

/-- The clock reading of a time. -/
def reading (time : Nat) : Instant := ⟨time * 1000000⟩

theorem nanos_reading (time : Nat) : (reading time).nanos = time * 1000000 := rfl

/-- How long a wait lasts that has no end: thirty years. -/
def forever : Nat := 30 * 365 * 86400 * 1000

/-- The time of a clock reading, or the next one. -/
def timeOf (t : Instant) : Nat := (t.nanos + 999999) / 1000000

/-- The time at which a timeout that starts at a time has passed, on a
clock that ticks once a millisecond. -/
def deadline (time : Nat) (timeout : Duration) : Nat :=
  (((reading time).add? timeout).map timeOf).getD (time + forever)

theorem le_timeOf {time : Nat} {timeout : Duration} {t : Instant}
    (h : (reading time).add? timeout = some t) : time ≤ timeOf t := by
  have hn := (Instant.nanos_add? h).1
  rw [nanos_reading] at hn
  rw [timeOf, hn, Nat.le_div_iff_mul_le (by decide), Nat.add_assoc]
  exact Nat.le_add_right ..

private theorem le_getD {o : Option Nat} {a d : Nat}
    (h : ∀ b, o = some b → a ≤ b) (hd : a ≤ d) : a ≤ o.getD d := by
  cases o with
  | none => exact hd
  | some b => exact h b rfl

theorem now_le_deadline (time : Nat) (timeout : Duration) :
    time ≤ deadline time timeout := by
  unfold deadline
  refine le_getD (fun b hb => ?_) (Nat.le_add_right ..)
  obtain ⟨t, ht, rfl⟩ := Option.map_eq_some_iff.1 hb
  exact le_timeOf ht

/-- Move the clock forward. -/
def moveTo (tb : Testbed) (time : Nat) : Testbed := { tb with now := max tb.now time }

/-! ## Locks -/

/-- Who has asked for a lock, the holder first. -/
def queue (tb : Testbed) : Lock → List Party
  | .inFlight => tb.inFlightQueue
  | .readBuffer => tb.readBufferQueue

/-- The testbed with another queue for a lock. -/
def withQueue (tb : Testbed) (lock : Lock) (q : List Party) : Testbed :=
  match lock with
  | .inFlight => { tb with inFlightQueue := q }
  | .readBuffer => { tb with readBufferQueue := q }

@[simp] theorem queue_withQueue (tb : Testbed) (lock : Lock) (q : List Party) :
    (tb.withQueue lock q).queue lock = q := by
  cases lock <;> rfl

@[simp] theorem now_withQueue (tb : Testbed) (lock : Lock) (q : List Party) :
    (tb.withQueue lock q).now = tb.now := by
  cases lock <;> rfl

@[simp] theorem log_withQueue (tb : Testbed) (lock : Lock) (q : List Party) :
    (tb.withQueue lock q).log = tb.log := by
  cases lock <;> rfl

/-- Ask for a lock. -/
def enter (tb : Testbed) (lock : Lock) (who : Party) : Testbed :=
  tb.withQueue lock (tb.queue lock ++ [who])

/-- Whether a lock is held by the given party. -/
def holds (tb : Testbed) (lock : Lock) (who : Party) : Bool :=
  (tb.queue lock).head? == some who

/-- Give a lock back. -/
def leave (tb : Testbed) (lock : Lock) : Testbed :=
  tb.withQueue lock (tb.queue lock).tail

/-- Give back all locks of a party, and ask for none any more. -/
def abandon (tb : Testbed) (who : Party) : Testbed :=
  { tb with
    inFlightQueue := tb.inFlightQueue.filter fun p => p != who
    readBufferQueue := tb.readBufferQueue.filter fun p => p != who }

theorem holds_enter {tb : Testbed} {lock : Lock} {who : Party}
    (h : tb.queue lock = []) : (tb.enter lock who).holds lock who = true := by
  simp [enter, holds, h]

theorem holds_leave {tb : Testbed} {lock : Lock} {a b : Party}
    {rest : List Party} (h : tb.queue lock = a :: b :: rest) :
    (tb.leave lock).holds lock b = true := by
  simp [leave, holds, h]

/-! ## Scripts and log -/

/-- Add to the log. -/
def note (tb : Testbed) (r : Record) : Testbed := { tb with log := tb.log ++ [r] }

/-- Draw a random word. -/
def drawWord (tb : Testbed) : UInt32 × Testbed :=
  (tb.words.draw.1, { tb with words := tb.words.draw.2 })

/-- Draw a random fraction. -/
def drawFraction (tb : Testbed) : Float × Testbed :=
  (tb.fractions.draw.1, { tb with fractions := tb.fractions.draw.2 })

/-- What becomes of the next datagram. -/
def nextOutcome (tb : Testbed) : SendOutcome := tb.outcomes.headD .ok

/-- Give the socket a datagram to send. -/
def startSending (tb : Testbed) (destination : SocketAddress) (datagram : Bytes) :
    Testbed :=
  { tb.note (.sending destination datagram tb.nextOutcome) with
    outcomes := tb.outcomes.tail }

end Testbed

end Coap.Simulation
