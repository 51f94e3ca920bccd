import Coap.Config
import Coap.InFlight.Queue
import Coap.Message.Wire

/-!
# The state of an endpoint

An endpoint counts message ids, keeps track of the confirmable messages in
flight, and has one buffer to read datagrams into and one to write messages
into. The functions here are the steps that calls on an endpoint are made
of: each happens at once, with nothing else in between.

The read buffer is one byte larger than the datagrams that are accepted, so
a datagram that fills it is known to have been too long. A datagram can be
received only into what is in view of it: the buffer is opened before every wait.

## Main results

* `takeId_ne_zero` — no message gets the id 0.
* `accept_snd` — the message that is read from a datagram depends on how much of
  the read buffer was in view, but not on what the buffer held.
-/

namespace Coap

/-- The state of an endpoint. -/
structure Endpoint where
  config : Config
  /-- The next message id, unless it is 0. -/
  counter : UInt16
  inFlight : InFlight
  readBuffer : Buffer
  writeBuffer : Buffer

namespace Endpoint

/-- An endpoint that has not sent or received anything. Its message ids
start from the lower half of a random word. -/
def new (config : Config) (random : UInt32) : Except ConfigError Endpoint :=
  match config.validate with
  | .error e => .error e
  | .ok () =>
      .ok
        { config
          counter := UInt16.ofNat random.toNat
          inFlight := .empty
          readBuffer := .new (config.readBufferSize + 1)
          writeBuffer := .new config.writeBufferSize }

/-! ## Ids and tokens -/

/-- The next message id. Ids wrap around and leave out 0. -/
def takeId (e : Endpoint) : Endpoint × UInt16 :=
  if e.counter = 0 then ({ e with counter := 2 }, 1)
  else ({ e with counter := e.counter + 1 }, e.counter)

theorem takeId_ne_zero (e : Endpoint) : e.takeId.2 ≠ 0 := by
  unfold takeId
  split
  · exact (by decide : (1 : UInt16) ≠ 0)
  · assumption

theorem inFlight_takeId (e : Endpoint) : e.takeId.1.inFlight = e.inFlight := by
  unfold takeId
  split <;> rfl

/-- The token of the request with the given id. -/
def tokenFor (id : UInt16) (random : UInt32) : Token :=
  .generate id.toUInt32 .two random

/-! ## Steps of sending -/

/-- Write a message into the write buffer and tell its bytes. -/
def serialize (e : Endpoint) (m : Message) :
    Endpoint × Except CodecError Bytes :=
  let (buf, written) := m.write e.writeBuffer.clear
  ({ e with writeBuffer := buf }, written.map fun _ => buf.contents)

/-- Keep track of a confirmable message that is about to be sent. -/
def enqueue (e : Endpoint) (id : UInt16) (destination : SocketAddress)
    (message : Bytes) (ticket : Option Ticket) (now : Instant)
    (timeout : Duration) : Endpoint × Except SendError Unit :=
  match e.inFlight.add id destination message ticket now timeout with
  | .ok q => ({ e with inFlight := q }, .ok ())
  | .error err => (e, .error err)

/-- Take the message with the given id out of flight. -/
def dequeue (e : Endpoint) (id : UInt16) : Endpoint × Option Entry :=
  let (entry, q) := e.inFlight.remove id
  ({ e with inFlight := q }, entry)

/-- Note that the message with the given id was sent again. -/
def noteRetransmission (e : Endpoint) (id : UInt16) (now : Instant) : Endpoint :=
  { e with inFlight := e.inFlight.update id fun entry => entry.retransmitted now }

/-! ## Steps of receiving -/

/-- Make the read buffer ready for a datagram, and tell how many of its bytes are
then in view. These are what the datagram is received into. -/
def openReadBuffer (e : Endpoint) : Endpoint × Nat :=
  let buf := e.readBuffer.maximize
  ({ e with readBuffer := buf }, buf.length)

/-- An opened buffer is in view as a whole, wherever its mark was left. -/
theorem snd_openReadBuffer (e : Endpoint) :
    e.openReadBuffer.2 = e.readBuffer.capacity :=
  rfl

/-- The message in a datagram, unless it is malformed or of another
version. -/
def messageOf (datagram : Bytes) (sender : SocketAddress) : Option Message :=
  match Message.read datagram with
  | .error _ => none
  | .ok m =>
      if m.header.version = Header.version1 then some (m.withSender sender)
      else none

/-- Receive a datagram into the first `exposed` bytes of the read buffer and tell
the message in it, unless the datagram was too long. -/
def accept (e : Endpoint) (exposed : Nat) (datagram : Bytes)
    (sender : SocketAddress) : Endpoint × Option Message :=
  let buf := e.readBuffer.fill exposed datagram
  ({ e with readBuffer := buf },
    if buf.length = buf.capacity then none else messageOf buf.contents sender)

/-- The message that is read depends on the datagram, on how much of the buffer it
was received into, and on the size of the buffer alone. -/
theorem accept_snd (e : Endpoint) (exposed : Nat) (datagram : Bytes)
    (sender : SocketAddress) :
    (e.accept exposed datagram sender).2 =
      if e.readBuffer.capacity ≤ min exposed datagram.length then none
      else messageOf (datagram.take exposed) sender := by
  have hl : (e.readBuffer.fill exposed datagram).length =
      min (min exposed e.readBuffer.capacity) datagram.length := by
    simp [Buffer.fill]
  simp only [accept, Buffer.capacity_fill, Buffer.contents_fill, hl]
  by_cases h : e.readBuffer.capacity ≤ min exposed datagram.length
  · rw [if_pos (by omega), if_pos h]
  · rw [if_neg (by omega), if_neg h]
    -- a datagram that is cut at the capacity is one that fills the buffer
    by_cases hexposed : exposed ≤ e.readBuffer.capacity
    · rw [Nat.min_eq_left hexposed]
    · rw [List.take_of_length_le (by omega), List.take_of_length_le (by omega)]

/-- A datagram that was received into all of the buffer is read whole. -/
theorem accept_snd_capacity (e : Endpoint) (datagram : Bytes)
    (sender : SocketAddress) :
    (e.accept e.readBuffer.capacity datagram sender).2 =
      if e.readBuffer.capacity ≤ datagram.length then none
      else messageOf datagram sender := by
  rw [accept_snd]
  by_cases h : e.readBuffer.capacity ≤ datagram.length
  · rw [if_pos (by omega), if_pos h]
  · rw [if_neg (by omega), if_neg h, List.take_of_length_le (by omega)]

/-- How an acknowledgement or a rejection ends the message it answers. -/
def outcomeOf (answer : Message) : Outcome :=
  if answer.isAck then .acknowledged else .rejected

end Endpoint

end Coap
