import Coap.Endpoint.Basic

/-!
# Calls on an endpoint

Several calls on one endpoint may be under way at a time. A `Call` is such
a call written down as the actions it takes, one after the other: it changes
the endpoint's state, asks for the time or for a random number, tells an
event, and there are three actions at which it may have to wait: taking a
lock, having a datagram sent, and having one received. Looking at the state
is a change that leaves it as it is.

So a call says nothing of who else is at work or how long anything takes.
Whoever carries calls out decides that: one call by itself, or many with
their actions interleaved in any order. Each action happens at once, so no
change that one call makes can undo one that another call has made.

## Main results

* `bind_done`, `bind_assoc` — calls can be put together from smaller ones in
  any grouping.
-/

namespace Coap

/-- What only one call at a time may use. -/
inductive Lock where
  /-- The messages in flight. -/
  | inFlight
  /-- The read buffer. -/
  | readBuffer
  deriving DecidableEq, Repr

/-- What a call tells of itself while it is under way. -/
inductive Event where
  /-- The holder of a ticket is told an outcome. -/
  | notified (n : Notification)
  /-- A message is given to the message handler. -/
  | delivered (m : Message)
  /-- The message handler could not send its reply. -/
  | replyFailed (cause : SendError)

/-- A datagram with its sender, if one came in time. -/
abbrev Reception := Option (Bytes × SocketAddress)

/-- A call on an endpoint, as the actions it takes. -/
inductive Call (α : Type) : Type where
  /-- The call is over. -/
  | done (value : α)
  /-- The call breaks off: it came upon a time that cannot be told. -/
  | fault
  /-- Change the state at once and go on with what it was before. -/
  | update (change : Endpoint → Endpoint) (next : Endpoint → Call α)
  /-- Read the clock. -/
  | askTime (next : Instant → Call α)
  /-- Draw a random word. -/
  | askWord (next : UInt32 → Call α)
  /-- Draw a random fraction between 0 and 1. -/
  | askFraction (next : Float → Call α)
  /-- Tell an event. -/
  | tell (event : Event) (next : Call α)
  /-- Take a lock, waiting until it is free. -/
  | acquire (lock : Lock) (next : Call α)
  /-- Give a lock back. -/
  | release (lock : Lock) (next : Call α)
  /-- Have a datagram sent, at most for the configured send timeout. -/
  | transmit (destination : SocketAddress) (datagram : Bytes)
      (next : Except TransportError Unit → Call α)
  /-- Wait for a datagram, at most for the configured receive timeout. -/
  | receive (next : Except TransportError Reception → Call α)

namespace Call

variable {α β γ : Type}

/-! ## Putting calls together -/

/-- A call, then another one that depends on its value. -/
def bind : Call α → (α → Call β) → Call β
  | done a, f => f a
  | fault, _ => fault
  | update change next, f => update change fun e => (next e).bind f
  | askTime next, f => askTime fun t => (next t).bind f
  | askWord next, f => askWord fun w => (next w).bind f
  | askFraction next, f => askFraction fun x => (next x).bind f
  | tell event next, f => tell event (next.bind f)
  | acquire lock next, f => acquire lock (next.bind f)
  | release lock next, f => release lock (next.bind f)
  | transmit destination datagram next, f =>
      transmit destination datagram fun r => (next r).bind f
  | receive next, f => receive fun r => (next r).bind f

instance : Monad Call where
  pure := done
  bind := bind

@[simp] theorem bind_done (c : Call α) : c.bind done = c := by
  induction c with
  | done | fault => rfl
  | update _ _ ih | askTime _ ih | askWord _ ih | askFraction _ ih
  | transmit _ _ _ ih | receive _ ih =>
    simp only [bind, ih]
  | tell _ _ ih | acquire _ _ ih | release _ _ ih =>
    simp only [bind, ih]

theorem bind_assoc (c : Call α) (f : α → Call β) (g : β → Call γ) :
    (c.bind f).bind g = c.bind fun a => (f a).bind g := by
  induction c with
  | done | fault => rfl
  | update _ _ ih | askTime _ ih | askWord _ ih | askFraction _ ih
  | transmit _ _ _ ih | receive _ ih =>
    simp only [bind, ih]
  | tell _ _ ih | acquire _ _ ih | release _ _ ih =>
    simp only [bind, ih]

/-! ## Single actions -/

/-- The state. -/
def endpoint : Call Endpoint := update id done

/-- Take one step on the state. -/
def perform (step : Endpoint → Endpoint × α) : Call α :=
  update (fun e => (step e).1) fun e => done (step e).2

/-- Change the state. -/
def modify (change : Endpoint → Endpoint) : Call Unit :=
  update change fun _ => done ()

/-- The time. -/
def time : Call Instant := askTime done

/-- A random word. -/
def word : Call UInt32 := askWord done

/-- A random fraction. -/
def fraction : Call Float := askFraction done

/-- Tell an event. -/
def report (event : Event) : Call Unit := tell event (done ())

/-- Tell the holder of a ticket, if there is one. -/
def notify (n : Option Notification) : Call Unit :=
  match n with
  | some n => report (.notified n)
  | none => done ()

/-- Tell all holders of tickets, in order. -/
def notifyAll : List Notification → Call Unit
  | [] => done ()
  | n :: rest => tell (.notified n) (notifyAll rest)

/-- Send a datagram. -/
def sendDatagram (destination : SocketAddress) (datagram : Bytes) :
    Call (Except TransportError Unit) :=
  transmit destination datagram done

/-- Receive a datagram. -/
def nextDatagram : Call (Except TransportError Reception) := receive done

/-- A value that a time computation may not have. -/
def ofOption : Option α → Call α
  | some a => done a
  | none => fault

/-- A call under a lock. -/
def locked (lock : Lock) (c : Call α) : Call α :=
  acquire lock (c.bind fun a => release lock (done a))

end Call

end Coap
