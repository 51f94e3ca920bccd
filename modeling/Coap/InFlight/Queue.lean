import Coap.InFlight.Entry
import Coap.SendError

/-!
# All messages in flight

The entries are kept under sequence numbers that grow with every entry
added, so their order is the order in which the messages were first sent;
an index finds the sequence number of a message id. `toList` is the view
that every operation is understood by: the entries in order, no two with
one id.

The questions about time look at the timers one after the other, and have
no answer if they come across one whose deadline is no clock reading.

## Main results

* `toList_add`, `toList_empty` — entries are added at the end.
* `add_eq_error` — exactly the ids in the index are refused.
-/

namespace Coap

/-- The messages in flight, in the order they were first sent. -/
structure InFlight where
  /-- The entries by sequence number, in ascending order of the numbers. -/
  entries : List (Nat × Entry)
  /-- The sequence number of every message id in flight. -/
  index : List (UInt16 × Nat)
  /-- The next sequence number. -/
  nextSeq : Nat
  deriving DecidableEq

namespace InFlight

/-- No messages. -/
def empty : InFlight := ⟨[], [], 0⟩

/-! ## Views -/

/-- The entries in order. -/
def toList (q : InFlight) : List Entry := q.entries.map (·.2)

/-- The number of messages. -/
def size (q : InFlight) : Nat := q.entries.length

/-- Whether there is no message. -/
def isEmpty (q : InFlight) : Bool := q.entries.isEmpty

/-- Whether a message with the given id is in flight. -/
def contains (q : InFlight) (id : UInt16) : Bool := (q.index.lookup id).isSome

/-- The entry of the message with the given id. -/
def get? (q : InFlight) (id : UInt16) : Option Entry :=
  (q.index.lookup id).bind fun seq => q.entries.lookup seq

@[simp] theorem toList_empty : empty.toList = [] := rfl

/-! ## Changes -/

/-- Add a message that is about to be sent for the first time. -/
def add (q : InFlight) (id : UInt16) (destination : SocketAddress)
    (message : Bytes) (ticket : Option Ticket) (now : Instant)
    (timeout : Duration) : Except SendError InFlight :=
  if q.contains id then .error (.messageIdInFlight id)
  else
    .ok
      { entries :=
          q.entries ++
            [(q.nextSeq, .new id destination message ticket now timeout)]
        index := (id, q.nextSeq) :: q.index
        nextSeq := q.nextSeq + 1 }

/-- Change the entry of the message with the given id. -/
def update (q : InFlight) (id : UInt16) (f : Entry → Entry) : InFlight :=
  match q.index.lookup id with
  | some seq =>
      { q with
        entries := q.entries.map fun p => if p.1 == seq then (p.1, f p.2) else p }
  | none => q

/-- Take the message with the given id out. -/
def remove (q : InFlight) (id : UInt16) : Option Entry × InFlight :=
  match q.index.lookup id with
  | some seq =>
      (q.entries.lookup seq,
        { q with
          entries := q.entries.filter fun p => p.1 != seq
          index := q.index.filter fun p => p.1 != id })
  | none => (none, q)

theorem add_eq_error {q : InFlight} {id : UInt16} {destination : SocketAddress}
    {message : Bytes} {ticket : Option Ticket} {now : Instant}
    {timeout : Duration} {e : SendError} :
    q.add id destination message ticket now timeout = .error e ↔
      q.contains id = true ∧ e = .messageIdInFlight id := by
  unfold add
  split
  · next h => simp [h, eq_comm]
  · next h => simp [h]

/-- A message that is added is the last one. -/
theorem toList_add {q q' : InFlight} {id : UInt16}
    {destination : SocketAddress} {message : Bytes} {ticket : Option Ticket}
    {now : Instant} {timeout : Duration}
    (h : q.add id destination message ticket now timeout = .ok q') :
    q'.toList =
      q.toList ++ [.new id destination message ticket now timeout] := by
  unfold add at h
  split at h
  · contradiction
  · cases h; simp [toList]

/-! ## Questions about time -/

/-- The entries whose timers have run out, in order. -/
def expiredEntries? (now : Instant) : List Entry → Option (List Entry)
  | [] => some []
  | e :: rest =>
      match e.timer.isExpired? now with
      | none => none
      | some true => (expiredEntries? now rest).map (e :: ·)
      | some false => expiredEntries? now rest

/-- The first entry whose timer has run out. -/
def firstExpired? (now : Instant) : List Entry → Option (Option Entry)
  | [] => some none
  | e :: rest =>
      match e.timer.isExpired? now with
      | none => none
      | some true => some (some e)
      | some false => firstExpired? now rest

/-- What is left of each timer. -/
def remainingTimes? (now : Instant) : List Entry → Option (List Duration)
  | [] => some []
  | e :: rest =>
      match e.timer.remaining? now with
      | none => none
      | some left => (remainingTimes? now rest).map (left :: ·)

/-- The shorter of two durations. -/
def shorter (a b : Duration) : Duration := if b.nanos < a.nanos then b else a

/-- The shortest of some durations. -/
def shortest : List Duration → Option Duration
  | [] => none
  | d :: rest => some (rest.foldl shorter d)

/-- The ids of the messages whose timers have run out, in order. -/
def expiredIds? (q : InFlight) (now : Instant) : Option (List UInt16) :=
  (expiredEntries? now q.toList).map fun l => l.map (·.id)

/-- Whether some timer has run out. -/
def hasExpired? (q : InFlight) (now : Instant) : Option Bool :=
  (firstExpired? now q.toList).map Option.isSome

/-- The time until the first timer runs out, if there is a timer. -/
def nextTimeout? (q : InFlight) (now : Instant) : Option (Option Duration) :=
  (remainingTimes? now q.toList).map shortest

/-- Take out the first message whose timer has run out. -/
def takeExpired? (q : InFlight) (now : Instant) :
    Option (Option Entry × InFlight) :=
  (firstExpired? now q.toList).map fun
    | some e => q.remove e.id
    | none => (none, q)

end InFlight

end Coap
