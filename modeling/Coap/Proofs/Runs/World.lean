import Coap.Endpoint.Scan
import Coap.Endpoint.Send
import Coap.Proofs.InFlight.Evolution

/-!
# Calls that run side by side

A world is an endpoint with all calls on it that have been started, each as
far as it has come. Any call may take its next action at any time, as long as
it does not take a lock that another call holds; the clock, the random numbers
and the socket may answer anything. A call that breaks off gives its locks
back. Each thread keeps books of which entries joined and departed by its own
actions, and of what it told.

A ticket stands for one who waits for one message, so no two operations bring
the same ticket.
-/

namespace Coap

/-! ## Single actions -/

/-- An action of a call, with its answer. -/
inductive Action where
  | updated
  | readTime (t : Instant)
  | drewWord (word : UInt32)
  | drewFraction (fraction : Float)
  | told (event : Event)
  | acquired (lock : Lock)
  | released (lock : Lock)
  | transmitted (destination : SocketAddress) (datagram : Bytes)
      (result : Except TransportError Unit)
  | received (result : Except TransportError Reception)

/-- A call takes its next action. -/
inductive Call.Step {α : Type} :
    Endpoint → Call α → Action → Endpoint → Call α → Prop where
  | update (e change next) :
      Step e (.update change next) .updated (change e) (next e)
  | askTime (e next t) : Step e (.askTime next) (.readTime t) e (next t)
  | askWord (e next word) :
      Step e (.askWord next) (.drewWord word) e (next word)
  | askFraction (e next fraction) :
      Step e (.askFraction next) (.drewFraction fraction) e (next fraction)
  | tell (e event next) : Step e (.tell event next) (.told event) e next
  | acquire (e lock next) : Step e (.acquire lock next) (.acquired lock) e next
  | release (e lock next) : Step e (.release lock next) (.released lock) e next
  | transmit (e destination datagram next result) :
      Step e (.transmit destination datagram next)
        (.transmitted destination datagram result) e (next result)
  | receive (e next result) :
      Step e (.receive next) (.received result) e (next result)

/-- A call is over when it has a value or has broken off. -/
def Call.IsOver {α : Type} : Call α → Prop
  | .done _ => True
  | .fault => True
  | _ => False

/-! ## Operations -/

/-- What a call comes to. -/
inductive Result where
  | sent (result : Except SendError Unit)
  | requested (result : Except SendError UInt16)
  | received (result : Except TransportError (Option Message))
  | scanned

/-- A message was refused when it was neither queued nor given to the
transport. -/
def SendError.IsRefusal : SendError → Prop
  | .transport _ => False
  | _ => True

/-- A call was refused if it sent nothing and only reports why. -/
def Result.IsRefusal : Result → Prop
  | sent (.error cause) => cause.IsRefusal
  | requested (.error cause) => cause.IsRefusal
  | _ => False

/-- What the users of an endpoint may have it do. -/
inductive Operation where
  | send (destination : SocketAddress) (m : Message) (ticket : Option Ticket)
  | request (r : Request)
  | receive
  | poll
  | checkQueues

namespace Operation

/-- The call that carries an operation out. -/
def call : Operation → Call Result
  | send destination m ticket => Result.sent <$> Call.send destination m ticket
  | request r => Result.requested <$> Call.request r
  | receive => Result.received <$> Call.receiveNext
  | poll => Result.received <$> Call.poll
  | checkQueues => (fun () => Result.scanned) <$> Call.checkQueues

/-- The ticket that an operation brings. -/
def ticket : Operation → Option Ticket
  | send _ _ ticket => ticket
  | request r => r.ticket
  | receive => none
  | poll => none
  | checkQueues => none

end Operation

/-! ## Threads -/

/-- The notification that an action is, if it is one. -/
def Action.notification? : Action → Option Notification
  | told (.notified n) => some n
  | _ => none

/-- An operation under way. -/
structure Thread where
  operation : Operation
  /-- What is left of its call. -/
  rest : Call Result
  /-- The entries that it put in flight. -/
  queued : List (Nat × Entry)
  /-- The entries that it took out of flight. -/
  taken : List (Nat × Entry)
  /-- What it told the holders of tickets. -/
  told : List Notification

namespace Thread

/-- An operation before its first action. -/
def start (operation : Operation) : Thread := ⟨operation, operation.call, [], [], []⟩

/-- The entry with the given sequence number was taken out of flight by this
thread. -/
def Took (th : Thread) (seq : Nat) : Prop := seq ∈ th.taken.map (·.1)

/-- The thread after an action that changed the queue from `q` to `q'`. -/
def after (th : Thread) (q q' : InFlight) (action : Action)
    (rest : Call Result) : Thread where
  operation := th.operation
  rest := rest
  queued := th.queued ++ q.joined q'
  taken := th.taken ++ q.departed q'
  told := th.told ++ action.notification?.toList

end Thread

/-! ## Worlds -/

/-- An endpoint with the calls on it. -/
structure World where
  endpoint : Endpoint
  /-- The place of the thread that holds a lock, if it is held. -/
  holder : Lock → Option Nat
  threads : List Thread

namespace World

/-- A world in which nothing has been started. -/
def start (e : Endpoint) : World := ⟨e, fun _ => none, []⟩

/-- The holders of the locks after an action of the thread at a place. -/
def holderAfter (w : World) (place : Nat) : Action → Lock → Option Nat
  | .acquired lock => fun l => if l = lock then some place else w.holder l
  | .released lock => fun l => if l = lock then none else w.holder l
  | _ => w.holder

/-- The holders of the locks when the thread at a place has broken off. -/
def holderWithout (w : World) (place : Nat) (lock : Lock) : Option Nat :=
  if w.holder lock = some place then none else w.holder lock

/-- The tickets of all operations. -/
def issued (w : World) : List Ticket :=
  w.threads.flatMap (·.operation.ticket.toList)

/-- What may happen in a world. -/
inductive Step : World → World → Prop where
  /-- An operation is started. Its ticket is new. -/
  | start {w : World} (operation : Operation)
      (hfresh : ∀ ticket ∈ w.issued, operation.ticket ≠ some ticket) :
      Step w { w with threads := w.threads ++ [.start operation] }
  /-- A thread takes its next action. -/
  | act {w : World} {first last : List Thread} {th : Thread} {action : Action}
      {e : Endpoint} {rest : Call Result}
      (hthreads : w.threads = first ++ th :: last)
      (hstep : th.rest.Step w.endpoint action e rest)
      (hfree : ∀ lock, action = .acquired lock → w.holder lock = none) :
      Step w
        { endpoint := e
          holder := w.holderAfter first.length action
          threads := first ++
            th.after w.endpoint.inFlight e.inFlight action rest :: last }
  /-- A thread that has broken off gives its locks back. -/
  | abandon {w : World} {first last : List Thread} {th : Thread}
      (hthreads : w.threads = first ++ th :: last) (hrest : th.rest = .fault) :
      Step w { w with holder := w.holderWithout first.length }

theorem getElem?_here (first last : List Thread) (th : Thread) :
    (first ++ th :: last)[first.length]? = some th := by
  rw [List.getElem?_append_right (Nat.le_refl _), Nat.sub_self,
    List.getElem?_cons_zero]

/-- The worlds that a new endpoint may come to. -/
inductive Reachable : World → Prop where
  | start {config : Config} {random : UInt32} {e : Endpoint}
      (h : Endpoint.new config random = .ok e) : Reachable (start e)
  | step {w w' : World} (h : Reachable w) (hstep : w.Step w') : Reachable w'

/-- The only thread there is takes its next action. -/
theorem Reachable.actAlone {e e' : Endpoint} {holder : Lock → Option Nat}
    {th : Thread} {action : Action} {rest : Call Result}
    (h : Reachable ⟨e, holder, [th]⟩) (hstep : th.rest.Step e action e' rest)
    (hfree : ∀ lock, action = .acquired lock → holder lock = none) :
    Reachable ⟨e', holderAfter ⟨e, holder, [th]⟩ 0 action,
      [th.after e.inFlight e'.inFlight action rest]⟩ :=
  h.step (@Step.act _ [] [] th action e' rest rfl hstep hfree)

/-- All entries that were put in flight. -/
def queued (w : World) : List (Nat × Entry) := w.threads.flatMap (·.queued)

/-- All entries that were taken out of flight. -/
def taken (w : World) : List (Nat × Entry) := w.threads.flatMap (·.taken)

/-- All that was told to the holder of a ticket. -/
def told (w : World) (ticket : Ticket) : List Notification :=
  (w.threads.flatMap (·.told)).filter (·.ticket == ticket)

end World

end Coap
