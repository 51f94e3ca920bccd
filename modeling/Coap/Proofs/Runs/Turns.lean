import Coap.Proofs.Runs.Invariant
import Coap.Proofs.Runs.Serial

/-!
# What a turn does

What can be seen of a turn is what it received, which clock readings and
fractions it was given, which datagrams it gave to the socket for which message,
and whom it told. A send puts at most one message in flight; that message is
sent once, and if this fails it is gone again. A receive takes out of flight
what an acknowledgement or a rejection answers.

## Main results

* `Call.Runs.send_cases` — a send queues nothing, or one message that it sends
  once.
* `Call.Runs.receiveNext_cases` — a receive answers nothing, or takes out the
  message with the id of the answer.
-/

namespace Coap

/-! ## What can be seen -/

/-- A datagram that was given to the socket, and what came of it. -/
structure Sending where
  destination : SocketAddress
  datagram : Bytes
  result : Except TransportError Unit

/-- The sending that an action is, if it is one. -/
def Action.sending? : Action → Option Sending
  | transmitted destination datagram result =>
      some ⟨destination, datagram, result⟩
  | _ => none

/-- The clock reading that an action is, if it is one. -/
def Action.reading? : Action → Option Instant
  | readTime t => some t
  | _ => none

/-- The random fraction that an action is, if it is one. -/
def Action.fraction? : Action → Option Float
  | drewFraction fraction => some fraction
  | _ => none

/-- The datagrams that some actions sent. -/
def sendings (actions : List Action) : List Sending :=
  actions.filterMap Action.sending?

/-- The notifications that some actions told. -/
def announced (actions : List Action) : List Notification :=
  actions.filterMap Action.notification?

@[simp] theorem sendings_append (l₁ l₂ : List Action) :
    sendings (l₁ ++ l₂) = sendings l₁ ++ sendings l₂ :=
  List.filterMap_append

@[simp] theorem announced_append (l₁ l₂ : List Action) :
    announced (l₁ ++ l₂) = announced l₁ ++ announced l₂ :=
  List.filterMap_append

theorem announced_told (l : List Notification) :
    announced (l.map fun n => .told (.notified n)) = l := by
  induction l with
  | nil => rfl
  | cons n rest ih => exact congrArg (n :: ·) ih

/-- The datagrams that some parts sent for the message under a number. -/
def sentIn (parts : List Part) (seq : Nat) : List Sending :=
  sendings ((parts.filter (·.subject == some seq)).flatMap (·.actions))

theorem sentIn_append (l₁ l₂ : List Part) (seq : Nat) :
    sentIn (l₁ ++ l₂) seq = sentIn l₁ seq ++ sentIn l₂ seq := by
  simp only [sentIn, List.filter_append, List.flatMap_append, sendings_append]

theorem sentIn_cons (p : Part) (rest : List Part) (seq : Nat) :
    sentIn (p :: rest) seq = sentIn [p] seq ++ sentIn rest seq :=
  sentIn_append [p] rest seq

theorem sentIn_singleton (p : Part) (seq : Nat) :
    sentIn [p] seq = if p.subject = some seq then sendings p.actions else [] := by
  by_cases h : p.subject = some seq
  · have hkeep : (p.subject == some seq) = true := beq_iff_eq.mpr h
    rw [if_pos h, sentIn, List.filter_singleton, hkeep, cond_true,
      List.flatMap_singleton]
  · have hdrop : (p.subject == some seq) = false := beq_eq_false_iff_ne.mpr h
    rw [if_neg h, sentIn, List.filter_singleton, hdrop, cond_false]
    rfl

namespace Turn

/-- Those who were told in a turn. -/
def told (t : Turn) : List Notification := announced t.actions

/-- The datagrams that a turn sent for the message under a number. -/
def sentFor (t : Turn) (seq : Nat) : List Sending := sentIn t.parts seq

/-- The clock readings of a turn. -/
def clock (t : Turn) : List Instant := t.actions.filterMap Action.reading?

/-- The random fractions of a turn. -/
def draws (t : Turn) : List Float := t.actions.filterMap Action.fraction?

/-- The number that a message got in a turn, if one was put in flight. -/
def number? (t : Turn) : Option Nat :=
  t.before.inFlight.numbered t.after.inFlight

/-- A datagram was received that fits the read buffer and is a message of the
version spoken here, of the given type and id. -/
def Answers (t : Turn) (config : Config) (type : MessageType) (id : UInt16) :
    Prop :=
  ∃ datagram sender m,
    .received (.ok (some (datagram, sender))) ∈ t.actions ∧
      datagram.length ≤ config.readBufferSize ∧
      Message.read datagram = .ok m ∧
      m.header.version = Header.version1 ∧ m.type = type ∧ m.id = id

end Turn

/-! ## Sending -/

/-- What is written into an empty buffer are the bytes of the message, if there
is room for them. -/
theorem Endpoint.serialize_eq_ok_iff {e : Endpoint} {m : Message} {text : Bytes} :
    (e.serialize m).2 = .ok text ↔
      m.encode = .ok text ∧ text.length ≤ e.writeBuffer.capacity := by
  have hroom : e.writeBuffer.clear.room = e.writeBuffer.capacity :=
    Buffer.room_clear _
  change (m.write e.writeBuffer.clear).2.map
    (fun _ => (m.write e.writeBuffer.clear).1.contents) = .ok text ↔ _
  have hcontents {b : Buffer} {text : Bytes}
      (happend : e.writeBuffer.clear.append? text = some b) :
      b.contents = text := by
    rw [Buffer.contents_append? happend, Buffer.contents_clear, List.nil_append]
  constructor
  · intro h
    cases hwritten : (m.write e.writeBuffer.clear).2 with
    | error err =>
        rw [hwritten] at h
        cases h
    | ok n =>
        rw [hwritten] at h
        obtain ⟨text', hencode, -, happend⟩ := Message.append?_of_write hwritten
        obtain rfl : text' = text :=
          (hcontents happend).symm.trans (Except.ok.inj h)
        refine ⟨hencode, ?_⟩
        by_contra hlong
        rw [Buffer.append?_eq_none.mpr (by omega)] at happend
        cases happend
  · rintro ⟨hencode, hlength⟩
    cases happend : e.writeBuffer.clear.append? text with
    | none =>
        have hlong := Buffer.append?_eq_none.mp happend
        omega
    | some b =>
        rw [Message.write_of_append? hencode happend]
        exact congrArg Except.ok (hcontents happend)

/-- The endpoint when a wait for a datagram is over. -/
def Endpoint.afterWait (e : Endpoint)
    (r : Except TransportError Reception) : Endpoint :=
  match r with
  | .ok (some (datagram, sender)) =>
      (e.openReadBuffer.1.accept e.openReadBuffer.2 datagram sender).1
  | _ => e.openReadBuffer.1

theorem Endpoint.inFlight_afterWait (e : Endpoint)
    (r : Except TransportError Reception) :
    (e.afterWait r).inFlight = e.inFlight := by
  unfold Endpoint.afterWait
  split <;> rfl

namespace Call

variable {e e' : Endpoint} {actions : List Action} {destination : SocketAddress}
  {m : Message} {id : UInt16} {datagram : Bytes} {ticket : Option Ticket}
  {value : Option (Except SendError Unit)}

/-- Telling who waits for the outcome of a message that is gone. -/
theorem runs_notify_bind_iff {n : Option Notification} {β : Type} {b : β}
    {value : Option β} :
    (notify n >>= fun _ => done b).Runs e actions e' value ↔
      actions = n.toList.map (fun n => .told (.notified n)) ∧ e' = e ∧
        value = some b := by
  constructor
  · intro hrun
    rcases runs_bind_iff.mp hrun with
      ⟨_, _, _, _, rfl, hnotify, hdone⟩ | ⟨-, hnotify⟩
    · obtain ⟨rfl, rfl, -⟩ := runs_notify_iff.mp hnotify
      obtain ⟨rfl, rfl, rfl⟩ := runs_done_iff.mp hdone
      rw [List.append_nil]
      exact ⟨rfl, rfl, rfl⟩
    · cases (runs_notify_iff.mp hnotify).2.2
  · rintro ⟨rfl, rfl, rfl⟩
    have hnotify : (notify n).Runs e' _ e' (some ()) :=
      runs_notify_iff.mpr ⟨rfl, rfl, rfl⟩
    have hrun : ((notify n).bind fun _ => done b).Runs e' _ e' (some b) :=
      hnotify.bind (.done e' b)
    rw [List.append_nil] at hrun
    exact hrun

/-- The actions of taking a message out of flight and telling how it ended. -/
def ending (q : InFlight) (id : UInt16) (outcome : Outcome) : List Action :=
  .acquired .inFlight :: .updated :: .released .inFlight ::
    ((q.get? id).bind (·.notify outcome)).toList.map
      (fun n => .told (.notified n))

/-- What is seen neither of a step under the lock nor of a notification is not
seen when a message is taken out of flight. -/
theorem filterMap_append_ending (first : List Action) (q : InFlight)
    (id : UInt16) (outcome : Outcome) {α : Type} {f : Action → Option α}
    (hacquired : f (.acquired .inFlight) = none) (hupdated : f .updated = none)
    (hreleased : f (.released .inFlight) = none)
    (htold : ∀ n, f (.told (.notified n)) = none) :
    (first ++ ending q id outcome).filterMap f = first.filterMap f := by
  have hnotices (l : List Notification) :
      (l.map fun n => Action.told (.notified n)).filterMap f = [] := by
    refine List.filterMap_eq_nil_iff.mpr ?_
    intro action haction
    obtain ⟨n, -, rfl⟩ := List.mem_map.mp haction
    exact htold n
  rw [List.filterMap_append, ending, List.filterMap_cons_none hacquired,
    List.filterMap_cons_none hupdated, List.filterMap_cons_none hreleased,
    hnotices, List.append_nil]

theorem received_notMem_ending (q : InFlight) (id : UInt16) (outcome : Outcome)
    (r : Except TransportError Reception) :
    .received r ∉ ending q id outcome := by
  simp [ending]

theorem runs_giveUp_iff {cause : TransportError} :
    (giveUp id cause).Runs e actions e' value ↔
      actions = ending e.inFlight id (.failed cause) ∧
      e' = (e.dequeue id).1 ∧ value = some (.error (.transport cause)) := by
  have hentry : (e.dequeue id).2 = e.inFlight.get? id :=
    InFlight.fst_remove e.inFlight id
  rw [giveUp, runs_locked_perform_iff]
  simp only [hentry, pure, runs_notify_bind_iff]
  constructor
  · rintro ⟨_, rfl, rfl, rfl, rfl⟩
    exact ⟨rfl, rfl, rfl⟩
  · rintro ⟨rfl, rfl, rfl⟩
    exact ⟨_, rfl, rfl, rfl, rfl⟩

/-- Reading the clock and taking a step at that time, all under a lock. -/
theorem runs_timed_perform_iff {lock : Lock} {α β : Type}
    {step : Instant → Endpoint → Endpoint × β} {f : β → Call α}
    {value : Option α} :
    (locked lock (time >>= fun now => perform (step now)) >>= f).Runs
        e actions e' value ↔
      ∃ now rest,
        actions = .acquired lock :: .readTime now :: .updated ::
          .released lock :: rest ∧
        (f (step now e).2).Runs (step now e).1 rest e' value := by
  rw [locked_bind, runs_acquire_iff]
  constructor
  · rintro ⟨_, rfl, htimed⟩
    obtain ⟨now, _, rfl, hstep⟩ := runs_askTime_iff.mp htimed
    obtain ⟨_, rfl, hrelease⟩ := runs_update_iff.mp hstep
    obtain ⟨rest, rfl, h⟩ := runs_release_iff.mp hrelease
    exact ⟨now, rest, rfl, h⟩
  · rintro ⟨now, rest, rfl, h⟩
    refine ⟨_, rfl, runs_askTime_iff.mpr ⟨now, _, rfl, ?_⟩⟩
    exact runs_update_iff.mpr ⟨_, rfl, runs_release_iff.mpr ⟨rest, rfl, h⟩⟩

/-- How a message that may have to be sent again is sent for the first time:
the actions up to that and its result. -/
def launch (fraction : Float) (now : Instant) (destination : SocketAddress)
    (datagram : Bytes) (result : Except TransportError Unit) : List Action :=
  [.drewFraction fraction, .updated, .acquired .inFlight, .readTime now, .updated,
    .released .inFlight, .transmitted destination datagram result]

/-- How a message is sent that is tracked: its timeout cannot be told, its id is
taken, or it is queued and sent once, and taken back if that fails. -/
inductive Tracks (destination : SocketAddress) (id : UInt16) (datagram : Bytes)
    (ticket : Option Ticket) (e : Endpoint) :
    List Action → Endpoint → Option (Except SendError Unit) → Prop
  | endless {fraction : Float}
      (htimeout : e.config.transmission.initialTimeout? fraction = none) :
      Tracks destination id datagram ticket e
        [.drewFraction fraction, .updated] e none
  | taken {fraction : Float} {timeout : Duration} {now : Instant}
      {err : SendError}
      (htimeout : e.config.transmission.initialTimeout? fraction = some timeout)
      (hadd : e.inFlight.add id destination datagram ticket now timeout =
        .error err) :
      Tracks destination id datagram ticket e
        [.drewFraction fraction, .updated, .acquired .inFlight, .readTime now,
          .updated, .released .inFlight] e (some (.error err))
  | launched {fraction : Float} {timeout : Duration} {now : Instant}
      {q : InFlight}
      (htimeout : e.config.transmission.initialTimeout? fraction = some timeout)
      (hadd : e.inFlight.add id destination datagram ticket now timeout =
        .ok q) :
      Tracks destination id datagram ticket e
        (launch fraction now destination datagram (.ok ()))
        { e with inFlight := q } (some (.ok ()))
  | stranded {fraction : Float} {timeout : Duration} {now : Instant}
      {q : InFlight} {cause : TransportError}
      (htimeout : e.config.transmission.initialTimeout? fraction = some timeout)
      (hadd : e.inFlight.add id destination datagram ticket now timeout =
        .ok q) :
      Tracks destination id datagram ticket e
        (launch fraction now destination datagram (.error cause) ++
          ending q id (.failed cause))
        { e with inFlight := (q.remove id).2 } (some (.error (.transport cause)))

theorem runs_sendTracked_iff :
    (sendTracked destination id datagram ticket).Runs e actions e' value ↔
      Tracks destination id datagram ticket e actions e' value := by
  rw [sendTracked, runs_fraction_iff]
  simp only [runs_endpoint_iff, runs_ofOption_iff, runs_timed_perform_iff]
  constructor
  · rintro ⟨fraction, _, rfl, _, rfl, ⟨htimeout, rfl, rfl, rfl⟩ |
      ⟨timeout, htimeout, now, _, rfl, h⟩⟩
    · exact .endless htimeout
    · cases hadd : e.inFlight.add id destination datagram ticket now timeout with
      | error err =>
          simp only [Endpoint.enqueue, hadd] at h
          obtain ⟨rfl, rfl, rfl⟩ := runs_done_iff.mp h
          exact .taken htimeout hadd
      | ok q =>
          simp only [Endpoint.enqueue, hadd, runs_sendDatagram_iff] at h
          obtain ⟨result, _, rfl, h⟩ := h
          cases result with
          | ok =>
              obtain ⟨rfl, rfl, rfl⟩ := runs_done_iff.mp h
              exact .launched htimeout hadd
          | error cause =>
              obtain ⟨rfl, rfl, rfl⟩ := runs_giveUp_iff.mp h
              exact .stranded htimeout hadd
  · intro h
    cases h with
    | endless htimeout =>
        exact ⟨_, _, rfl, _, rfl, .inl ⟨htimeout, rfl, rfl, rfl⟩⟩
    | taken htimeout hadd =>
        refine ⟨_, _, rfl, _, rfl, .inr ⟨_, htimeout, _, _, rfl, ?_⟩⟩
        simp only [Endpoint.enqueue, hadd]
        exact .done _ _
    | launched htimeout hadd =>
        refine ⟨_, _, rfl, _, rfl, .inr ⟨_, htimeout, _, _, rfl, ?_⟩⟩
        simp only [Endpoint.enqueue, hadd, runs_sendDatagram_iff]
        exact ⟨_, _, rfl, .done _ _⟩
    | stranded htimeout hadd =>
        refine ⟨_, _, rfl, _, rfl, .inr ⟨_, htimeout, _, _, rfl, ?_⟩⟩
        simp only [Endpoint.enqueue, hadd, runs_sendDatagram_iff]
        exact ⟨_, _, rfl, runs_giveUp_iff.mpr ⟨rfl, rfl, rfl⟩⟩

/-- How a message is sent: it brings a ticket that it may not have, it cannot be
written, it is sent once, or it is tracked. -/
inductive Sends (destination : SocketAddress) (m : Message)
    (ticket : Option Ticket) (e : Endpoint) :
    List Action → Endpoint → Option (Except SendError Unit) → Prop
  | refused (hticket : (ticket.isSome && !m.isConfirmable) = true) :
      Sends destination m ticket e [] e
        (some (.error .callbackRequiresConfirmable))
  | unwritten {err : CodecError}
      (hticket : ¬(ticket.isSome && !m.isConfirmable) = true)
      (hwritten : (e.serialize m).2 = .error err) :
      Sends destination m ticket e [.updated] (e.serialize m).1
        (some (.error (.codec err)))
  | once {text : Bytes} {result : Except TransportError Unit}
      (hticket : ¬(ticket.isSome && !m.isConfirmable) = true)
      (hwritten : (e.serialize m).2 = .ok text)
      (hconfirmable : ¬m.isConfirmable = true) :
      Sends destination m ticket e
        [.updated, .transmitted destination text result] (e.serialize m).1
        (some (result.mapError .transport))
  | tracked {text : Bytes} {actions : List Action} {e' : Endpoint}
      {value : Option (Except SendError Unit)}
      (hwritten : (e.serialize m).2 = .ok text)
      (hconfirmable : m.isConfirmable = true)
      (htracks : Tracks destination m.id text ticket (e.serialize m).1 actions
        e' value) :
      Sends destination m ticket e (.updated :: actions) e' value

/-- The runs of a send are the ways it may go. -/
theorem runs_send_iff :
    (send destination m ticket).Runs e actions e' value ↔
      Sends destination m ticket e actions e' value := by
  unfold send
  constructor
  · intro h
    split at h
    · next hticket =>
        obtain ⟨rfl, rfl, rfl⟩ := runs_done_iff.mp h
        exact .refused hticket
    · next hticket =>
        rw [runs_perform_iff] at h
        obtain ⟨_, rfl, h⟩ := h
        cases hwritten : (e.serialize m).2 with
        | error err =>
            simp only [hwritten] at h
            obtain ⟨rfl, rfl, rfl⟩ := runs_done_iff.mp h
            exact .unwritten hticket hwritten
        | ok text =>
            simp only [hwritten] at h
            split at h
            · next hconfirmable =>
                exact .tracked hwritten hconfirmable
                  (runs_sendTracked_iff.mp h)
            · next hconfirmable =>
                rw [sendOnce, runs_sendDatagram_iff] at h
                obtain ⟨result, _, rfl, h⟩ := h
                obtain ⟨rfl, rfl, rfl⟩ := runs_done_iff.mp h
                exact .once hticket hwritten hconfirmable
  · intro h
    cases h with
    | refused hticket =>
        rw [if_pos hticket]
        exact .done _ _
    | unwritten hticket hwritten =>
        rw [if_neg hticket]
        refine runs_perform_iff.mpr ⟨_, rfl, ?_⟩
        simp only [hwritten]
        exact .done _ _
    | once hticket hwritten hconfirmable =>
        rw [if_neg hticket]
        refine runs_perform_iff.mpr ⟨_, rfl, ?_⟩
        simp only [hwritten, if_neg hconfirmable]
        exact runs_sendDatagram_iff.mpr ⟨_, _, rfl, .done _ _⟩
    | tracked hwritten hconfirmable htracks =>
        have hticket : ¬(ticket.isSome && !m.isConfirmable) = true := by
          rw [hconfirmable, Bool.not_true, Bool.and_false]
          exact Bool.false_ne_true
        rw [if_neg hticket]
        refine runs_perform_iff.mpr ⟨_, rfl, ?_⟩
        simp only [hwritten, if_pos hconfirmable]
        exact runs_sendTracked_iff.mpr htracks

/-- A send queues nothing, or it queues its message as it is written, and sends
it once. -/
theorem Runs.send_cases
    (h : (send destination m ticket).Runs e actions e' value) :
    (e'.inFlight = e.inFlight ∧ announced actions = [] ∧
      ∀ r, .received r ∉ actions) ∨
    ∃ text fraction timeout now q, ∃ result : Except TransportError Unit,
      m.encode = .ok text ∧ text.length ≤ e.writeBuffer.capacity ∧
      e.config.transmission.initialTimeout? fraction = some timeout ∧
      e.inFlight.add m.id destination text ticket now timeout = .ok q ∧
      match result with
      | .ok () => e'.inFlight = q ∧
          actions = .updated :: launch fraction now destination text result
      | .error cause => e'.inFlight = (q.remove m.id).2 ∧
          actions = .updated :: launch fraction now destination text result ++
            ending q m.id (.failed cause) := by
  cases runs_send_iff.mp h with
  | refused => exact .inl ⟨rfl, rfl, by simp⟩
  | unwritten => exact .inl ⟨rfl, rfl, by simp⟩
  | once => exact .inl ⟨rfl, rfl, by simp⟩
  | tracked hwritten _ htracks =>
      obtain ⟨hencode, hlength⟩ := Endpoint.serialize_eq_ok_iff.mp hwritten
      cases htracks with
      | endless => exact .inl ⟨rfl, rfl, by simp⟩
      | taken => exact .inl ⟨rfl, rfl, by simp⟩
      | launched htimeout hadd =>
          exact .inr ⟨_, _, _, _, _, .ok (), hencode, hlength, htimeout, hadd,
            rfl, rfl⟩
      | stranded htimeout hadd =>
          exact .inr ⟨_, _, _, _, _, .error _, hencode, hlength, htimeout, hadd,
            rfl, rfl⟩

/-- A send that came as far as reading the clock has queued its message, unless
the id was taken. -/
theorem Runs.send_numbers
    (h : (send destination m ticket).Runs e actions e' value)
    (hread : actions.filterMap Action.reading? ≠ [])
    (hfree : e.inFlight.contains m.id = false) :
    e.inFlight.numbered e'.inFlight = some e.inFlight.nextSeq := by
  have hnumbered {q : InFlight} (hnext : q.nextSeq = e.inFlight.nextSeq + 1) :
      e.inFlight.numbered q = some e.inFlight.nextSeq := by
    rw [InFlight.numbered, if_neg (by omega)]
  cases runs_send_iff.mp h with
  | refused => exact absurd rfl hread
  | unwritten => exact absurd rfl hread
  | once => exact absurd rfl hread
  | tracked _ _ htracks =>
      cases htracks with
      | endless => exact absurd rfl hread
      | taken _ hadd =>
          have htaken := (InFlight.add_eq_error.mp hadd).1
          exact absurd (hfree.symm.trans htaken) Bool.false_ne_true
      | launched _ hadd => exact hnumbered (InFlight.entries_add hadd).2
      | @stranded _ _ _ q _ _ hadd =>
          have hnext := InFlight.nextSeq_remove q m.id
          exact hnumbered (hnext.trans (InFlight.entries_add hadd).2)

/-! ## Receiving -/

/-- The message in a reception, if there is one that is read. -/
def messageIn (config : Config) :
    Except TransportError Reception → Option Message
  | .ok (some (datagram, sender)) =>
      if datagram.length ≤ config.readBufferSize then
        Endpoint.messageOf datagram sender
      else none
  | _ => none

/-- The acknowledgement or rejection in a reception, if there is one. -/
def answerIn (config : Config) (r : Except TransportError Reception) :
    Option Message :=
  (messageIn config r).filter fun m => m.isAck || m.isReset

/-- The outcome that an answer brings is the one its type names. -/
theorem answerIn_eq_some {config : Config} {r : Except TransportError Reception}
    (h : answerIn config r = some m) :
    messageIn config r = some m ∧
      ((m.type = .acknowledgement ∧ Endpoint.outcomeOf m = .acknowledged) ∨
        (m.type = .reset ∧ Endpoint.outcomeOf m = .rejected)) := by
  obtain ⟨hmessage, hanswers⟩ := Option.filter_eq_some_iff.mp h
  refine ⟨hmessage, ?_⟩
  by_cases hack : m.isAck = true
  · refine .inl ⟨beq_iff_eq.mp hack, ?_⟩
    rw [Endpoint.outcomeOf, if_pos hack]
  · have hreset : m.isReset = true :=
      (Bool.or_eq_true_iff.mp hanswers).resolve_left hack
    refine .inr ⟨beq_iff_eq.mp hreset, ?_⟩
    rw [Endpoint.outcomeOf, if_neg hack]

theorem runs_settle_iff {β : Type} {b : β} {value : Option β} :
    (settle m >>= fun _ => done b).Runs e actions e' value ↔
      actions = ending e.inFlight m.id (Endpoint.outcomeOf m) ∧
      e' = (e.dequeue m.id).1 ∧ value = some b := by
  have hentry : (e.dequeue m.id).2 = e.inFlight.get? m.id :=
    InFlight.fst_remove e.inFlight m.id
  have hsettle : (settle m >>= fun _ => done b) =
      locked .inFlight (perform (·.dequeue m.id)) >>= fun entry =>
        notify (entry.bind (·.notify (Endpoint.outcomeOf m))) >>= fun _ =>
          done b := rfl
  rw [hsettle, runs_locked_perform_iff]
  simp only [hentry, runs_notify_bind_iff]
  constructor
  · rintro ⟨_, rfl, rfl, rfl, rfl⟩
    exact ⟨rfl, rfl, rfl⟩
  · rintro ⟨rfl, rfl, rfl⟩
    exact ⟨_, rfl, rfl, rfl, rfl⟩

/-- The actions of waiting for a datagram. -/
def wait (r : Except TransportError Reception) : List Action :=
  match r with
  | .ok (some _) =>
      [.acquired .readBuffer, .updated, .received r, .updated,
        .released .readBuffer]
  | _ => [.acquired .readBuffer, .updated, .received r, .released .readBuffer]

theorem received_mem_wait_iff {r r' : Except TransportError Reception} :
    .received r' ∈ wait r ↔ r' = r := by
  unfold wait
  split <;> simp

variable {config : Config}

/-- What a fit endpoint reads from a reception is the message in it, if the buffer was
open when the wait began. -/
theorem message_accept {opened : Endpoint} (hopened : opened.Fits config)
    (he : e.Fits config) (datagram : Bytes) (sender : SocketAddress) :
    (e.accept opened.openReadBuffer.2 datagram sender).2 =
      messageIn config (.ok (some (datagram, sender))) := by
  have hexposed : opened.openReadBuffer.2 = e.readBuffer.capacity := by
    rw [Endpoint.snd_openReadBuffer, hopened.readBuffer, he.readBuffer]
  rw [hexposed, Endpoint.accept_snd_capacity, he.readBuffer, messageIn]
  by_cases hlength : datagram.length ≤ config.readBufferSize
  · rw [if_neg (by omega), if_pos hlength]
  · rw [if_pos (by omega), if_neg hlength]

/-- A wait for a datagram gives the message in its one reception. -/
theorem runs_receiveMessage_iff (he : e.Fits config) {α : Type}
    {f : Except TransportError (Option Message) → Call α} {value : Option α} :
    (receiveMessage >>= f).Runs e actions e' value ↔
      ∃ r rest, actions = wait r ++ rest ∧
        (f (r.map fun _ => messageIn config r)).Runs (e.afterWait r) rest e'
          value := by
  have hmessage := message_accept he he.openReadBuffer
  rw [receiveMessage, locked_bind, runs_acquire_iff]
  constructor
  · rintro ⟨_, rfl, hbody⟩
    obtain ⟨_, rfl, hwait⟩ := runs_update_iff.mp hbody
    obtain ⟨r, _, rfl, hread⟩ := runs_receive_iff.mp hwait
    refine ⟨r, ?_⟩
    match r with
    | .error cause | .ok none =>
        obtain ⟨rest, rfl, h⟩ := runs_release_iff.mp hread
        exact ⟨rest, rfl, h⟩
    | .ok (some (datagram, sender)) =>
        obtain ⟨_, rfl, hrelease⟩ := runs_update_iff.mp hread
        obtain ⟨rest, rfl, h⟩ := runs_release_iff.mp hrelease
        rw [hmessage] at h
        exact ⟨rest, rfl, h⟩
  · rintro ⟨r, rest, rfl, h⟩
    match r with
    | .error cause | .ok none =>
        refine ⟨_, rfl, runs_update_iff.mpr ⟨_, rfl, ?_⟩⟩
        refine runs_receive_iff.mpr ⟨_, _, rfl, ?_⟩
        exact runs_release_iff.mpr ⟨rest, rfl, h⟩
    | .ok (some (datagram, sender)) =>
        refine ⟨_, rfl, runs_update_iff.mpr ⟨_, rfl, ?_⟩⟩
        refine runs_receive_iff.mpr ⟨_, _, rfl, ?_⟩
        refine runs_update_iff.mpr ⟨_, rfl, runs_release_iff.mpr ⟨rest, rfl, ?_⟩⟩
        rw [hmessage]
        exact h

/-- What a receive does with what it has read, before it gives it. -/
def respond (read : Except TransportError (Option Message)) :
    Call (Except TransportError (Option Message)) :=
  match read with
  | .ok (some m) =>
      if m.isAck || m.isReset then (settle m).bind fun _ => done read
      else done read
  | _ => done read

theorem receiveNext_eq : receiveNext = receiveMessage.bind respond := by
  refine congrArg receiveMessage.bind (funext fun read => ?_)
  match read with
  | .error cause | .ok none => rfl
  | .ok (some m) =>
      simp only [respond]
      split <;> rfl

/-- It settles what was answered, and nothing if nothing was. -/
theorem respond_reception (config : Config)
    (r : Except TransportError Reception) :
    respond (r.map fun _ => messageIn config r) =
      match answerIn config r with
      | none => done (r.map fun _ => messageIn config r)
      | some m =>
          (settle m).bind fun _ => done (r.map fun _ => messageIn config r) := by
  cases r with
  | error cause => rfl
  | ok reception =>
      cases hmessage : messageIn config (.ok reception) with
      | none => simp only [answerIn, hmessage, Option.filter_none, Except.map, respond]
      | some m =>
          simp only [answerIn, hmessage, Option.filter_some, Except.map, respond]
          split <;> rfl

/-- A receive has one reception. If that is an answer, the message with its id
is taken out of flight and who waits for it is told. -/
theorem runs_receiveNext_iff (he : e.Fits config)
    {value : Option (Except TransportError (Option Message))} :
    receiveNext.Runs e actions e' value ↔
      ∃ r, value = some (r.map fun _ => messageIn config r) ∧
        match answerIn config r with
        | none => actions = wait r ∧ e' = e.afterWait r
        | some m =>
            actions = wait r ++ ending e.inFlight m.id (Endpoint.outcomeOf m) ∧
              e' = ((e.afterWait r).dequeue m.id).1 := by
  rw [receiveNext_eq]
  refine (runs_receiveMessage_iff he).trans (exists_congr fun r => ?_)
  rw [respond_reception]
  cases answerIn config r with
  | none =>
      simp only [runs_done_iff]
      constructor
      · rintro ⟨_, rfl, rfl, rfl, rfl⟩
        exact ⟨rfl, List.append_nil _, rfl⟩
      · rintro ⟨rfl, rfl, rfl⟩
        exact ⟨[], (List.append_nil _).symm, rfl, rfl, rfl⟩
  | some m =>
      rw [← e.inFlight_afterWait r]
      constructor
      · rintro ⟨_, rfl, hsettle⟩
        obtain ⟨rfl, rfl, rfl⟩ := runs_settle_iff.mp hsettle
        exact ⟨rfl, rfl, rfl⟩
      · rintro ⟨rfl, rfl, rfl⟩
        exact ⟨_, rfl, runs_settle_iff.mpr ⟨rfl, rfl, rfl⟩⟩

/-- What a receive has received, what it leaves in flight and whom it tells. -/
theorem Runs.receiveNext_cases (he : e.Fits config)
    {value : Option (Except TransportError (Option Message))}
    (h : receiveNext.Runs e actions e' value) :
    ∃ r, (∀ r', .received r' ∈ actions ↔ r' = r) ∧
      match answerIn config r with
      | none => e'.inFlight = e.inFlight ∧ announced actions = []
      | some m => e'.inFlight = (e.inFlight.remove m.id).2 ∧
          announced actions = ((e.inFlight.get? m.id).bind
            (·.notify (Endpoint.outcomeOf m))).toList := by
  obtain ⟨r, -, hrest⟩ := (runs_receiveNext_iff he).mp h
  have hwaited : announced (wait r) = [] := by
    unfold wait
    split <;> rfl
  refine ⟨r, ?_⟩
  cases hanswer : answerIn config r with
  | none =>
      rw [hanswer] at hrest
      obtain ⟨rfl, rfl⟩ := hrest
      exact ⟨fun r' => received_mem_wait_iff, e.inFlight_afterWait r, hwaited⟩
  | some m =>
      rw [hanswer] at hrest
      obtain ⟨rfl, rfl⟩ := hrest
      refine ⟨?_, ?_, ?_⟩
      · intro r'
        rw [List.mem_append, received_mem_wait_iff]
        exact or_iff_left (received_notMem_ending _ _ _ r')
      · rw [← e.inFlight_afterWait r]
        rfl
      · rw [announced_append, hwaited]
        exact announced_told _

end Call

end Coap
