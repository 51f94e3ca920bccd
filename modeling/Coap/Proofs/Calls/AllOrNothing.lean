import Coap.Proofs.Calls.Reached

/-!
# A send does all or nothing

There are four points at which a send may fail, and at the last of them its message is
in flight already. The write buffer is used again and again, so it holds bytes of
earlier messages, also of ones that were not sent. None of this is seen afterwards: a
send that failed has left the messages in flight as they were, and a send that
succeeded has sent what it would have written into a buffer that was never used.

The argument follows the ways a send may go. A message that was put in flight under an
id and taken out again leaves nothing behind since no other message has that id, and
what is written after a clearing depends on the size of the buffer alone.

## Main results

* `Endpoint.snd_serialize` — what is sent does not depend on what the buffer held.
* `Endpoint.Reached.send_allOrNothing` — what a send has done, told by its value.
-/

namespace Coap

/-- The bytes that a message is written as into a buffer of the given size that was
never used. -/
def Message.writtenIn (size : Nat) (m : Message) : Except CodecError Bytes :=
  (m.write (.new size)).2.map fun _ => (m.write (.new size)).1.contents

/-- What is written into an empty buffer depends on the room in it alone. -/
theorem Message.contents_write {m : Message} {b : Buffer} (hb : b.contents = []) :
    ((m.write b).2.map fun _ => (m.write b).1.contents) =
      m.encode.bind fun text =>
        if b.room < text.length then .error (.bufferTooSmall text.length b.room)
        else .ok text := by
  rw [Message.write_eq]
  cases hencode : m.encode with
  | error err => rfl
  | ok text =>
      by_cases hroom : b.room < text.length
      · simp only [Buffer.append?_eq_none.mpr hroom, Except.bind, if_pos hroom]
        rfl
      · obtain ⟨b', happend⟩ := Option.ne_none_iff_exists'.mp
          fun hnone => hroom (Buffer.append?_eq_none.mp hnone)
        simp only [happend, Except.bind, if_neg hroom]
        rw [Except.map, Buffer.contents_append? happend, hb, List.nil_append]

theorem InFlight.not_contains_of_add {q q' : InFlight} {id : UInt16}
    {destination : SocketAddress} {message : Bytes} {ticket : Option Ticket}
    {now : Instant} {timeout : Duration}
    (h : q.add id destination message ticket now timeout = .ok q') :
    ¬q.contains id = true := by
  intro hcontains
  rw [add, if_pos hcontains] at h
  cases h

namespace Endpoint

variable {config : Config} {e e' : Endpoint} {destination : SocketAddress}
  {m : Message} {ticket : Option Ticket}

/-- Whatever the write buffer holds, a message is written as into a buffer that was
never used. -/
theorem snd_serialize (e : Endpoint) (m : Message) :
    (e.serialize m).2 = m.writtenIn e.writeBuffer.capacity := by
  have hroom : (Buffer.new e.writeBuffer.capacity).room = e.writeBuffer.capacity := by
    rw [Buffer.room, Buffer.capacity_new]
    rfl
  rw [Message.writtenIn, Message.contents_write (Buffer.contents_new _), hroom]
  change ((m.write e.writeBuffer.clear).2.map fun _ =>
    (m.write e.writeBuffer.clear).1.contents) = _
  rw [Message.contents_write (Buffer.contents_clear _), Buffer.room_clear]

theorem Fits.writtenIn_eq (he : e.Fits config) :
    m.writtenIn e.config.writeBufferSize = (e.serialize m).2 := by
  rw [he.config_eq, ← he.writeBuffer, ← snd_serialize]

/-- How a send ends when the socket answers like this. -/
def sendResult (e : Endpoint) (m : Message) (ticket : Option Ticket)
    (answer : Except TransportError Unit) : Except SendError Unit :=
  if ticket.isSome && !m.isConfirmable then .error .callbackRequiresConfirmable
  else
    match m.writtenIn e.config.writeBufferSize with
    | .error err => .error (.codec err)
    | .ok _ =>
        if m.isConfirmable && e.inFlight.contains m.id then
          .error (.messageIdInFlight m.id)
        else answer.mapError .transport

/-- A send ends as an answer of the socket has it, or it breaks off since a timeout
cannot be told. -/
def SendEnds (m : Message) (ticket : Option Ticket) (e : Endpoint) :
    Option (Except SendError Unit) → Prop
  | some result => ∃ answer, result = e.sendResult m ticket answer
  | none => ∃ fraction, e.config.transmission.initialTimeout? fraction = none

/-- What a send has done by the time it is over, told by its value. -/
def SendDid (destination : SocketAddress) (m : Message) (ticket : Option Ticket)
    (e : Endpoint) (actions : List Action) (e' : Endpoint) :
    Option (Except SendError Unit) → Prop
  | some (.ok ()) =>
      ∃ text, m.writtenIn e.config.writeBufferSize = .ok text ∧
        sendings actions = [⟨destination, text, .ok ()⟩] ∧ announced actions = [] ∧
        if m.isConfirmable then
          ∃ now timeout, e'.inFlight.entries = e.inFlight.entries ++
            [(e.inFlight.nextSeq,
              ⟨m.id, destination, text, ticket, 1, ⟨now, timeout⟩⟩)]
        else e'.inFlight = e.inFlight
  | some (.error (.transport cause)) =>
      ∃ text, m.writtenIn e.config.writeBufferSize = .ok text ∧
        sendings actions = [⟨destination, text, .error cause⟩] ∧
        announced actions =
          (ticket.map fun t => ⟨t, m.id, .failed cause⟩).toList ∧
        e'.inFlight.entries = e.inFlight.entries
  | _ =>
      sendings actions = [] ∧ announced actions = [] ∧ e'.inFlight = e.inFlight

/-- A message that is not tracked has no ticket. -/
theorem ticket_eq_none
    (hticket : ¬(ticket.isSome && !m.isConfirmable) = true)
    (hconfirmable : ¬m.isConfirmable = true) : ticket = none := by
  rw [Bool.not_eq_true] at hconfirmable
  rw [hconfirmable, Bool.not_false, Bool.and_true] at hticket
  exact Option.not_isSome_iff_eq_none.mp hticket

theorem Fits.sendDid (he : e.Fits config) {actions : List Action}
    {value : Option (Except SendError Unit)}
    (h : Call.Sends destination m ticket e actions e' value) :
    SendDid destination m ticket e actions e' value := by
  have hwritten {text : Bytes} (hserialize : (e.serialize m).2 = .ok text) :
      m.writtenIn e.config.writeBufferSize = .ok text :=
    he.writtenIn_eq.trans hserialize
  have hqueue : (e.serialize m).1.inFlight = e.inFlight := rfl
  cases h with
  | refused hticket => exact ⟨rfl, rfl, rfl⟩
  | unwritten hticket hfailed => exact ⟨rfl, rfl, rfl⟩
  | @once text result hticket hserialize hconfirmable =>
      obtain rfl := ticket_eq_none hticket hconfirmable
      cases result with
      | ok =>
          refine ⟨text, hwritten hserialize, rfl, rfl, ?_⟩
          rw [if_neg hconfirmable]
          exact hqueue
      | error cause =>
          exact ⟨text, hwritten hserialize, rfl, rfl, by rw [hqueue]⟩
  | @tracked text actions _ _ hserialize hconfirmable htracks =>
      cases htracks with
      | endless htimeout => exact ⟨rfl, rfl, rfl⟩
      | taken htimeout hadd =>
          obtain ⟨-, rfl⟩ := InFlight.add_eq_error.mp hadd
          exact ⟨rfl, rfl, rfl⟩
      | @launched fraction timeout now q htimeout hadd =>
          refine ⟨text, hwritten hserialize, rfl, rfl, ?_⟩
          rw [if_pos hconfirmable]
          exact ⟨now, timeout, (InFlight.entries_add hadd).1⟩
      | @stranded fraction timeout now q cause htimeout hadd =>
          have hmem : (e.inFlight.nextSeq,
              Entry.new m.id destination text ticket now timeout) ∈ q.entries := by
            rw [(InFlight.entries_add hadd).1]
            exact List.mem_append_right _ List.mem_cons_self
          have hget : q.get? m.id =
              some (.new m.id destination text ticket now timeout) :=
            (he.sound.add hadd).get?_of_mem hmem
          refine ⟨text, hwritten hserialize, ?_, ?_, he.sound.entries_remove_add hadd⟩
          · exact Call.filterMap_append_ending (.updated :: Call.launch _ _ _ _ _) q
              m.id _ rfl rfl rfl fun _ => rfl
          · rw [← List.cons_append, announced_append, Call.ending, hget]
            exact announced_told _

section Result

variable (he : e.Fits config)

include he

/-- A message that may be tracked and can be written is refused only if its id is in
flight. -/
theorem Fits.sendResult_tracked {text : Bytes}
    (hserialize : (e.serialize m).2 = .ok text)
    (hconfirmable : m.isConfirmable = true) (answer : Except TransportError Unit) :
    e.sendResult m ticket answer =
      if e.inFlight.contains m.id then .error (.messageIdInFlight m.id)
      else answer.mapError .transport := by
  rw [sendResult, he.writtenIn_eq, hserialize]
  simp only [hconfirmable, Bool.not_true, Bool.and_false, Bool.false_eq_true,
    if_false, Bool.true_and]

theorem Fits.sendResult_once {text : Bytes}
    (hticket : ¬(ticket.isSome && !m.isConfirmable) = true)
    (hserialize : (e.serialize m).2 = .ok text)
    (hconfirmable : ¬m.isConfirmable = true) (answer : Except TransportError Unit) :
    e.sendResult m ticket answer = answer.mapError .transport := by
  rw [sendResult, if_neg hticket, he.writtenIn_eq, hserialize]
  simp only [hconfirmable, Bool.false_and, Bool.false_eq_true, if_false]

theorem Fits.sendResult_unwritten {err : CodecError}
    (hticket : ¬(ticket.isSome && !m.isConfirmable) = true)
    (hfailed : (e.serialize m).2 = .error err) (answer : Except TransportError Unit) :
    e.sendResult m ticket answer = .error (.codec err) := by
  rw [sendResult, if_neg hticket, he.writtenIn_eq, hfailed]

theorem Fits.sendEnds {actions : List Action}
    {value : Option (Except SendError Unit)}
    (h : Call.Sends destination m ticket e actions e' value) :
    SendEnds m ticket e value := by
  cases h with
  | refused hticket => exact ⟨.ok (), (if_pos hticket).symm⟩
  | unwritten hticket hfailed =>
      exact ⟨.ok (), (he.sendResult_unwritten hticket hfailed _).symm⟩
  | @once text result hticket hserialize hconfirmable =>
      exact ⟨result, (he.sendResult_once hticket hserialize hconfirmable _).symm⟩
  | @tracked text actions _ _ hserialize hconfirmable htracks =>
      have hresult (answer : Except TransportError Unit) :
          e.sendResult m ticket answer = _ :=
        he.sendResult_tracked hserialize hconfirmable answer
      cases htracks with
      | @endless fraction htimeout => exact ⟨fraction, htimeout⟩
      | taken htimeout hadd =>
          obtain ⟨htaken, rfl⟩ := InFlight.add_eq_error.mp hadd
          exact ⟨.ok (), ((hresult _).trans (if_pos htaken)).symm⟩
      | launched htimeout hadd =>
          have hended := hresult (.ok ())
          rw [if_neg (InFlight.not_contains_of_add (q := e.inFlight) hadd)] at hended
          exact ⟨.ok (), hended.symm⟩
      | @stranded fraction timeout now q cause htimeout hadd =>
          have hended := hresult (.error cause)
          rw [if_neg (InFlight.not_contains_of_add (q := e.inFlight) hadd)] at hended
          exact ⟨.error cause, hended.symm⟩

/-- A send may end as any answer of the socket has it. -/
theorem Fits.exists_sends {fraction : Float}
    (htimeout : config.transmission.initialTimeout? fraction ≠ none)
    (destination : SocketAddress) (m : Message) (ticket : Option Ticket)
    (answer : Except TransportError Unit) :
    ∃ actions e', Call.Sends destination m ticket e actions e'
      (some (e.sendResult m ticket answer)) := by
  obtain ⟨timeout, htimeout⟩ := Option.ne_none_iff_exists'.mp htimeout
  rw [← he.config_eq] at htimeout
  by_cases hticket : (ticket.isSome && !m.isConfirmable) = true
  · rw [sendResult, if_pos hticket]
    exact ⟨_, _, .refused hticket⟩
  cases hserialize : (e.serialize m).2 with
  | error err =>
      rw [he.sendResult_unwritten hticket hserialize]
      exact ⟨_, _, .unwritten hticket hserialize⟩
  | ok text =>
      by_cases hconfirmable : m.isConfirmable = true
      · rw [he.sendResult_tracked hserialize hconfirmable]
        cases hadd : e.inFlight.add m.id destination text ticket ⟨0⟩ timeout with
        | error err =>
            obtain ⟨htaken, rfl⟩ := InFlight.add_eq_error.mp hadd
            rw [if_pos htaken]
            exact ⟨_, _, .tracked hserialize hconfirmable (.taken htimeout hadd)⟩
        | ok q =>
            rw [if_neg (InFlight.not_contains_of_add hadd)]
            cases answer with
            | ok =>
                exact ⟨_, _, .tracked hserialize hconfirmable
                  (.launched htimeout hadd)⟩
            | error cause =>
                exact ⟨_, _, .tracked hserialize hconfirmable
                  (.stranded htimeout hadd)⟩
      · rw [he.sendResult_once hticket hserialize hconfirmable]
        exact ⟨_, _, .once hticket hserialize hconfirmable⟩

end Result

/-- In every state that calls lead to, a send that nothing else comes between has done
all that its value says or nothing, whatever its message, its ticket and the answer of
the socket are. It is over unless no timeout can be told. -/
theorem Reached.send_allOrNothing (h : e.Reached config)
    (destination : SocketAddress) (m : Message) (ticket : Option Ticket) :
    (∀ actions e' value,
      (Call.send destination m ticket).Runs e actions e' value →
        SendDid destination m ticket e actions e' value ∧
        SendEnds m ticket e value) ∧
    ∀ fraction, config.transmission.initialTimeout? fraction ≠ none →
      ∀ answer, ∃ actions e', (Call.send destination m ticket).Runs e actions e'
        (some (e.sendResult m ticket answer)) := by
  refine ⟨?_, ?_⟩
  · intro actions e' value hrun
    have hsends := Call.runs_send_iff.mp hrun
    exact ⟨h.fits.sendDid hsends, h.fits.sendEnds hsends⟩
  · intro fraction htimeout answer
    obtain ⟨actions, e', hsends⟩ :=
      h.fits.exists_sends htimeout destination m ticket answer
    exact ⟨actions, e', Call.runs_send_iff.mpr hsends⟩

open Interrupted in
/-- A third message cannot be sent: the two before it are left in flight, and the write
buffer holds another message afterwards. -/
theorem send_allOrNothing_bothInFlight :
    (launchedWith bothInFlight 3).Reached World.sampleEndpoint.config ∧
    World.sampleEndpoint.config.transmission.initialTimeout? 0.0 ≠ none ∧
    ∃ actions e',
      (Call.send delayedEntry.destination (.confirmable ⟨1⟩ 4 .empty .empty none)
        (some 9)).Runs (launchedWith bothInFlight 3) actions e'
          (some (.error (.transport .unreachable))) ∧
      sendings actions =
        [⟨delayedEntry.destination, [64, 1, 0, 4], .error .unreachable⟩] ∧
      announced actions = [⟨9, 4, .failed .unreachable⟩] ∧
      e'.inFlight.entries = bothInFlight.entries := by
  have htimeout :
      World.sampleEndpoint.config.transmission.initialTimeout? 0.0 ≠ none := by
    decide +kernel
  obtain ⟨hall, hexists⟩ := reached_bothInFlight.send_allOrNothing
    delayedEntry.destination (.confirmable ⟨1⟩ 4 .empty .empty none) (some 9)
  obtain ⟨actions, e', hrun⟩ := hexists 0.0 htimeout (.error .unreachable)
  have hresult : (launchedWith bothInFlight 3).sendResult
      (.confirmable ⟨1⟩ 4 .empty .empty none) (some 9) (.error .unreachable) =
        .error (.transport .unreachable) := rfl
  rw [hresult] at hrun
  obtain ⟨⟨text, hwritten, hsent, htold, hentries⟩, -⟩ := hall _ _ _ hrun
  obtain rfl : [64, 1, 0, 4] = text := Except.ok.inj hwritten
  exact ⟨reached_bothInFlight, htimeout, actions, e', hrun, hsent, htold, hentries⟩

end Endpoint

end Coap
