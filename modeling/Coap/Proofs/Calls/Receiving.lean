import Coap.Proofs.Calls.Reached

/-!
# What a receive makes of a datagram

The read buffer is used for one datagram after the other, and it is one byte larger
than what is accepted. What it held before is overwritten as far as the new datagram
reaches and cut off behind it, so a receive gives the message in its own datagram. If
that message answers one that is in flight, the latter is taken out; nothing else
changes the messages in flight, and nothing is ever sent.

## Main results

* `messageIn_eq_some_iff` — the message that a receive gives.
* `Endpoint.Fits.receiveDid` — what a receive does to the messages in flight, and whom
  it tells.
-/

namespace Coap

/-- What is taken out under an id is the entry under the number of that id. -/
theorem InFlight.Sound.entries_remove_of_mem {q : InFlight} (hq : q.Sound) {seq : Nat}
    {entry : Entry} (h : (seq, entry) ∈ q.entries) :
    (q.remove entry.id).2.entries = q.entries.filter (·.1 != seq) := by
  rw [hq.entries_remove]
  apply List.filter_congr
  intro p hp
  rw [Bool.eq_iff_iff, bne_iff_ne, bne_iff_ne, not_iff_not]
  constructor
  · intro hid
    rw [hq.pair_unique hp h hid]
  · intro hseq
    have hpair : (seq, p.2) ∈ q.entries := hseq ▸ hp
    rw [hq.entry_unique hpair h]

namespace Call

variable {config : Config} {datagram : Bytes} {sender : SocketAddress} {m : Message}

/-- A receive gives the message in a datagram that fits the read buffer, is well-formed
and of the version spoken here. -/
theorem messageIn_eq_some_iff :
    messageIn config (.ok (some (datagram, sender))) = some m ↔
      datagram.length ≤ config.readBufferSize ∧
        ∃ read, Message.read datagram = .ok read ∧
          read.header.version = Header.version1 ∧ m = read.withSender sender := by
  rw [messageIn]
  by_cases hlength : datagram.length ≤ config.readBufferSize
  · rw [if_pos hlength, Endpoint.messageOf]
    cases hread : Message.read datagram with
    | error err => simp [hlength]
    | ok read =>
        by_cases hversion : read.header.version = Header.version1
        · simp [hlength, hversion, eq_comm]
        · simp [hlength, hversion]
  · rw [if_neg hlength]
    simp [hlength]

theorem answerIn_eq_some_iff {r : Except TransportError Reception} :
    answerIn config r = some m ↔
      messageIn config r = some m ∧ (m.isAck || m.isReset) = true :=
  Option.filter_eq_some_iff

/-- What a receive returns that was given this reception, and which actions it takes. -/
theorem Runs.receiveNext_reception {e e' : Endpoint} {actions : List Action}
    {r : Except TransportError Reception}
    {value : Option (Except TransportError (Option Message))} (he : e.Fits config)
    (h : receiveNext.Runs e actions e' value) (hreceived : .received r ∈ actions) :
    value = some (r.map fun _ => messageIn config r) ∧
      match answerIn config r with
      | none => actions = wait r ∧ e' = e.afterWait r
      | some m =>
          actions = wait r ++ ending e.inFlight m.id (Endpoint.outcomeOf m) ∧
            e' = ((e.afterWait r).dequeue m.id).1 := by
  obtain ⟨r', rfl, hrest⟩ := (runs_receiveNext_iff he).mp h
  have hsame : r = r' := by
    cases hanswer : answerIn config r' with
    | none =>
        rw [hanswer] at hrest
        rw [hrest.1] at hreceived
        exact received_mem_wait_iff.mp hreceived
    | some m =>
        rw [hanswer] at hrest
        rw [hrest.1, List.mem_append] at hreceived
        rcases hreceived with hwait | hending
        · exact received_mem_wait_iff.mp hwait
        · exact absurd hending (received_notMem_ending _ _ _ r)
  subst hsame
  exact ⟨rfl, hrest⟩

/-- What it does to the messages in flight, and whom it tells. -/
theorem Runs.receiveNext_of_received {e e' : Endpoint} {actions : List Action}
    {r : Except TransportError Reception}
    {value : Option (Except TransportError (Option Message))} (he : e.Fits config)
    (h : receiveNext.Runs e actions e' value) (hreceived : .received r ∈ actions) :
    value = some (r.map fun _ => messageIn config r) ∧ sendings actions = [] ∧
      match answerIn config r with
      | none => e'.inFlight = e.inFlight ∧ announced actions = []
      | some m => e'.inFlight = (e.inFlight.remove m.id).2 ∧
          announced actions = ((e.inFlight.get? m.id).bind
            (·.notify (Endpoint.outcomeOf m))).toList := by
  have hsent : sendings (wait r) = [] := by
    unfold wait
    split <;> rfl
  have htold : announced (wait r) = [] := by
    unfold wait
    split <;> rfl
  obtain ⟨hvalue, hrest⟩ := h.receiveNext_reception he hreceived
  refine ⟨hvalue, ?_⟩
  cases hanswer : answerIn config r with
  | none =>
      rw [hanswer] at hrest
      obtain ⟨rfl, rfl⟩ := hrest
      exact ⟨hsent, e.inFlight_afterWait r, htold⟩
  | some m =>
      rw [hanswer] at hrest
      obtain ⟨rfl, rfl⟩ := hrest
      refine ⟨?_, ?_, ?_⟩
      · exact (filterMap_append_ending _ _ _ _ rfl rfl rfl fun _ => rfl).trans hsent
      · show ((e.afterWait r).inFlight.remove m.id).2 = _
        rw [e.inFlight_afterWait r]
      · rw [announced_append, htold]
        exact announced_told _

/-- The locks that it takes. -/
theorem Runs.receiveNext_acquired {e e' : Endpoint} {actions : List Action}
    {r : Except TransportError Reception}
    {value : Option (Except TransportError (Option Message))} (he : e.Fits config)
    (h : receiveNext.Runs e actions e' value) (hreceived : .received r ∈ actions)
    {lock : Lock} (hacquired : .acquired lock ∈ actions) :
    lock = .readBuffer ∨ lock = .inFlight ∧ ∃ m, answerIn config r = some m := by
  have hwait (hmem : .acquired lock ∈ wait r) : lock = .readBuffer := by
    unfold wait at hmem
    split at hmem <;> simpa using hmem
  obtain ⟨-, hrest⟩ := h.receiveNext_reception he hreceived
  cases hanswer : answerIn config r with
  | none =>
      rw [hanswer] at hrest
      exact .inl (hwait (hrest.1 ▸ hacquired))
  | some m =>
      rw [hanswer] at hrest
      rw [hrest.1, List.mem_append] at hacquired
      rcases hacquired with hmem | hmem
      · exact .inl (hwait hmem)
      · refine .inr ⟨?_, m, rfl⟩
        simpa [ending] using hmem

/-- Any reception may be received. -/
theorem exists_receiveNext {e : Endpoint} (he : e.Fits config)
    (r : Except TransportError Reception) :
    ∃ actions e', receiveNext.Runs e actions e'
        (some (r.map fun _ => messageIn config r)) ∧
      .received r ∈ actions := by
  have hmem : .received r ∈ wait r := received_mem_wait_iff.mpr rfl
  cases hanswer : answerIn config r with
  | none =>
      refine ⟨wait r, e.afterWait r, (runs_receiveNext_iff he).mpr ⟨r, rfl, ?_⟩, hmem⟩
      rw [hanswer]
      exact ⟨rfl, rfl⟩
  | some m =>
      refine ⟨wait r ++ ending e.inFlight m.id (Endpoint.outcomeOf m),
        ((e.afterWait r).dequeue m.id).1, (runs_receiveNext_iff he).mpr ⟨r, rfl, ?_⟩,
        List.mem_append_left _ hmem⟩
      rw [hanswer]
      exact ⟨rfl, rfl⟩

end Call

namespace Endpoint

variable {config : Config} {datagram : Bytes} {sender : SocketAddress} {m : Message}
  {e e' : Endpoint} {actions : List Action} {seq : Nat} {entry : Entry}

/-- The message answers the one in flight under this number. -/
structure Answered (e : Endpoint) (m : Message) (seq : Nat) (entry : Entry) : Prop where
  answers : (m.isAck || m.isReset) = true
  mem : (seq, entry) ∈ e.inFlight.entries
  id_eq : entry.id = m.id

/-- A receive that was given this datagram, in this state, and took these actions, has
given this message and left that state. -/
structure ReceiveDid (config : Config) (datagram : Bytes) (sender : SocketAddress)
    (e : Endpoint) (actions : List Action) (e' : Endpoint)
    (message : Option Message) : Prop where
  /-- The message is read from the datagram alone. -/
  message_eq : ∀ m, message = some m ↔
    datagram.length ≤ config.readBufferSize ∧
      ∃ read, Message.read datagram = .ok read ∧
        read.header.version = Header.version1 ∧ m = read.withSender sender
  /-- Nothing is sent. -/
  sent : sendings actions = []
  /-- A message that is answered is gone, and the holder of its ticket is told, if
  there is one. -/
  answered : ∀ m seq entry, message = some m → e.Answered m seq entry →
    e'.inFlight.entries = e.inFlight.entries.filter (·.1 != seq) ∧
      announced actions = (entry.ticket.map fun ticket =>
        ⟨ticket, entry.id, if m.isAck then .acknowledged else .rejected⟩).toList
  /-- Nothing else is taken out, and nobody else is told. -/
  unanswered : (∀ m, message = some m → ∀ seq entry, ¬e.Answered m seq entry) →
    e'.inFlight = e.inFlight ∧ announced actions = []

theorem Fits.receiveDid (he : e.Fits config)
    {value : Option (Except TransportError (Option Message))}
    (h : Call.receiveNext.Runs e actions e' value)
    (hreceived : .received (.ok (some (datagram, sender))) ∈ actions) :
    ∃ message, value = some (.ok message) ∧
      ReceiveDid config datagram sender e actions e' message := by
  obtain ⟨rfl, hsent, heffect⟩ := h.receiveNext_of_received he hreceived
  refine ⟨_, rfl, ?_, hsent, ?_, ?_⟩
  · intro m
    exact Call.messageIn_eq_some_iff
  · intro m seq entry hmessage hanswered
    rw [Call.answerIn_eq_some_iff.mpr ⟨hmessage, hanswered.answers⟩] at heffect
    obtain ⟨hqueue, htold⟩ := heffect
    rw [← hanswered.id_eq] at hqueue htold
    rw [he.sound.get?_of_mem hanswered.mem] at htold
    rw [hqueue]
    exact ⟨he.sound.entries_remove_of_mem hanswered.mem, htold⟩
  · intro hnone
    cases hanswer : Call.answerIn config (.ok (some (datagram, sender))) with
    | none =>
        rw [hanswer] at heffect
        exact heffect
    | some m =>
        obtain ⟨hmessage, hanswers⟩ := Call.answerIn_eq_some_iff.mp hanswer
        have hget : e.inFlight.get? m.id = none := by
          refine he.sound.get?_eq_none_iff.mpr ?_
          intro p hp hid
          exact hnone m hmessage p.1 p.2 ⟨hanswers, hp, hid⟩
        rw [hanswer] at heffect
        obtain ⟨hqueue, htold⟩ := heffect
        rw [hget] at htold
        exact ⟨hqueue.trans (he.sound.snd_remove_of_get?_eq_none hget), htold⟩

end Endpoint

end Coap
