import Coap.Proofs.Outcome.Ledger
import Coap.Proofs.Runs.Sections

/-!
# What a failed send ends

A send whose first transmission fails takes a message out of flight. It has not
held the lock since it queued its own message, and looks for it by its id. So
what it finds need not be its own: an answer, or a scan, may have ended that one
in the meantime, and another send may have queued a message with the id since.

## Main results

* `Recorded.takesOwn_iff` — a send that has given up on a message gave up on its
  own exactly if nobody else has taken its own out of flight.
* `failed_send_ends_own_iff` — this in every reachable world, with all that a
  failed send takes and tells.
* `failed_send_ends_other` — a run in which a failed send ends a message of
  another send, which was sent without failure.
-/

namespace Coap

/-- A thread has taken nothing out of flight but what it has queued itself. -/
def Thread.TakesOwn (th : Thread) : Prop :=
  ∀ p ∈ th.taken, Slot.of p ∈ slots th.queued

/-- What is known of the books of a send. -/
theorem Thread.Recorded.ofSend {th : Thread} {q : InFlight} (h : th.Recorded q)
    (hsends : th.operation.Sends) :
    ∃ gone, Books.OfSend th.rest.waits ⟨th.queued, th.taken, th.told, gone⟩ ∧
      ∀ seq ∈ gone, seq ∉ q.seqs := by
  obtain ⟨gone, hpermits, hgone⟩ := h.permits
  refine ⟨gone, ?_, hgone⟩
  cases hop : th.operation with
  | send destination m ticket => rw [hop] at hpermits; exact hpermits
  | request r => rw [hop] at hpermits; exact hpermits
  | receive => rw [hop] at hsends; exact hsends.elim
  | poll => rw [hop] at hsends; exact hsends.elim
  | checkQueues => rw [hop] at hsends; exact hsends.elim

namespace World

variable {w : World} {th : Thread}

namespace Recorded

variable (h : w.Recorded) (hth : th ∈ w.threads)

include h hth

/-- What a thread takes out of flight that is not its own was queued by another
thread. -/
theorem other_of_not_takesOwn (hother : ¬th.TakesOwn) :
    ∃ p ∈ th.taken, ∃ th' ∈ w.threads, th' ≠ th ∧
      Slot.of p ∈ slots th'.queued := by
  obtain ⟨p, hp, hnot⟩ : ∃ p ∈ th.taken, Slot.of p ∉ slots th.queued := by
    simpa only [Thread.TakesOwn, not_forall, exists_prop] using hother
  obtain ⟨p', hp', hslot⟩ := mem_slots.mp (h.balanced.slot_of_taken hth hp)
  obtain ⟨th', hth', hqueued⟩ := List.mem_flatMap.mp hp'
  have hmem : Slot.of p ∈ slots th'.queued := mem_slots.mpr ⟨p', hqueued, hslot⟩
  refine ⟨p, hp, th', hth', ?_, hmem⟩
  intro hsame
  exact hnot (hsame ▸ hmem)

variable (hsends : th.operation.Sends)

include hsends

/-- A send takes at most one message out of flight. That has the id of its own,
which is no longer in flight then. -/
theorem taken_of_send {p : Nat × Entry} (hp : p ∈ th.taken) :
    th.taken = [p] ∧ ∃ own, th.queued = [own] ∧ p.2.id = own.2.id ∧
      own.1 ∉ w.endpoint.inFlight.seqs := by
  obtain ⟨gone, hbooks, hgone⟩ := (h.threads th hth).ofSend hsends
  obtain ⟨hone, own, hown, hid, hmem⟩ := hbooks.taken p hp
  exact ⟨hone, own, hown, hid, hgone _ hmem⟩

/-- A send tells nothing but that what it has taken has failed. -/
theorem told_of_send {n : Notification} (hn : n ∈ th.told) :
    ∃ cause, ∃ p ∈ th.taken, p.2.notify (.failed cause) = some n := by
  obtain ⟨gone, hbooks, -⟩ := (h.threads th hth).ofSend hsends
  exact hbooks.told n hn

/-- A send that reports a transport error has told what it has taken out of
flight of this error, and its own message is no longer in flight. -/
theorem told_of_failure {result : Result} {cause : TransportError}
    (hrest : th.rest = .done result) (hcause : result.failure? = some cause) :
    th.told = th.taken.filterMap (fun p => p.2.notify (.failed cause)) ∧
      ∀ own ∈ th.queued, own.1 ∉ w.endpoint.inFlight.seqs := by
  obtain ⟨gone, hbooks, hgone⟩ := h.threads th hth
  rw [hrest] at hbooks
  have hended := hbooks.2 hsends
  rw [hcause] at hended
  exact ⟨hended.1, fun own hown => (hgone _ (hended.2 own hown)).2⟩

/-- A send that has given up on a message gave up on its own exactly if nobody
else has taken its own out of flight. -/
theorem takesOwn_iff :
    th.TakesOwn ↔ th.taken = [] ∨
      ∀ own ∈ th.queued, ∀ th' ∈ w.threads, th'.Took own.1 → th' = th := by
  constructor
  · intro htakes
    by_cases hnone : th.taken = []
    · exact .inl hnone
    · right
      intro own hown th' hth' htook
      obtain ⟨p, hp⟩ := List.exists_mem_of_ne_nil _ hnone
      have hsame : th.Took own.1 := by
        obtain ⟨-, own', hqueued, -⟩ := h.taken_of_send hth hsends hp
        rw [hqueued, List.mem_singleton] at hown
        have hslot := htakes p hp
        rw [hqueued] at hslot
        obtain ⟨p', hp', heq⟩ := mem_slots.mp hslot
        rw [List.mem_singleton.mp hp', ← hown] at heq
        have hseq : own.1 = p.1 := congrArg Slot.seq heq
        exact List.mem_map.mpr ⟨p, hp, hseq.symm⟩
      exact h.balanced.took_unique hth' hth htook hsame
  · intro hnobody p hp
    obtain ⟨hone, own, hqueued, -, hgone⟩ := h.taken_of_send hth hsends hp
    have hown : own ∈ th.queued := by
      rw [hqueued]
      exact List.mem_singleton_self own
    have hall : own ∈ w.queued := List.mem_flatMap.mpr ⟨th, hth, hown⟩
    have hnobody := hnobody.resolve_left (List.ne_nil_of_mem hp)
    -- its own message is gone, so somebody took it
    obtain ⟨th', hth', htook⟩ := h.balanced.took_of_notMem_seqs hall hgone
    rw [hnobody own hown th' hth' htook] at htook
    obtain ⟨p', hp', hseq⟩ := List.mem_map.mp htook
    rw [hone, List.mem_singleton] at hp'
    rw [hp'] at hseq
    rw [h.balanced.slot_eq hall (h.balanced.slot_of_taken hth hp) hseq]
    exact mem_slots.mpr ⟨own, hown, rfl⟩

end Recorded

/-! ## Failed sends -/

/-- A send whose first transmission fails ends its own message and no other
exactly if no other call has taken its message out of flight before. Otherwise
it ends nothing, or a message with the same id that another call has queued. It
ends at most one message, and its own is gone then; it tells nothing but that
what it ended has failed, and all of that by the time it reports the error. -/
theorem failed_send_ends_own_iff (h : w.Reachable) (hth : th ∈ w.threads)
    (hsends : th.operation.Sends) :
    (th.TakesOwn ↔ th.taken = [] ∨
      ∀ own ∈ th.queued, ∀ th' ∈ w.threads, th'.Took own.1 → th' = th) ∧
    (¬th.TakesOwn → ∃ p ∈ th.taken, ∃ th' ∈ w.threads, th' ≠ th ∧
      Slot.of p ∈ slots th'.queued) ∧
    (∀ p ∈ th.taken, th.taken = [p] ∧ ∃ own, th.queued = [own] ∧
      p.2.id = own.2.id ∧ own.1 ∉ w.endpoint.inFlight.seqs) ∧
    (∀ n ∈ th.told, ∃ cause, ∃ p ∈ th.taken,
      p.2.notify (.failed cause) = some n) ∧
    ∀ result cause, th.rest = .done result → result.failure? = some cause →
      th.told = th.taken.filterMap (fun p => p.2.notify (.failed cause)) ∧
      ∀ own ∈ th.queued, own.1 ∉ w.endpoint.inFlight.seqs ∧
        ∃ th' ∈ w.threads, th'.Took own.1 := by
  have hrecorded := h.recorded
  refine ⟨hrecorded.takesOwn_iff hth hsends,
    hrecorded.other_of_not_takesOwn hth, ?_, ?_, ?_⟩
  · exact fun p hp => hrecorded.taken_of_send hth hsends hp
  · exact fun n hn => hrecorded.told_of_send hth hsends hn
  · intro result cause hrest hcause
    obtain ⟨htold, hgone⟩ := hrecorded.told_of_failure hth hsends hrest hcause
    refine ⟨htold, ?_⟩
    intro own hown
    have hqueued : own ∈ w.queued := List.mem_flatMap.mpr ⟨th, hth, hown⟩
    exact ⟨hgone own hown,
      hrecorded.balanced.took_of_notMem_seqs hqueued (hgone own hown)⟩

/-! ## A message id that is used again -/

/-- Where the messages go. -/
def samplePeer : SocketAddress := .ofIp (.v4 ⟨127, 0, 0, 1⟩) 5683

/-- The send of a confirmable message with the id 2. -/
def sendOf (ticket : Ticket) : Operation :=
  .send samplePeer (.confirmable ⟨1⟩ 2 .empty .empty none) (some ticket)

/-- The entry of this message, with the shortest first wait. -/
def entryOf (ticket : Ticket) : Entry :=
  .new 2 samplePeer [64, 1, 0, 2] (some ticket) ⟨0⟩
    ((sampleEndpoint.config.transmission.initialTimeout? 0.0).getD (.ofNanos 0))

/-- The endpoint with the first message in flight. -/
def firstQueued : Endpoint :=
  { sampleEndpoint with
    inFlight := ⟨[(0, entryOf 7)], [(2, 0)], 1⟩
    writeBuffer := ⟨64 :: 1 :: 0 :: 2 :: List.replicate 60 0, 4, by decide⟩ }

/-- The endpoint when it has read the acknowledgement of a message with the
id 2. -/
def answerRead : Endpoint × Option Message :=
  firstQueued.openReadBuffer.1.accept firstQueued.openReadBuffer.2 [96, 0, 0, 2]
    samplePeer

/-- The endpoint with these messages in flight after that. -/
def reusedWith (q : InFlight) : Endpoint := { answerRead.1 with inFlight := q }

/-- The first send has queued its message and waits for the socket. -/
def firstWaits : Thread where
  operation := sendOf 7
  rest := Result.sent <$> (do
    match ← Call.sendDatagram samplePeer [64, 1, 0, 2] with
    | .ok () => return .ok ()
    | .error cause => Call.giveUp 2 cause)
  queued := [(0, entryOf 7)]
  taken := []
  told := []

/-- A receive that has read a datagram, with what it has read. -/
def received (read : Except TransportError (Option Message)) : Thread :=
  { Thread.start .receive with
    rest := Result.received <$> (do
      match read with
      | .error cause => return .error cause
      | .ok none => return .ok none
      | .ok (some m) =>
          if m.isAck || m.isReset then Call.settle m
          return .ok (some m)) }

/-- The acknowledgement has ended the first message. -/
def firstAnswered : Thread where
  operation := .receive
  rest := .done (.received (.ok answerRead.2))
  queued := []
  taken := [(0, entryOf 7)]
  told := [⟨7, 2, .acknowledged⟩]

/-- The second message has been sent. -/
def secondSent : Thread where
  operation := sendOf 8
  rest := .done (.sent (.ok ()))
  queued := [(1, entryOf 8)]
  taken := []
  told := []

/-- The socket has refused the first message. -/
def firstFailed : Thread where
  operation := sendOf 7
  rest := .done (.sent (.error (.transport .unreachable)))
  queued := [(0, entryOf 7)]
  taken := [(1, entryOf 8)]
  told := [⟨8, 2, .failed .unreachable⟩]

set_option maxRecDepth 100000 in
theorem goes_firstWaits : (Thread.start (sendOf 7)).Goes none sampleEndpoint
    none firstQueued firstWaits := by
  refine .step (.update _ _ _) rfl ?_
  refine .step (.askFraction _ _ 0.0) rfl ?_
  refine .step (.update _ _ _) rfl ?_
  refine .step (.acquire _ _ _) ⟨rfl, rfl⟩ ?_
  refine .step (.askTime _ _ ⟨0⟩) rfl ?_
  refine .step (.update _ _ _) rfl ?_
  refine .step (.release _ _ _) ⟨rfl, rfl⟩ ?_
  exact .here _ _ _

theorem goes_received : (Thread.start .receive).Goes none firstQueued none
    answerRead.1 (received (.ok answerRead.2)) := by
  refine .step (.acquire _ _ _) ⟨rfl, rfl⟩ ?_
  refine .step (.update _ _ _) rfl ?_
  refine .step (.receive _ _ (.ok (some ([96, 0, 0, 2], samplePeer)))) rfl ?_
  refine .step (.update _ _ _) rfl ?_
  refine .step (.release _ _ _) ⟨rfl, rfl⟩ ?_
  exact .here _ _ _

theorem goes_firstAnswered : (received (.ok answerRead.2)).Goes none answerRead.1 none
    (reusedWith ⟨[], [], 1⟩) firstAnswered := by
  have hread : answerRead.2 =
      some ((Message.ack .empty 2).withSender samplePeer) := by
    rw [answerRead, Endpoint.accept_snd]
    decide +kernel
  rw [firstAnswered, hread]
  refine .step (.acquire _ _ _) ⟨rfl, rfl⟩ ?_
  refine .step (.update _ _ _) rfl ?_
  refine .step (.release _ _ _) ⟨rfl, rfl⟩ ?_
  refine .step (.tell _ _ _) rfl ?_
  exact .here _ _ _

set_option maxRecDepth 100000 in
theorem goes_secondSent : (Thread.start (sendOf 8)).Goes none
    (reusedWith ⟨[], [], 1⟩) none
    (reusedWith ⟨[(1, entryOf 8)], [(2, 1)], 2⟩) secondSent := by
  refine .step (.update _ _ _) rfl ?_
  refine .step (.askFraction _ _ 0.0) rfl ?_
  refine .step (.update _ _ _) rfl ?_
  refine .step (.acquire _ _ _) ⟨rfl, rfl⟩ ?_
  refine .step (.askTime _ _ ⟨0⟩) rfl ?_
  refine .step (.update _ _ _) rfl ?_
  refine .step (.release _ _ _) ⟨rfl, rfl⟩ ?_
  refine .step (.transmit _ _ _ _ (.ok ())) rfl ?_
  exact .here _ _ _

theorem goes_firstFailed : firstWaits.Goes none
    (reusedWith ⟨[(1, entryOf 8)], [(2, 1)], 2⟩) none
    (reusedWith ⟨[], [], 2⟩) firstFailed := by
  refine .step (.transmit _ _ _ _ (.error .unreachable)) rfl ?_
  refine .step (.acquire _ _ _) ⟨rfl, rfl⟩ ?_
  refine .step (.update _ _ _) rfl ?_
  refine .step (.release _ _ _) ⟨rfl, rfl⟩ ?_
  refine .step (.tell _ _ _) rfl ?_
  exact .here _ _ _

/-- The first message is acknowledged while its send still waits. The second
send uses its id again, and then the first one fails. -/
def reusedWorld : World :=
  ⟨reusedWith ⟨[], [], 2⟩, fun _ => none,
    [firstFailed, firstAnswered, secondSent]⟩

theorem reachable_reusedWorld : reusedWorld.Reachable := by
  have hnew : Endpoint.new sampleEndpoint.config 1 = .ok sampleEndpoint := rfl
  have hfresh : ∀ ticket ∈ [7], (sendOf 8).ticket ≠ some ticket := by decide
  have h := (Reachable.start hnew).step (.start (sendOf 7) nofun)
  have h := Reachable.goes [] [] goes_firstWaits h
  have h := h.step (.start .receive fun _ _ => nofun)
  have h := Reachable.goes [firstWaits] [] goes_received h
  have h := Reachable.goes [firstWaits] [] goes_firstAnswered h
  have h := h.step (.start (sendOf 8) hfresh)
  have h := Reachable.goes [firstWaits, firstAnswered] [] goes_secondSent h
  exact Reachable.goes [] [firstAnswered, secondSent] goes_firstFailed h

/-- The first send, which fails, ends the message of the second one, which was
sent without failure, and the second ticket is told that it has failed. -/
theorem failed_send_ends_other :
    reusedWorld.Reachable ∧
      firstFailed ∈ reusedWorld.threads ∧ secondSent ∈ reusedWorld.threads ∧
      firstFailed.rest = .done (.sent (.error (.transport .unreachable))) ∧
      secondSent.rest = .done (.sent (.ok ())) ∧
      firstFailed.queued = [(0, entryOf 7)] ∧
      secondSent.queued = [(1, entryOf 8)] ∧
      firstFailed.taken = [(1, entryOf 8)] ∧ ¬firstFailed.TakesOwn ∧
      reusedWorld.told 8 = [⟨8, 2, .failed .unreachable⟩] := by
  have hother : ¬firstFailed.TakesOwn := by
    intro htakes
    obtain ⟨p, hp, hslot⟩ :=
      mem_slots.mp (htakes (1, entryOf 8) (List.mem_singleton_self _))
    rw [List.mem_singleton.mp hp] at hslot
    exact absurd (congrArg Slot.seq hslot) Nat.zero_ne_one
  exact ⟨reachable_reusedWorld, List.mem_cons_self,
    List.mem_cons_of_mem _ (List.mem_cons_of_mem _ List.mem_cons_self),
    rfl, rfl, rfl, rfl, rfl, hother, rfl⟩

/-- The first send has given up on a message of another call, since its own was
taken by the receive; and it has told the error that it reports. -/
theorem failed_send_ends_own_iff_reusedWorld :
    reusedWorld.Reachable ∧ firstFailed ∈ reusedWorld.threads ∧
      firstFailed.operation.Sends ∧ ¬firstFailed.TakesOwn ∧
      firstFailed.told = firstFailed.taken.filterMap
        (fun p => p.2.notify (.failed .unreachable)) := by
  have hmem : firstFailed ∈ reusedWorld.threads := List.mem_cons_self
  obtain ⟨hown, -, -, -, hended⟩ :=
    failed_send_ends_own_iff reachable_reusedWorld hmem trivial
  obtain ⟨htold, -⟩ := hended _ .unreachable rfl rfl
  refine ⟨reachable_reusedWorld, hmem, trivial, ?_, htold⟩
  intro htakes
  rcases hown.mp htakes with hnone | hnobody
  · cases hnone
  · have hanswered : firstAnswered ∈ reusedWorld.threads :=
      List.mem_cons_of_mem _ List.mem_cons_self
    have hsame := hnobody (0, entryOf 7) (List.mem_singleton_self _)
      firstAnswered hanswered (List.mem_singleton_self _)
    exact absurd (congrArg Thread.told hsame) (by decide)

end World

end Coap
