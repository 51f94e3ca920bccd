import Coap.Proofs.Outcome.History

/-!
# What a message is told is true

Four things may end a message in flight: an acknowledgement with its id, a
rejection with its id, a failure to send it, and a scan after its deadline when
it was sent too often. Each of them can be seen from outside: in what was
received, in what became of the datagrams sent for the message, in how many
there were before, and in the clock. In a serial run whose deadlines can all be
told, the holder of the message's ticket is told an outcome in a turn exactly
when the cause of that outcome happens in that turn, and nothing else takes the
message out of flight.

## Main results

* `Turn.Fate.cause_iff` — the fate of a message in flight is the one that its
  cause asks for.
* `Serial.told_iff_cause` — a ticket is told an outcome exactly when its cause
  happens.
-/

namespace Coap

/-- The outcomes that the holder of a ticket was told in a turn. -/
def Turn.toldTo (t : Turn) (ticket : Ticket) : List Outcome :=
  (t.told.filter (·.ticket == ticket)).map (·.outcome)

/-- What ends, in a turn that comes after some others, the message that is
queued under a number and has an id. -/
inductive Cause (config : Config) (earlier : List Turn) (t : Turn) (seq : Nat)
    (id : UInt16) : Outcome → Prop
  /-- The message is in flight and an acknowledgement with its id is
  received. -/
  | acknowledged (hseq : seq ∈ t.before.inFlight.seqs)
      (hanswers : t.Answers config .acknowledgement id) :
      Cause config earlier t seq id .acknowledged
  /-- The message is in flight and a rejection with its id is received. -/
  | rejected (hseq : seq ∈ t.before.inFlight.seqs)
      (hanswers : t.Answers config .reset id) :
      Cause config earlier t seq id .rejected
  /-- A datagram is sent for the message and the transport refuses it. -/
  | failed {s : Sending} {cause : TransportError} (hsent : s ∈ t.sentFor seq)
      (hresult : s.result = .error cause) :
      Cause config earlier t seq id (.failed cause)
  /-- There is a scan after the deadline of the message, which was sent too
  often before. -/
  | retriesExhausted {entry : Entry} {now : Instant}
      (hmem : (seq, entry) ∈ t.before.inFlight.entries)
      (hoperation : t.operation = .checkQueues) (hnow : now ∈ t.clock)
      (hdue : entry.IsDue now)
      (hcount : config.transmission.maxRetransmit.toNat <
        (sentBy earlier seq).length) :
      Cause config earlier t seq id .retriesExhausted

variable {config : Config} {t : Turn} {turns earlier later : List Turn}
  {e : Endpoint} {seq : Nat} {entry origin : Entry}

namespace Turn

/-- A message that a send queues was not in flight before. -/
theorem Queues.notMem_seqs (h : t.Queues config seq entry)
    (he : t.before.Fits config) : seq ∉ t.before.inFlight.seqs := by
  rw [h.seq_eq]
  exact he.sound.nextSeq_notMem

theorem Queues.operation_ne (h : t.Queues config seq entry) :
    t.operation ≠ .receive ∧ t.operation ≠ .checkQueues := by
  obtain ⟨hoperation, -⟩ := h
  rw [hoperation]
  exact ⟨nofun, nofun⟩

namespace Fate

variable {sent : List Sending} {left : Option Entry} {outcome : Option Outcome}
  {o : Outcome}

/-! ## Causes bring about fates -/

/-- A message in flight that is answered ends as the answer says. -/
theorem outcome_of_answers
    (hfate : Fate config t seq entry sent left outcome) (ht : t.Taken)
    (he : t.before.Fits config) {type : MessageType}
    (hanswers : t.Answers config type entry.id)
    (ho : (type = .acknowledgement ∧ o = .acknowledged) ∨
      (type = .reset ∧ o = .rejected)) : outcome = some o := by
  obtain ⟨hreceive, hone⟩ := ht.answers_unique he hanswers
  cases hfate with
  | kept _ hno =>
      refine absurd hanswers (hno type ?_)
      rcases ho with ⟨htype, -⟩ | ⟨htype, -⟩
      · exact .inl htype
      · exact .inr htype
  | answered _ hanswers' ho' =>
      obtain ⟨rfl, -⟩ := hone _ _ hanswers'
      rcases ho with ⟨rfl, rfl⟩ | ⟨rfl, rfl⟩
      · rcases ho' with ⟨-, rfl⟩ | ⟨htype, -⟩
        · rfl
        · cases htype
      · rcases ho' with ⟨htype, -⟩ | ⟨-, rfl⟩
        · cases htype
        · rfl
  | launched hqueues => exact absurd hreceive hqueues.operation_ne.1
  | stranded _ hqueues => exact absurd hreceive hqueues.operation_ne.1
  | scanned _ hoperation =>
      rw [hreceive] at hoperation
      cases hoperation

/-- A message that could not be sent has failed. -/
theorem outcome_of_failed (hfate : Fate config t seq entry sent left outcome)
    {s : Sending} {cause : TransportError} (hs : s ∈ sent)
    (hresult : s.result = .error cause) : outcome = some (.failed cause) := by
  cases hfate with
  | kept => cases hs
  | answered => cases hs
  | launched =>
      rw [List.mem_singleton.mp hs] at hresult
      cases hresult
  | stranded =>
      rw [List.mem_singleton.mp hs] at hresult
      cases hresult
      rfl
  | scanned _ _ _ _ htreated =>
      cases htreated with
      | exhausted => cases hs
      | failed =>
          rw [List.mem_singleton.mp hs] at hresult
          cases hresult
          rfl
      | resent =>
          rw [List.mem_singleton.mp hs] at hresult
          cases hresult

/-- A message that is due and was sent too often is given up on by a scan. -/
theorem outcome_of_exhausted
    (hfate : Fate config t seq entry sent left outcome) (ht : t.Taken)
    (he : t.before.Fits config) {now : Instant}
    (hoperation : t.operation = .checkQueues) (hnow : now ∈ t.clock)
    (hdue : entry.IsDue now)
    (hmax : config.transmission.maxRetransmit < entry.transmissions)
    (hclock : ∀ p ∈ t.before.inFlight.entries, p.2.timer.deadline? ≠ none) :
    outcome = some .retriesExhausted := by
  cases hfate with
  | kept _ _ hbroken =>
      obtain ⟨p, hp, hnone⟩ := hbroken hoperation ⟨now, hnow, hdue⟩
      exact absurd hnone (hclock p hp)
  | answered _ hanswers =>
      have hreceive := (ht.answers_unique he hanswers).1
      rw [hoperation] at hreceive
      cases hreceive
  | launched hqueues => exact absurd hoperation hqueues.operation_ne.2
  | stranded _ hqueues => exact absurd hoperation hqueues.operation_ne.2
  | scanned _ _ _ _ htreated =>
      cases htreated with
      | exhausted => rfl
      | failed _ hless => exact absurd hmax hless
      | resent hless => exact absurd hmax hless

/-! ## Fates have causes -/

theorem cause (hfate : Fate config t seq entry (t.sentFor seq) left (some o))
    (hcount : (seq, entry) ∈ t.before.inFlight.entries →
      (sentBy earlier seq).length = entry.transmissions.toNat) :
    Cause config earlier t seq entry.id o := by
  generalize hsent : t.sentFor seq = sent at hfate
  have hfailed {cause : TransportError}
      (hs : sent = [⟨entry.destination, entry.message, .error cause⟩]) :
      Cause config earlier t seq entry.id (.failed cause) := by
    have hmem : ⟨entry.destination, entry.message, .error cause⟩ ∈
        t.sentFor seq := by
      rw [hsent, hs]
      exact List.mem_singleton_self _
    exact .failed hmem rfl
  cases hfate with
  | answered hmem hanswers ho =>
      have hseq := InFlight.mem_seqs_of_mem hmem
      rcases ho with ⟨rfl, rfl⟩ | ⟨rfl, rfl⟩
      · exact .acknowledged hseq hanswers
      · exact .rejected hseq hanswers
  | stranded => exact hfailed rfl
  | @scanned now _ _ _ hmem hoperation hclock hdue htreated =>
      cases htreated with
      | exhausted hmax =>
          have hnow : now ∈ t.clock := by
            rw [hclock]
            exact List.mem_singleton_self now
          refine .retriesExhausted hmem hoperation hnow hdue ?_
          rw [hcount hmem]
          exact UInt16.lt_iff_toNat_lt.mp hmax
      | failed => exact hfailed rfl

/-- Nothing is left of a message exactly if it has ended. -/
theorem left_eq_none_iff (hfate : Fate config t seq entry sent left outcome) :
    left = none ↔ ∃ o, outcome = some o := by
  cases hfate with
  | kept => exact ⟨nofun, nofun⟩
  | answered => exact ⟨fun _ => ⟨_, rfl⟩, fun _ => rfl⟩
  | launched => exact ⟨nofun, nofun⟩
  | stranded => exact ⟨fun _ => ⟨_, rfl⟩, fun _ => rfl⟩
  | scanned _ _ _ _ htreated =>
      cases htreated with
      | exhausted => exact ⟨fun _ => ⟨_, rfl⟩, fun _ => rfl⟩
      | failed => exact ⟨fun _ => ⟨_, rfl⟩, fun _ => rfl⟩
      | resent => exact ⟨nofun, nofun⟩

/-- The fate of a message is the one that its cause asks for, if all deadlines
can be told. -/
theorem cause_iff
    (hfate : Fate config t seq entry (t.sentFor seq) left outcome)
    (ht : t.Taken) (he : t.before.Fits config)
    (hmeets : t.Meets config seq entry)
    (hcount : (seq, entry) ∈ t.before.inFlight.entries →
      (sentBy earlier seq).length = entry.transmissions.toNat)
    (hclock : ∀ p ∈ t.before.inFlight.entries, p.2.timer.deadline? ≠ none) :
    Cause config earlier t seq entry.id o ↔ outcome = some o := by
  constructor
  · intro hcause
    cases hcause with
    | acknowledged _ hanswers =>
        exact hfate.outcome_of_answers ht he hanswers (.inl ⟨rfl, rfl⟩)
    | rejected _ hanswers =>
        exact hfate.outcome_of_answers ht he hanswers (.inr ⟨rfl, rfl⟩)
    | failed hsent hresult => exact hfate.outcome_of_failed hsent hresult
    | @retriesExhausted entry' now hmem hoperation hnow hdue hmax =>
        have hsame : entry' = entry := by
          rcases hmeets with hmem' | hqueues
          · exact he.sound.entry_unique hmem hmem'
          · exact absurd (InFlight.mem_seqs_of_mem hmem) (hqueues.notMem_seqs he)
        subst hsame
        refine hfate.outcome_of_exhausted ht he hoperation hnow hdue ?_ hclock
        rw [UInt16.lt_iff_toNat_lt, ← hcount hmem]
        exact hmax
  · rintro rfl
    exact hfate.cause hcount

end Fate

/-- A turn meets one entry under a number. -/
theorem Meets.unique {entry' : Entry} (h : t.Meets config seq entry)
    (h' : t.Meets config seq entry') (he : t.before.Fits config) :
    entry = entry' := by
  rcases h with hmem | hqueues
  · rcases h' with hmem' | hqueues'
    · exact he.sound.entry_unique hmem hmem'
    · exact absurd (InFlight.mem_seqs_of_mem hmem) (hqueues'.notMem_seqs he)
  · rcases h' with hmem' | hqueues'
    · exact absurd (InFlight.mem_seqs_of_mem hmem') (hqueues.notMem_seqs he)
    · exact (hqueues.unique hqueues').2

theorem mem_toldTo {ticket : Ticket} {o : Outcome} :
    o ∈ t.toldTo ticket ↔ ∃ n ∈ t.told, n.ticket = ticket ∧ n.outcome = o := by
  simp only [toldTo, List.mem_map, List.mem_filter, beq_iff_eq, and_assoc]

/-- Without a message that a turn meets there is no cause for its end. -/
theorem not_cause (ht : t.Taken) (he : t.before.Fits config)
    (hmeets : ∀ entry, ¬t.Meets config seq entry) {id : UInt16} {o : Outcome} :
    ¬Cause config earlier t seq id o := by
  have hseq : seq ∉ t.before.inFlight.seqs := by
    intro hmem
    obtain ⟨entry, hentry⟩ := InFlight.mem_seqs.mp hmem
    exact hmeets entry (.inl hentry)
  intro hcause
  cases hcause with
  | acknowledged hmem => exact hseq hmem
  | rejected hmem => exact hseq hmem
  | failed hsent =>
      rw [(ht.of_not_meets he hmeets).2] at hsent
      cases hsent
  | retriesExhausted hmem => exact hseq (InFlight.mem_seqs_of_mem hmem)

end Turn

namespace Serial

/-- A turn that meets a message whose turn of queueing is known meets what that
turn has queued. -/
theorem slot_of_meets (h : Serial config turns e)
    (hmax : config.transmission.maxRetransmit.toNat < 65535)
    {queueing : Turn} (hqueueing : queueing ∈ turns)
    (hqueues : queueing.Queues config seq origin)
    (hsplit : turns = earlier ++ t :: later)
    (hmeets : t.Meets config seq entry) :
    Slot.of (seq, entry) = Slot.of (seq, origin) ∧
      ((seq, entry) ∈ t.before.inFlight.entries →
        (sentBy earlier seq).length = entry.transmissions.toNat) := by
  subst hsplit
  obtain ⟨hrun, ht⟩ := h.split
  have hthis : t ∈ earlier ++ t :: later :=
    List.mem_append_right _ List.mem_cons_self
  have htracked (hmem : (seq, entry) ∈ t.before.inFlight.entries) :
      Tracked config earlier seq origin entry := by
    obtain ⟨t', ht', origin', hqueues', htracked⟩ := hrun.tracked hmax hmem
    obtain ⟨-, rfl⟩ := h.queues_unique hqueueing
      (List.mem_append_left _ ht') hqueues hqueues'
    exact htracked
  refine ⟨?_, fun hmem => (htracked hmem).count⟩
  rcases hmeets with hmem | hqueues'
  · exact (htracked hmem).slot
  · rw [(h.queues_unique hqueueing hthis hqueues hqueues').2]

/-- Who is told of a ticket is told of the message that was queued with it. -/
theorem meets_of_told (h : Serial config turns e)
    {queueing : Turn} (hqueueing : queueing ∈ turns)
    (hqueues : queueing.Queues config seq origin)
    (hsplit : turns = earlier ++ t :: later) {n : Notification}
    (hn : n ∈ t.told) (hticket : origin.ticket = some n.ticket) :
    ∃ entry, t.Meets config seq entry ∧ entry.notify n.outcome = some n := by
  subst hsplit
  obtain ⟨hrun, ht⟩ := h.split
  have hthis : t ∈ earlier ++ t :: later :=
    List.mem_append_right _ List.mem_cons_self
  obtain ⟨seq', entry, hmeets, hnotify⟩ := ht.meets_of_told hrun.fits hn
  have hentry : entry.ticket = some n.ticket := by
    obtain ⟨ticket, hsome, heq⟩ := Option.map_eq_some_iff.mp hnotify
    rw [hsome, ← heq]
  -- the turn that queued what is met brings the same ticket, so it is the same
  have hsource : ∃ t' ∈ earlier ++ t :: later, ∃ origin',
      t'.Queues config seq' origin' ∧ origin'.ticket = entry.ticket := by
    rcases hmeets with hmem | hqueues'
    · obtain ⟨t', ht', origin', hqueues', hslot⟩ := hrun.originates hmem
      exact ⟨t', List.mem_append_left _ ht', origin', hqueues',
        (congrArg Slot.ticket hslot).symm⟩
    · exact ⟨t, hthis, entry, hqueues', rfl⟩
  obtain ⟨t', ht', origin', hqueues', hsame⟩ := hsource
  rw [hqueues'.ticket_eq, hentry] at hsame
  rw [hqueues.ticket_eq] at hticket
  obtain rfl := h.ticket_unique hqueueing ht' hticket hsame
  obtain ⟨rfl, -⟩ := hqueues.unique hqueues'
  exact ⟨entry, hmeets, hnotify⟩

/-- Nobody is told of a message that a turn does not meet. -/
theorem toldTo_eq_nil (h : Serial config turns e)
    {queueing : Turn} (hqueueing : queueing ∈ turns)
    (hqueues : queueing.Queues config seq origin)
    (hsplit : turns = earlier ++ t :: later)
    (hmeets : ∀ entry, ¬t.Meets config seq entry)
    {ticket : Ticket} (hticket : origin.ticket = some ticket) :
    t.toldTo ticket = [] := by
  rw [List.eq_nil_iff_forall_not_mem]
  intro o ho
  obtain ⟨n, hn, rfl, -⟩ := Turn.mem_toldTo.mp ho
  obtain ⟨entry, hmeets', -⟩ :=
    h.meets_of_told hqueueing hqueues hsplit hn hticket
  exact hmeets entry hmeets'

/-- A send that gave its message a number has queued it. -/
theorem queues (h : Serial config turns e) (ht : t ∈ turns)
    {destination : SocketAddress} {m : Message} {ticket : Option Ticket}
    (hoperation : t.operation = .send destination m ticket)
    (hnumber : t.number? = some seq) : ∃ entry, t.Queues config seq entry := by
  obtain ⟨first, last, rfl⟩ := List.append_of_mem ht
  obtain ⟨hrun, htaken⟩ := h.split
  exact htaken.queues hrun.fits hoperation hnumber

section

variable (h : Serial config turns e)
  (hmax : config.transmission.maxRetransmit.toNat < 65535)
  {queueing : Turn} (hqueueing : queueing ∈ turns)
  (hqueues : queueing.Queues config seq origin)
  (hsplit : turns = earlier ++ t :: later)

include h hmax hqueueing hqueues hsplit

/-- What is known of a message that a turn meets: its fate has a cause, nothing
is left of it if it has ended, and who is told of it learns that. -/
theorem cause_of_meets (hmeets : t.Meets config seq entry)
    (hclock : ∀ p ∈ t.before.inFlight.entries, p.2.timer.deadline? ≠ none)
    {ticket : Ticket} (hticket : origin.ticket = some ticket) :
    (∀ o, o ∈ t.toldTo ticket ↔ Cause config earlier t seq origin.id o) ∧
    (seq ∉ t.after.inFlight.seqs ↔
      ∃ o, Cause config earlier t seq origin.id o) := by
  obtain ⟨hrun, ht⟩ := (hsplit ▸ h).split
  obtain ⟨hslot, hcount⟩ :=
    h.slot_of_meets hmax hqueueing hqueues hsplit hmeets
  obtain ⟨left, outcome, hfate, hleft, htold⟩ := ht.decides hrun.fits hmeets
  have hentry : entry.id = origin.id := congrArg Slot.id hslot
  have hcause (o : Outcome) :
      Cause config earlier t seq origin.id o ↔ outcome = some o := by
    rw [← hentry]
    exact hfate.cause_iff ht hrun.fits hmeets hcount hclock
  have hnotify (o : Outcome) :
      entry.notify o = some ⟨ticket, entry.id, o⟩ := by
    have hsome : entry.ticket = some ticket :=
      (congrArg Slot.ticket hslot).trans hticket
    rw [Entry.notify, hsome]
    rfl
  constructor
  · intro o
    rw [hcause, ← htold _ o (hnotify o), Turn.mem_toldTo]
    constructor
    · rintro ⟨n, hn, rfl, rfl⟩
      obtain ⟨entry', hmeets', hnotify'⟩ :=
        h.meets_of_told hqueueing hqueues hsplit hn hticket
      rw [hmeets'.unique hmeets hrun.fits, hnotify] at hnotify'
      rw [Option.some.inj hnotify']
      exact hn
    · intro hn
      exact ⟨_, hn, rfl, rfl⟩
  · simp only [hcause, ← hfate.left_eq_none_iff, InFlight.mem_seqs, hleft]
    constructor
    · intro hnone
      cases left with
      | none => rfl
      | some entry' => exact absurd ⟨entry', rfl⟩ hnone
    · rintro rfl ⟨entry', hentry'⟩
      cases hentry'

end

/-- In a serial run whose deadlines can all be told, the holder of the ticket of
a message that a send has queued is told an outcome in a turn exactly when the
cause of that outcome happens in that turn. The message leaves the queue in
exactly those turns. -/
theorem told_iff_cause (h : Serial config turns e)
    (hmax : config.transmission.maxRetransmit.toNat < 65535)
    (hclock : ∀ t ∈ turns, ∀ p ∈ t.before.inFlight.entries,
      p.2.timer.deadline? ≠ none)
    {queueing : Turn} (hqueueing : queueing ∈ turns)
    {destination : SocketAddress} {m : Message} {ticket : Ticket}
    (hoperation : queueing.operation = .send destination m (some ticket))
    (hnumber : queueing.number? = some seq)
    (hsplit : turns = earlier ++ t :: later) :
    (∀ outcome, outcome ∈ t.toldTo ticket ↔
      Cause config earlier t seq m.id outcome) ∧
    ((seq ∈ t.before.inFlight.seqs ∨ t = queueing) ∧
        seq ∉ t.after.inFlight.seqs ↔
      ∃ outcome, Cause config earlier t seq m.id outcome) := by
  obtain ⟨origin, hqueues⟩ := h.queues hqueueing hoperation hnumber
  obtain ⟨_, _, _, _, -, -, -, -, -, horigin⟩ := hqueues.origin hoperation
  have hid : origin.id = m.id := by rw [horigin]; rfl
  have hticket : origin.ticket = some ticket := by rw [horigin]; rfl
  have hthis : t ∈ turns := by
    rw [hsplit]
    exact List.mem_append_right _ List.mem_cons_self
  -- a turn meets the message if it is in flight or if the turn queues it
  have hhere : (seq ∈ t.before.inFlight.seqs ∨ t = queueing) ↔
      ∃ entry, t.Meets config seq entry := by
    constructor
    · rintro (hmem | rfl)
      · obtain ⟨entry, hentry⟩ := InFlight.mem_seqs.mp hmem
        exact ⟨entry, .inl hentry⟩
      · exact ⟨origin, .inr hqueues⟩
    · rintro ⟨entry, hmem | hqueues'⟩
      · exact .inl (InFlight.mem_seqs_of_mem hmem)
      · exact .inr (h.queues_unique hthis hqueueing hqueues' hqueues).1
  rw [hhere, ← hid]
  by_cases hmeets : ∃ entry, t.Meets config seq entry
  · obtain ⟨entry, hmeets⟩ := hmeets
    obtain ⟨htold, hgone⟩ := h.cause_of_meets hmax hqueueing hqueues hsplit
      hmeets (hclock t hthis) hticket
    refine ⟨htold, ?_⟩
    rw [← hgone]
    exact ⟨And.right, fun hseq => ⟨⟨entry, hmeets⟩, hseq⟩⟩
  · obtain ⟨hrun, ht⟩ := (hsplit ▸ h).split
    have hnone (o : Outcome) : ¬Cause config earlier t seq origin.id o :=
      Turn.not_cause ht hrun.fits (not_exists.mp hmeets)
    rw [h.toldTo_eq_nil hqueueing hqueues hsplit (not_exists.mp hmeets)
      hticket]
    constructor
    · intro o
      exact ⟨nofun, fun hcause => absurd hcause (hnone o)⟩
    · constructor
      · rintro ⟨hexists, -⟩
        exact absurd hexists hmeets
      · rintro ⟨o, hcause⟩
        exact absurd hcause (hnone o)

end Serial

/-! ## A message that nobody answers -/

/-- An endpoint that sends a message again only once. -/
def impatientEndpoint : Endpoint where
  config := ⟨64, 64, .ofNanos 1000000000, .ofNanos 1000000000,
    ⟨.ofNanos 2000000000, 1.5, 1⟩⟩
  counter := 1
  inFlight := .empty
  readBuffer := .new 65
  writeBuffer := .new 64

/-- The entry of a message with the shortest first wait. -/
def sampleEntry : Entry :=
  .new 2 (.ofIp (.v4 ⟨127, 0, 0, 1⟩) 5683) [64, 1, 0, 2] (some 7) ⟨0⟩
    (.ofNanos 2000000000)

/-- The entry when the message was sent again at its first deadline. -/
def resentEntry : Entry := sampleEntry.retransmitted ⟨2000000000⟩

/-- The message is queued and sent. -/
def launchTurn : Turn where
  before := impatientEndpoint
  operation := .send sampleEntry.destination
    (.confirmable ⟨1⟩ 2 .empty .empty none) (some 7)
  parts := [⟨some 0, .updated ::
    Call.launch 0.0 ⟨0⟩ sampleEntry.destination sampleEntry.message (.ok ())⟩]
  after := { impatientEndpoint with
    inFlight := ⟨[(0, sampleEntry)], [(2, 0)], 1⟩
    writeBuffer := ⟨[64, 1, 0, 2] ++ List.replicate 60 0, 4, by decide⟩ }

/-- At its deadline it is sent again. -/
def resendTurn : Turn where
  before := launchTurn.after
  operation := .checkQueues
  parts := [⟨none, Call.opening ⟨2000000000⟩⟩,
    ⟨some 0, [.updated, .updated,
      .transmitted sampleEntry.destination sampleEntry.message (.ok ()), .updated]⟩,
    ⟨none, Call.closing []⟩]
  after := { launchTurn.after with inFlight := ⟨[(0, resentEntry)], [(2, 0)], 1⟩ }

/-- When it has been waited for twice as long again, it is given up on. -/
def scanTurn : Turn where
  before := resendTurn.after
  operation := .checkQueues
  parts := [⟨none, Call.opening ⟨6000000000⟩⟩,
    ⟨some 0, [.updated, .updated, .updated]⟩,
    ⟨none, Call.closing [(resentEntry, .retriesExhausted)]⟩]
  after := { resendTurn.after with inFlight := ⟨[], [], 1⟩ }

/-- A message that is sent at the time 0 is queued with the shortest first wait. -/
theorem runs_send_impatient {e : Endpoint} {m : Message} {ticket : Option Ticket}
    {text : Bytes} {q : InFlight} (hconfig : e.config = impatientEndpoint.config)
    (hwritten : (e.serialize m).2 = .ok text) (hconfirmable : m.isConfirmable = true)
    (hadd : e.inFlight.add m.id sampleEntry.destination text ticket ⟨0⟩
      (.ofNanos 2000000000) = .ok q) :
    (Call.send sampleEntry.destination m ticket).Runs e
      (.updated :: Call.launch 0.0 ⟨0⟩ sampleEntry.destination text (.ok ()))
      { (e.serialize m).1 with inFlight := q } (some (.ok ())) := by
  have htimeout : (e.serialize m).1.config.transmission.initialTimeout? 0.0 =
      some (.ofNanos 2000000000) := by
    show e.config.transmission.initialTimeout? 0.0 = _
    rw [hconfig]
    decide +kernel
  exact Call.runs_send_iff.mpr
    (.tracked hwritten hconfirmable (.launched htimeout hadd))

theorem taken_launchTurn : launchTurn.Taken :=
  .send (runs_send_impatient rfl rfl rfl rfl)

theorem taken_resendTurn : resendTurn.Taken := by
  have hdue : resendTurn.before.inFlight.expiredIds? ⟨2000000000⟩ =
      some [2] := by decide +kernel
  have hvisit : (Call.visit ⟨2000000000⟩ 2).Runs resendTurn.before
      [.updated, .updated,
        .transmitted sampleEntry.destination sampleEntry.message (.ok ()), .updated]
      resendTurn.after (some []) :=
    Call.runs_visit_iff.mpr
      (.inr ⟨sampleEntry, rfl, .inr ⟨by decide, .ok (), rfl, rfl, rfl⟩⟩)
  exact .scan hdue (.cons hvisit (.nil _))

theorem taken_scanTurn : scanTurn.Taken := by
  have hdue : scanTurn.before.inFlight.expiredIds? ⟨6000000000⟩ =
      some [2] := by decide +kernel
  have hvisit : (Call.visit ⟨6000000000⟩ 2).Runs scanTurn.before
      [.updated, .updated, .updated] scanTurn.after
      (some [(resentEntry, .retriesExhausted)]) :=
    Call.runs_visit_iff.mpr
      (.inr ⟨resentEntry, rfl, .inl ⟨by decide, rfl, rfl, rfl⟩⟩)
  exact .scan hdue (.cons hvisit (.nil _))

theorem serial_scanTurn : Serial impatientEndpoint.config
    [launchTurn, resendTurn, scanTurn] scanTurn.after := by
  have hnew : Endpoint.new impatientEndpoint.config 1 =
      .ok impatientEndpoint := rfl
  have hstart : Serial impatientEndpoint.config [] launchTurn.before :=
    .start hnew
  have hlaunched : Serial impatientEndpoint.config [launchTurn]
      resendTurn.before := by
    refine hstart.turn taken_launchTurn ?_
    intro _ _ _ hmem
    cases hmem
  have hresent : Serial impatientEndpoint.config [launchTurn, resendTurn]
      scanTurn.before := by
    refine hlaunched.turn taken_resendTurn ?_
    intro _ hticket
    cases hticket
  refine hresent.turn taken_scanTurn ?_
  intro _ hticket
  cases hticket

/-- Both of the message's deadlines can be told. -/
theorem deadline_sampleEntry : sampleEntry.timer.deadline? = some ⟨2000000000⟩ ∧
    resentEntry.timer.deadline? = some ⟨6000000000⟩ := by
  decide +kernel

namespace Serial

/-- The message that nobody answers is sent again, which tells nobody anything. Then it
is reported to have been sent as often as allowed, and is gone. -/
theorem told_iff_cause_scanTurn :
    Serial impatientEndpoint.config [launchTurn, resendTurn, scanTurn]
        scanTurn.after ∧
      impatientEndpoint.config.transmission.maxRetransmit.toNat < 65535 ∧
      (∀ t ∈ [launchTurn, resendTurn, scanTurn], ∀ p ∈ t.before.inFlight.entries,
        p.2.timer.deadline? ≠ none) ∧
      launchTurn.number? = some 0 ∧
      (∀ outcome, ¬Cause impatientEndpoint.config [launchTurn] resendTurn 0 2
        outcome) ∧
      Cause impatientEndpoint.config [launchTurn, resendTurn] scanTurn 0 2
        .retriesExhausted ∧
      .retriesExhausted ∈ scanTurn.toldTo 7 ∧
      0 ∉ scanTurn.after.inFlight.seqs := by
  have hmax :
      impatientEndpoint.config.transmission.maxRetransmit.toNat < 65535 := by
    decide
  have hclock : ∀ t ∈ [launchTurn, resendTurn, scanTurn],
      ∀ p ∈ t.before.inFlight.entries, p.2.timer.deadline? ≠ none := by
    intro t ht p hp
    simp only [List.mem_cons, List.not_mem_nil, or_false] at ht
    rcases ht with rfl | rfl | rfl
    · cases hp
    · rw [List.mem_singleton.mp hp, deadline_sampleEntry.1]
      exact Option.some_ne_none _
    · rw [List.mem_singleton.mp hp, deadline_sampleEntry.2]
      exact Option.some_ne_none _
  have hoperation : launchTurn.operation = .send sampleEntry.destination
      (.confirmable ⟨1⟩ 2 .empty .empty none) (some 7) := rfl
  have hnumber : launchTurn.number? = some 0 := rfl
  have htruth {earlier later : List Turn} {t : Turn}
      (hsplit : [launchTurn, resendTurn, scanTurn] = earlier ++ t :: later) :=
    told_iff_cause serial_scanTurn hmax hclock List.mem_cons_self hoperation hnumber
      hsplit
  have hid : (Message.confirmable ⟨1⟩ 2 .empty .empty none).id = 2 :=
    Message.id_new _ _ _ _ _ _
  simp only [hid] at htruth
  have hresent := (htruth (rfl : _ = [launchTurn] ++ resendTurn :: [scanTurn])).1
  obtain ⟨htold, hgone⟩ :=
    htruth (rfl : _ = [launchTurn, resendTurn] ++ scanTurn :: [])
  have hquiet : ∀ outcome, ¬Cause impatientEndpoint.config [launchTurn] resendTurn
      0 2 outcome := by
    intro outcome hcause
    cases (hresent outcome).mpr hcause
  have hcause : Cause impatientEndpoint.config [launchTurn, resendTurn] scanTurn 0 2
      .retriesExhausted := by
    refine .retriesExhausted (List.mem_singleton_self (0, resentEntry)) rfl
      (List.mem_singleton_self _) ⟨_, deadline_sampleEntry.2, Nat.le_refl _⟩ ?_
    exact Nat.one_lt_two
  exact ⟨serial_scanTurn, hmax, hclock, hnumber, hquiet, hcause,
    (htold _).mpr hcause, (hgone.mpr ⟨_, hcause⟩).2⟩

end Serial

end Coap
