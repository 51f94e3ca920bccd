import Coap.Proofs.Outcome.Causes

/-!
# How often and when a message is sent

A message that is queued has a budget: it is sent once, then again by scans, but
not more than `maxRetransmit` times again. All that is sent for it are its bytes,
and all goes to its destination. The waits before a scan sends it again double,
so before the one numbered `k` at least the first wait times `2 ^ k - 1` has
passed; and giving up takes a wait after the last one.

## Main results

* `Serial.transmissions_within_budget` — the budget of a message and the times at which it is
  spent.
-/

namespace Coap

variable {config : Config} {t : Turn} {turns earlier later : List Turn}
  {e : Endpoint} {seq : Nat} {entry origin : Entry}

/-- A message was given up on in a turn: a scan took it out of flight without
sending it. -/
structure Turn.GivesUp (t : Turn) (seq : Nat) : Prop where
  operation : t.operation = .checkQueues
  mem : seq ∈ t.before.inFlight.seqs
  notMem : seq ∉ t.after.inFlight.seqs
  sent : t.sentFor seq = []

namespace Serial

/-- A message that is given up on was sent as often as allowed, and then all
timeouts had passed. -/
theorem of_givesUp (h : Serial config turns t.before) (ht : t.Taken)
    (hmax : config.transmission.maxRetransmit.toNat < 65535)
    (hgivesUp : t.GivesUp seq) :
    ∃ t' ∈ turns, ∃ origin, t'.Queues config seq origin ∧
      (sentBy turns seq).length =
        1 + config.transmission.maxRetransmit.toNat ∧
      ∃ now, t.clock = [now] ∧ origin.timer.started.nanos +
        backoffTime origin.timer.timeout.nanos
          (config.transmission.maxRetransmit.toNat + 1) ≤ now.nanos := by
  obtain ⟨entry, hmem⟩ := InFlight.mem_seqs.mp hgivesUp.mem
  obtain ⟨t', ht', origin, hqueues, htracked⟩ := h.tracked hmax hmem
  obtain ⟨left, outcome, hfate, hleft, -⟩ := ht.decides h.fits (.inl hmem)
  have hnone : left = none := by
    cases left with
    | none => rfl
    | some entry' =>
        have hin := (hleft entry').mpr rfl
        exact absurd (InFlight.mem_seqs_of_mem hin) hgivesUp.notMem
  subst hnone
  rw [hgivesUp.sent] at hfate
  cases hfate with
  | answered _ hanswers =>
      have hreceive := (ht.answers_unique h.fits hanswers).1
      rw [hgivesUp.operation] at hreceive
      cases hreceive
  | @scanned now _ _ _ _ _ hclock hdue htreated =>
      cases htreated with
      | exhausted hless =>
          have hle := htracked.le
          have hnow := htracked.le_of_isDue hdue
          rw [UInt16.lt_iff_toNat_lt] at hless
          have hcount : entry.transmissions.toNat =
              config.transmission.maxRetransmit.toNat + 1 := by omega
          rw [hcount] at hnow
          refine ⟨t', ht', origin, hqueues, ?_, now, hclock, hnow⟩
          rw [htracked.count, hcount, Nat.add_comm]

/-- Who is told that all retries are exhausted is told of a message that was
given up on. -/
theorem givesUp_of_told (h : Serial config turns e)
    {queueing : Turn} (hqueueing : queueing ∈ turns)
    (hqueues : queueing.Queues config seq origin)
    (hsplit : turns = earlier ++ t :: later) {ticket : Ticket}
    (hticket : origin.ticket = some ticket)
    (htold : .retriesExhausted ∈ t.toldTo ticket) : t.GivesUp seq := by
  obtain ⟨hrun, ht⟩ := (hsplit ▸ h).split
  obtain ⟨n, hn, rfl, hexhausted⟩ := Turn.mem_toldTo.mp htold
  obtain ⟨entry, hmeets, hnotify⟩ :=
    h.meets_of_told hqueueing hqueues hsplit hn hticket
  obtain ⟨left, outcome, hfate, hleft, hiff⟩ := ht.decides hrun.fits hmeets
  have houtcome := (hiff n n.outcome hnotify).mp hn
  rw [hexhausted] at houtcome
  subst houtcome
  generalize hsent : t.sentFor seq = sent at hfate
  cases hfate with
  | answered _ _ ho =>
      rcases ho with ⟨-, ho⟩ | ⟨-, ho⟩
      · cases ho
      · cases ho
  | scanned hmem hoperation _ _ htreated =>
      cases htreated with
      | exhausted =>
          refine ⟨hoperation, InFlight.mem_seqs_of_mem hmem, ?_, hsent⟩
          intro hin
          obtain ⟨entry', hentry⟩ := InFlight.mem_seqs.mp hin
          cases (hleft entry').mp hentry

/-- What is given up on in a turn is not sent again in any later turn. -/
theorem sentBy_of_givesUp (h : Serial config turns e)
    (hsplit : turns = earlier ++ t :: later) (hgivesUp : t.GivesUp seq) :
    sentBy turns seq = sentBy earlier seq := by
  subst hsplit
  obtain ⟨hrun, ht⟩ := h.split
  have hlt : seq < t.after.inFlight.nextSeq := by
    have hbelow := hrun.fits.sound.below seq hgivesUp.mem
    have hle := ht.nextSeq_le hrun.fits
    omega
  obtain ⟨-, -, hlater⟩ := h.of_gone hlt hgivesUp.notMem
  have hcons : t :: later = [t] ++ later := rfl
  rw [sentBy_append, hcons, sentBy_append, sentBy_singleton, hgivesUp.sent,
    hlater, List.append_nil, List.append_nil]

end Serial

/-- What is written into a new buffer are the bytes of the message, if they
fit. -/
theorem Message.write_new {m : Message} {text : Bytes} {size : Nat}
    (hencode : m.encode = .ok text) (hlength : text.length ≤ size) :
    (m.write (.new size)).2 = .ok text.length ∧
      (m.write (.new size)).1.contents = text := by
  cases happend : (Buffer.new size).append? text with
  | none =>
      have hroom := Buffer.append?_eq_none.mp happend
      rw [Buffer.room, Buffer.capacity_new] at hroom
      have hempty : (Buffer.new size).length = 0 := rfl
      omega
  | some b =>
      rw [Message.write_of_append? hencode happend]
      have hcontents := Buffer.contents_append? happend
      rw [Buffer.contents_new, List.nil_append] at hcontents
      exact ⟨rfl, hcontents⟩

/-- A message that is queued at some clock reading with some timeout is sent to
its destination, as it is written, and not more often than allowed. It is sent
first by the send that queued it and then by scans, the `k`-th time again not
before `2 ^ k - 1` timeouts have passed. If it is given up on, it was sent as
often as allowed, and one more wait has passed. -/
theorem Serial.transmissions_within_budget (h : Serial config turns e)
    (hmax : config.transmission.maxRetransmit.toNat < 65535)
    {queueing : Turn} (hqueueing : queueing ∈ turns)
    {destination : SocketAddress} {m : Message} {ticket : Option Ticket}
    (hoperation : queueing.operation = .send destination m ticket)
    (hnumber : queueing.number? = some seq) :
    ∃ start fraction timeout,
      queueing.clock = [start] ∧ queueing.draws = [fraction] ∧
      config.transmission.initialTimeout? fraction = some timeout ∧
      (∃ n, (m.write (.new config.writeBufferSize)).2 = .ok n) ∧
      (∀ s ∈ sentBy turns seq, s.destination = destination ∧
        s.datagram = (m.write (.new config.writeBufferSize)).1.contents) ∧
      (sentBy turns seq).length ≤ 1 + config.transmission.maxRetransmit.toNat ∧
      (∀ earlier t later, turns = earlier ++ t :: later → t.sentFor seq ≠ [] →
        (t.sentFor seq).length = 1 ∧
        ((sentBy earlier seq = [] ∧ t = queueing) ∨
          (sentBy earlier seq ≠ [] ∧ t.operation = .checkQueues ∧
            ∃ now, t.clock = [now] ∧ start.nanos +
              (2 ^ (sentBy earlier seq).length - 1) * timeout.nanos ≤
                now.nanos))) ∧
      ∀ earlier t later, turns = earlier ++ t :: later →
        (t.GivesUp seq ∨
          ∃ holder, ticket = some holder ∧ .retriesExhausted ∈ t.toldTo holder) →
        (sentBy turns seq).length =
          1 + config.transmission.maxRetransmit.toNat ∧
        ∃ now, t.clock = [now] ∧ start.nanos +
          (2 ^ (config.transmission.maxRetransmit.toNat + 1) - 1) *
            timeout.nanos ≤ now.nanos := by
  obtain ⟨origin, hqueues⟩ := h.queues hqueueing hoperation hnumber
  obtain ⟨text, fraction, timeout, start, hencode, hlength, hdraws, htimeout,
    hclock, horigin⟩ := hqueues.origin hoperation
  obtain ⟨hwrite, hcontents⟩ := Message.write_new hencode hlength
  obtain ⟨hsame, hbudget⟩ := h.spent hmax hqueueing hqueues
  have hticket : origin.ticket = ticket := by rw [horigin]; rfl
  have hstart : origin.timer.started = start := by rw [horigin]; rfl
  have hfirst : origin.timer.timeout = timeout := by rw [horigin]; rfl
  refine ⟨start, fraction, timeout, hclock, hdraws, htimeout, ⟨_, hwrite⟩, ?_,
    hbudget, ?_, ?_⟩
  · intro s hs
    obtain ⟨hdestination, hdatagram⟩ := hsame s hs
    rw [hdestination, hdatagram, hcontents, horigin]
    exact ⟨rfl, rfl⟩
  · intro earlier t later hsplit hsent
    have hthis : t ∈ turns := by
      rw [hsplit]
      exact List.mem_append_right _ List.mem_cons_self
    have hbefore {t' : Turn} (ht' : t' ∈ earlier) : t' ∈ turns := by
      rw [hsplit]
      exact List.mem_append_left _ ht'
    obtain ⟨hrun, ht⟩ := (hsplit ▸ h).split
    obtain ⟨origin', result, hsending, hwhen⟩ := hrun.sends ht hmax hsent
    refine ⟨by rw [hsending]; rfl, ?_⟩
    rcases hwhen with ⟨hqueues', hnone⟩ |
      ⟨hscan, ⟨t', ht', hqueues'⟩, hpos, -, now, hnow, hle⟩
    · exact .inl
        ⟨hnone, (h.queues_unique hthis hqueueing hqueues' hqueues).1⟩
    · obtain ⟨-, rfl⟩ :=
        h.queues_unique hqueueing (hbefore ht') hqueues hqueues'
      rw [hstart, hfirst] at hle
      refine .inr ⟨?_, hscan, now, hnow, hle⟩
      exact List.ne_nil_of_length_pos hpos
  · intro earlier t later hsplit hends
    have hgivesUp : t.GivesUp seq := by
      rcases hends with hgivesUp | ⟨holder, hholder, htold⟩
      · exact hgivesUp
      · exact h.givesUp_of_told hqueueing hqueues hsplit
          (hticket.trans hholder) htold
    obtain ⟨hrun, ht⟩ := (hsplit ▸ h).split
    obtain ⟨t', ht', origin', hqueues', hcount, now, hnow, hle⟩ :=
      hrun.of_givesUp ht hmax hgivesUp
    have hbefore : t' ∈ turns := by
      rw [hsplit]
      exact List.mem_append_left _ ht'
    obtain ⟨-, rfl⟩ := h.queues_unique hqueueing hbefore hqueues hqueues'
    rw [hstart, hfirst] at hle
    rw [h.sentBy_of_givesUp hsplit hgivesUp, hcount]
    exact ⟨rfl, now, hnow, hle⟩

/-- The message that nobody answers is sent again when its first wait has passed, and is
given up on when a second wait that is twice as long has passed. -/
theorem Serial.transmissions_within_budget_scanTurn :
    Serial impatientEndpoint.config [launchTurn, resendTurn, scanTurn]
        scanTurn.after ∧
      impatientEndpoint.config.transmission.maxRetransmit.toNat < 65535 ∧
      launchTurn.number? = some 0 ∧ resendTurn.sentFor 0 ≠ [] ∧
      scanTurn.GivesUp 0 ∧
      ∃ start fraction timeout, launchTurn.clock = [start] ∧
        launchTurn.draws = [fraction] ∧
        impatientEndpoint.config.transmission.initialTimeout? fraction =
          some timeout ∧
        (∀ s ∈ sentBy [launchTurn, resendTurn, scanTurn] 0,
          s.destination = sampleEntry.destination ∧ s.datagram = [64, 1, 0, 2]) ∧
        (sentBy [launchTurn, resendTurn, scanTurn] 0).length = 2 ∧
        (∃ now, resendTurn.clock = [now] ∧
          start.nanos + (2 ^ 1 - 1) * timeout.nanos ≤ now.nanos) ∧
        ∃ now, scanTurn.clock = [now] ∧
          start.nanos + (2 ^ (1 + 1) - 1) * timeout.nanos ≤ now.nanos := by
  have hmax :
      impatientEndpoint.config.transmission.maxRetransmit.toNat < 65535 := by
    decide
  have hoperation : launchTurn.operation = .send sampleEntry.destination
      (.confirmable ⟨1⟩ 2 .empty .empty none) (some 7) := rfl
  have hnumber : launchTurn.number? = some 0 := rfl
  have hagain : resendTurn.sentFor 0 ≠ [] := nofun
  have hgivesUp : scanTurn.GivesUp 0 :=
    ⟨rfl, List.mem_singleton_self 0, nofun, rfl⟩
  obtain ⟨start, fraction, timeout, hclock, hdraws, htimeout, -, hsame, -, htimes,
    hends⟩ := transmissions_within_budget serial_scanTurn hmax List.mem_cons_self
      hoperation hnumber
  obtain ⟨-, hwhen⟩ := htimes [launchTurn] resendTurn [scanTurn] rfl hagain
  obtain ⟨hcount, hwait⟩ := hends [launchTurn, resendTurn] scanTurn [] rfl
    (.inl hgivesUp)
  have hfirstWait : ∃ now, resendTurn.clock = [now] ∧
      start.nanos + (2 ^ 1 - 1) * timeout.nanos ≤ now.nanos := by
    rcases hwhen with ⟨hnone, -⟩ | ⟨-, -, hwait⟩
    · cases hnone
    · exact hwait
  exact ⟨serial_scanTurn, hmax, hnumber, hagain, hgivesUp, start, fraction, timeout,
    hclock, hdraws, htimeout, hsame, hcount, hfirstWait, hwait⟩

end Coap
