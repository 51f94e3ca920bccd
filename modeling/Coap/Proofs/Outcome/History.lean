import Mathlib.Data.List.Induction
import Coap.Proofs.InFlight.Schedule
import Coap.Proofs.Outcome.Calls
import Coap.Proofs.Runs.Fates

/-!
# The history of a message in flight

In a serial run every message in flight was queued by one of the turns. What is
in its entry follows from the turns since then: it was sent as often as the
entry says, every time without failure, and its timer was started late enough
and runs long enough. This is kept by every turn, since a turn decides on the
fate of each message and the fate tells what is sent and what is left.

The timeouts double until a duration cannot be doubled, and a timeout that long
has no deadline. So the timeout is compared with the doubled one only as far as
there are clock readings.

## Main results

* `Serial.tracked` — what is known of a message in flight.
* `Serial.number_unique`, `Serial.ticket_unique` — a number and a ticket stand
  for one turn.
* `Serial.of_gone` — what is no longer in flight is never sent again.
* `Serial.spent` — no message is sent more often than allowed, or to another
  destination, or with other bytes.
-/

namespace Coap

/-- The datagrams that some turns sent for the message under a number. -/
def sentBy (turns : List Turn) (seq : Nat) : List Sending :=
  turns.flatMap fun t => t.sentFor seq

theorem sentBy_append (first last : List Turn) (seq : Nat) :
    sentBy (first ++ last) seq = sentBy first seq ++ sentBy last seq :=
  List.flatMap_append

theorem sentBy_singleton (t : Turn) (seq : Nat) : sentBy [t] seq = t.sentFor seq :=
  List.flatMap_singleton _ t

/-! ## Numbers -/

/-- A call leaves no number behind the next one. -/
theorem Call.Accounts.nextSeq_le {α : Type} {c : Call α}
    {rights : Multiset Ticket} {debts : Multiset Due}
    {post : α → Multiset Ticket → Multiset Due → Prop} {e e' : Endpoint}
    {actions : List Action} {value : Option α} (h : c.Accounts rights debts post)
    (he : e.inFlight.Ordered) (hruns : c.Runs e actions e' value) :
    e.inFlight.nextSeq ≤ e'.inFlight.nextSeq := by
  induction hruns generalizing rights debts with
  | done => exact Nat.le_refl _
  | fault => exact Nat.le_refl _
  | step hstep hrest ih =>
      obtain ⟨hevolves, rights', debts', -, -, hnext⟩ := h.step he hstep
      exact Nat.le_trans hevolves.nextSeq_le (ih hnext hevolves.ordered)

variable {config : Config} {t : Turn} {turns earlier later : List Turn}
  {e : Endpoint} {seq : Nat} {entry origin : Entry}

namespace Turn

theorem Taken.nextSeq_le (ht : t.Taken) (he : t.before.Fits config) :
    t.before.inFlight.nextSeq ≤ t.after.inFlight.nextSeq := by
  obtain ⟨value, hruns⟩ := ht.runs
  exact t.operation.accounts.nextSeq_le he.sound.toOrdered hruns

/-- The number that a message got is the one that was next. -/
theorem number?_eq_some (ht : t.Taken) (he : t.before.Fits config)
    (h : t.number? = some seq) :
    seq = t.before.inFlight.nextSeq ∧ seq < t.after.inFlight.nextSeq := by
  have hle := ht.nextSeq_le he
  rw [number?, InFlight.numbered] at h
  split at h
  · cases h
  · cases h
    exact ⟨rfl, by omega⟩

/-- A send that gave its message a number has queued it. -/
theorem Taken.queues (ht : t.Taken) (he : t.before.Fits config)
    {destination : SocketAddress} {m : Message} {ticket : Option Ticket}
    (hoperation : t.operation = .send destination m ticket)
    (hnumber : t.number? = some seq) : ∃ entry, t.Queues config seq entry := by
  cases ht.course he with
  | quiet h =>
      rw [h.number] at hnumber
      cases hnumber
  | sent h =>
      rw [(number?_eq_some ht he hnumber).1]
      exact ⟨_, h.queues⟩
  | answered h =>
      rw [h.operation] at hoperation
      cases hoperation
  | scanned h =>
      rw [h.operation] at hoperation
      cases hoperation

/-- The entry that a send queues carries the ticket of the send. -/
theorem Queues.ticket_eq (h : t.Queues config seq entry) :
    entry.ticket = t.operation.ticket := by
  obtain ⟨hoperation, -⟩ := h
  rw [hoperation]
  rfl

end Turn

namespace Serial

/-! ## Turns of a run -/

theorem fits (h : Serial config turns e) : e.Fits config := by
  induction h with
  | start hnew => exact (Endpoint.fits_new hnew).1
  | turn _ ht _ ih => exact ht.fits ih

theorem of_snoc (h : Serial config (turns ++ [t]) e) :
    Serial config turns t.before ∧ t.Taken ∧ e = t.after := by
  generalize hall : turns ++ [t] = all at h
  cases h with
  | start => exact absurd hall (by simp)
  | turn h ht _ =>
      obtain ⟨rfl, hlast⟩ := List.append_inj' hall rfl
      cases hlast
      exact ⟨h, ht, rfl⟩

/-- The turns up to some turn are a run, and that turn goes on from there. -/
theorem split (h : Serial config (earlier ++ t :: later) e) :
    Serial config earlier t.before ∧ t.Taken := by
  induction later using List.reverseRecOn generalizing e with
  | nil =>
      obtain ⟨hearlier, ht, -⟩ := h.of_snoc
      exact ⟨hearlier, ht⟩
  | append_singleton rest last ih =>
      rw [← List.cons_append, ← List.append_assoc] at h
      exact ih h.of_snoc.1

theorem number_lt (h : Serial config turns e) (ht : t ∈ turns)
    (hnumber : t.number? = some seq) : seq < e.inFlight.nextSeq := by
  induction h with
  | start => cases ht
  | @turn turns last hrun hlast _ ih =>
      rcases List.mem_append.mp ht with hold | hnew
      · exact Nat.lt_of_lt_of_le (ih hold) (hlast.nextSeq_le hrun.fits)
      · cases List.mem_singleton.mp hnew
        exact (Turn.number?_eq_some hlast hrun.fits hnumber).2

/-- A number is that of one turn. -/
theorem number_unique (h : Serial config turns e) {t' : Turn} (ht : t ∈ turns)
    (ht' : t' ∈ turns) (hnumber : t.number? = some seq)
    (hnumber' : t'.number? = some seq) : t = t' := by
  induction h with
  | start => cases ht
  | @turn turns last hrun hlast _ ih =>
      have hnew {t : Turn} (ht : t ∈ turns) (hnumber : t.number? = some seq) :
          last.number? ≠ some seq := by
        intro heq
        have hlt := hrun.number_lt ht hnumber
        have heq' := (Turn.number?_eq_some hlast hrun.fits heq).1
        omega
      rcases List.mem_append.mp ht with hold | hlast' <;>
        rcases List.mem_append.mp ht' with hold' | hlast''
      · exact ih hold hold'
      · cases List.mem_singleton.mp hlast''
        exact absurd hnumber' (hnew hold hnumber)
      · cases List.mem_singleton.mp hlast'
        exact absurd hnumber (hnew hold' hnumber')
      · rw [List.mem_singleton.mp hlast', List.mem_singleton.mp hlast'']

/-- A ticket is that of one turn. -/
theorem ticket_unique (h : Serial config turns e) {t' : Turn} (ht : t ∈ turns)
    (ht' : t' ∈ turns) {ticket : Ticket}
    (hticket : t.operation.ticket = some ticket)
    (hticket' : t'.operation.ticket = some ticket) : t = t' := by
  induction h with
  | start => cases ht
  | @turn turns last _ _ hfresh ih =>
      rcases List.mem_append.mp ht with hold | hlast <;>
        rcases List.mem_append.mp ht' with hold' | hlast'
      · exact ih hold hold'
      · cases List.mem_singleton.mp hlast'
        exact absurd hticket (hfresh ticket hticket' t hold)
      · cases List.mem_singleton.mp hlast
        exact absurd hticket' (hfresh ticket hticket t' hold')
      · rw [List.mem_singleton.mp hlast, List.mem_singleton.mp hlast']

/-- Nothing is sent for a number before it is given. -/
theorem sentBy_of_nextSeq_le (h : Serial config turns e)
    (hseq : e.inFlight.nextSeq ≤ seq) : sentBy turns seq = [] := by
  induction h with
  | start => rfl
  | @turn turns last hrun hlast _ ih =>
      have hle := hlast.nextSeq_le hrun.fits
      have hmeets (entry : Entry) : ¬last.Meets config seq entry := by
        rintro (hmem | hqueues)
        · have hlt := hrun.fits.sound.seq_lt hmem
          omega
        · have hlt := (Turn.number?_eq_some hlast hrun.fits hqueues.number).2
          omega
      rw [sentBy_append, sentBy_singleton, ih (by omega),
        (hlast.of_not_meets hrun.fits hmeets).2]
      rfl

/-- What is no longer in flight never comes back, and is not sent again. -/
theorem of_gone (h : Serial config (earlier ++ t :: later) e)
    (hlt : seq < t.after.inFlight.nextSeq) (hgone : seq ∉ t.after.inFlight.seqs) :
    seq < e.inFlight.nextSeq ∧ seq ∉ e.inFlight.seqs ∧ sentBy later seq = [] := by
  induction later using List.reverseRecOn generalizing e with
  | nil =>
      obtain ⟨-, -, rfl⟩ := h.of_snoc
      exact ⟨hlt, hgone, rfl⟩
  | append_singleton rest last ih =>
      rw [← List.cons_append, ← List.append_assoc] at h
      obtain ⟨hrun, hlast, rfl⟩ := h.of_snoc
      obtain ⟨hlt', hgone', hnone⟩ := ih hrun
      have hmeets (entry : Entry) : ¬last.Meets config seq entry := by
        rintro (hmem | hqueues)
        · exact hgone' (InFlight.mem_seqs_of_mem hmem)
        · have heq := hqueues.seq_eq
          omega
      have hle := hlast.nextSeq_le hrun.fits
      obtain ⟨hgone'', hsent⟩ := hlast.of_not_meets hrun.fits hmeets
      refine ⟨by omega, hgone'', ?_⟩
      rw [sentBy_append, sentBy_singleton, hnone, hsent]
      rfl

end Serial

/-! ## What is known of a message in flight -/

/-- What is known of the entry of a message in flight after some turns, from the
entry that it was queued with. -/
structure Tracked (config : Config) (turns : List Turn) (seq : Nat)
    (origin entry : Entry) : Prop where
  slot : Slot.of (seq, entry) = Slot.of (seq, origin)
  sent : ∀ s ∈ sentBy turns seq,
    s = ⟨origin.destination, origin.message, .ok ()⟩
  count : (sentBy turns seq).length = entry.transmissions.toNat
  pos : 1 ≤ entry.transmissions.toNat
  le : entry.transmissions.toNat ≤ config.transmission.maxRetransmit.toNat + 1
  started : origin.timer.started.nanos + backoffTime origin.timer.timeout.nanos
    (entry.transmissions.toNat - 1) ≤ entry.timer.started.nanos
  timeout : min (2 ^ (entry.transmissions.toNat - 1) * origin.timer.timeout.nanos)
    Instant.limit ≤ entry.timer.timeout.nanos

namespace Tracked

/-- A message that was sent so often is due only when so many timeouts, each
twice the one before, have passed since it was queued. -/
theorem le_of_isDue (h : Tracked config turns seq origin entry) {now : Instant}
    (hdue : entry.IsDue now) :
    origin.timer.started.nanos + backoffTime origin.timer.timeout.nanos
      entry.transmissions.toNat ≤ now.nanos := by
  obtain ⟨deadline, hdeadline, hle⟩ := hdue
  obtain ⟨hsum, hlimit⟩ := Instant.nanos_add? hdeadline
  have hpos := h.pos
  obtain ⟨n, hn⟩ : ∃ n, entry.transmissions.toNat = n + 1 :=
    ⟨entry.transmissions.toNat - 1, by omega⟩
  have hstarted := h.started
  have htimeout := h.timeout
  rw [hn, Nat.add_sub_cancel] at hstarted htimeout
  rw [hn, backoffTime_succ]
  omega

theorem kept (h : Tracked config turns seq origin entry)
    (hsent : t.sentFor seq = []) :
    Tracked config (turns ++ [t]) seq origin entry := by
  have hsame : sentBy (turns ++ [t]) seq = sentBy turns seq := by
    rw [sentBy_append, sentBy_singleton, hsent, List.append_nil]
  exact ⟨h.slot, hsame ▸ h.sent, hsame ▸ h.count, h.pos, h.le, h.started, h.timeout⟩

theorem resent (h : Tracked config turns seq origin entry) {now : Instant}
    (hmax : ¬config.transmission.maxRetransmit < entry.transmissions)
    (hlimit : config.transmission.maxRetransmit.toNat < 65535)
    (hdue : entry.IsDue now)
    (hsent : t.sentFor seq = [⟨entry.destination, entry.message, .ok ()⟩]) :
    Tracked config (turns ++ [t]) seq origin (entry.retransmitted now) := by
  have hle : entry.transmissions.toNat ≤
      config.transmission.maxRetransmit.toNat := by
    rw [UInt16.lt_iff_toNat_lt] at hmax
    omega
  have hcount : (entry.retransmitted now).transmissions.toNat =
      entry.transmissions.toNat + 1 :=
    Entry.transmissions_retransmitted (by omega)
  have hpos := h.pos
  obtain ⟨n, hn⟩ : ∃ n, entry.transmissions.toNat = n + 1 :=
    ⟨entry.transmissions.toNat - 1, by omega⟩
  refine ⟨h.slot, ?_, ?_, ?_, ?_, ?_, ?_⟩
  · intro s hs
    rw [sentBy_append, sentBy_singleton, hsent] at hs
    rcases List.mem_append.mp hs with hold | hnew
    · exact h.sent s hold
    · rw [List.mem_singleton.mp hnew]
      have hdestination : entry.destination = origin.destination :=
        congrArg Slot.destination h.slot
      have hmessage : entry.message = origin.message :=
        congrArg Slot.message h.slot
      rw [hdestination, hmessage]
  · rw [sentBy_append, sentBy_singleton, hsent, List.length_append, h.count,
      hcount]
    rfl
  · omega
  · omega
  · rw [hcount, Nat.add_sub_cancel]
    exact h.le_of_isDue hdue
  · have htimeout := h.timeout
    rw [hn, Nat.add_sub_cancel] at htimeout
    rw [hcount, Nat.add_sub_cancel, hn, Nat.pow_succ, Nat.mul_comm (2 ^ n) 2,
      Nat.mul_assoc]
    exact Duration.le_nanos_double htimeout

end Tracked

/-- A message that was just queued was sent once, when its timer was started. -/
theorem Turn.Queues.tracked (h : t.Queues config seq entry)
    (hnone : sentBy turns seq = [])
    (hsent : t.sentFor seq = [⟨entry.destination, entry.message, .ok ()⟩]) :
    Tracked config (turns ++ [t]) seq entry entry := by
  have hone : entry.transmissions.toNat = 1 := by
    cases h
    rfl
  have hall : sentBy (turns ++ [t]) seq =
      [⟨entry.destination, entry.message, .ok ()⟩] := by
    rw [sentBy_append, sentBy_singleton, hnone, hsent]
    rfl
  refine ⟨rfl, ?_, ?_, by omega, by omega, ?_, ?_⟩
  · intro s hs
    rw [hall] at hs
    exact List.mem_singleton.mp hs
  · rw [hall, hone]
    rfl
  · rw [hone, backoffTime]
    omega
  · rw [hone, Nat.sub_self, Nat.pow_zero, Nat.one_mul]
    exact Nat.min_le_left _ _

namespace Serial

/-- A message in flight was queued by a turn, and what is in its entry follows
from the turns since then. -/
theorem tracked (h : Serial config turns e)
    (hmax : config.transmission.maxRetransmit.toNat < 65535)
    (hmem : (seq, entry) ∈ e.inFlight.entries) :
    ∃ t ∈ turns, ∃ origin, t.Queues config seq origin ∧
      Tracked config turns seq origin entry := by
  induction h generalizing entry with
  | start hnew =>
      rw [(Endpoint.fits_new hnew).2] at hmem
      cases hmem
  | @turn turns last hrun hlast _ ih =>
      have hlater {p : Turn → Prop} (h : ∃ t ∈ turns, p t) :
          ∃ t ∈ turns ++ [last], p t := by
        obtain ⟨t, ht, hp⟩ := h
        exact ⟨t, List.mem_append_left _ ht, hp⟩
      by_cases hmeets : ∃ entry, last.Meets config seq entry
      · obtain ⟨entry₀, hmeets⟩ := hmeets
        obtain ⟨left, outcome, hfate, hleft, -⟩ := hlast.decides hrun.fits hmeets
        have hsome := (hleft entry).mp hmem
        generalize hsent : last.sentFor seq = sent at hfate
        cases hfate with
        | kept hbefore =>
            cases hsome
            obtain ⟨t, ht, origin, hqueues, htracked⟩ := ih hbefore
            exact hlater ⟨t, ht, origin, hqueues, htracked.kept hsent⟩
        | answered => cases hsome
        | launched hqueues =>
            cases hsome
            refine ⟨last, List.mem_append_right _ (List.mem_singleton_self _),
              entry, hqueues, hqueues.tracked ?_ hsent⟩
            exact hrun.sentBy_of_nextSeq_le (Nat.le_of_eq hqueues.seq_eq.symm)
        | stranded => cases hsome
        | scanned hbefore _ _ hdue htreated =>
            cases htreated with
            | exhausted => cases hsome
            | failed => cases hsome
            | resent hless =>
                cases hsome
                obtain ⟨t, ht, origin, hqueues, htracked⟩ := ih hbefore
                exact hlater ⟨t, ht, origin, hqueues,
                  htracked.resent hless hmax hdue hsent⟩
      · have hgone := (hlast.of_not_meets hrun.fits (not_exists.mp hmeets)).1
        exact absurd (InFlight.mem_seqs_of_mem hmem) hgone

/-- A message in flight was queued by a turn, and it goes to the same place with
the same bytes, id and ticket ever since. -/
theorem originates (h : Serial config turns e)
    (hmem : (seq, entry) ∈ e.inFlight.entries) :
    ∃ t ∈ turns, ∃ origin, t.Queues config seq origin ∧
      Slot.of (seq, entry) = Slot.of (seq, origin) := by
  induction h generalizing entry with
  | start hnew =>
      rw [(Endpoint.fits_new hnew).2] at hmem
      cases hmem
  | @turn turns last hrun hlast _ ih =>
      have hlater {entry : Entry}
          (hbefore : (seq, entry) ∈ last.before.inFlight.entries) :
          ∃ t ∈ turns ++ [last], ∃ origin, t.Queues config seq origin ∧
            Slot.of (seq, entry) = Slot.of (seq, origin) := by
        obtain ⟨t, ht, horigin⟩ := ih hbefore
        exact ⟨t, List.mem_append_left _ ht, horigin⟩
      by_cases hmeets : ∃ entry, last.Meets config seq entry
      · obtain ⟨entry₀, hmeets⟩ := hmeets
        obtain ⟨left, outcome, hfate, hleft, -⟩ := hlast.decides hrun.fits hmeets
        have hsome := (hleft entry).mp hmem
        generalize last.sentFor seq = sent at hfate
        cases hfate with
        | kept hbefore =>
            cases hsome
            exact hlater hbefore
        | answered => cases hsome
        | launched hqueues =>
            cases hsome
            exact ⟨last, List.mem_append_right _ (List.mem_singleton_self _),
              entry, hqueues, rfl⟩
        | stranded => cases hsome
        | scanned hbefore _ _ _ htreated =>
            cases htreated with
            | exhausted => cases hsome
            | failed => cases hsome
            | resent =>
                cases hsome
                obtain ⟨t, ht, origin, hqueues, hslot⟩ := hlater hbefore
                exact ⟨t, ht, origin, hqueues, hslot⟩
      · have hgone := (hlast.of_not_meets hrun.fits (not_exists.mp hmeets)).1
        exact absurd (InFlight.mem_seqs_of_mem hmem) hgone

/-- The turn that queued a message is the one that gave it its number. -/
theorem queues_unique (h : Serial config turns e) {t' : Turn}
    (ht : t ∈ turns) (ht' : t' ∈ turns) (hqueues : t.Queues config seq origin)
    (hqueues' : t'.Queues config seq entry) : t = t' ∧ origin = entry := by
  obtain rfl := h.number_unique ht ht' hqueues.number hqueues'.number
  exact ⟨rfl, (hqueues.unique hqueues').2⟩

/-- What is sent for a message is sent when it is queued, or by a scan when it
is due and was not sent too often. -/
theorem sends (h : Serial config turns t.before) (ht : t.Taken)
    (hmax : config.transmission.maxRetransmit.toNat < 65535)
    (hsent : t.sentFor seq ≠ []) :
    ∃ origin result,
      t.sentFor seq = [⟨origin.destination, origin.message, result⟩] ∧
      ((t.Queues config seq origin ∧ sentBy turns seq = []) ∨
        (t.operation = .checkQueues ∧
          (∃ t' ∈ turns, t'.Queues config seq origin) ∧
          1 ≤ (sentBy turns seq).length ∧
          (sentBy turns seq).length ≤ config.transmission.maxRetransmit.toNat ∧
          ∃ now, t.clock = [now] ∧ origin.timer.started.nanos +
            backoffTime origin.timer.timeout.nanos (sentBy turns seq).length ≤
              now.nanos)) := by
  have hmeets : ∃ entry, t.Meets config seq entry := by
    by_contra hnone
    exact hsent (ht.of_not_meets h.fits (not_exists.mp hnone)).2
  obtain ⟨entry, hmeets⟩ := hmeets
  obtain ⟨left, outcome, hfate, -, -⟩ := ht.decides h.fits hmeets
  have hqueued (hqueues : t.Queues config seq entry) : sentBy turns seq = [] :=
    h.sentBy_of_nextSeq_le (Nat.le_of_eq hqueues.seq_eq.symm)
  generalize hsending : t.sentFor seq = sent at hfate hsent ⊢
  cases hfate with
  | kept => exact absurd rfl hsent
  | answered => exact absurd rfl hsent
  | launched hqueues =>
      exact ⟨entry, .ok (), rfl, .inl ⟨hqueues, hqueued hqueues⟩⟩
  | stranded cause hqueues =>
      exact ⟨entry, .error cause, rfl, .inl ⟨hqueues, hqueued hqueues⟩⟩
  | @scanned now _ _ _ hbefore hoperation hclock hdue htreated =>
      obtain ⟨t', ht', origin, hqueues, htracked⟩ := h.tracked hmax hbefore
      have hdestination : entry.destination = origin.destination :=
        congrArg Slot.destination htracked.slot
      have hmessage : entry.message = origin.message :=
        congrArg Slot.message htracked.slot
      have hpos := htracked.pos
      have hagain (hless :
          ¬config.transmission.maxRetransmit < entry.transmissions) :
          t.operation = .checkQueues ∧
          (∃ t' ∈ turns, t'.Queues config seq origin) ∧
          1 ≤ (sentBy turns seq).length ∧
          (sentBy turns seq).length ≤ config.transmission.maxRetransmit.toNat ∧
          ∃ now, t.clock = [now] ∧ origin.timer.started.nanos +
            backoffTime origin.timer.timeout.nanos (sentBy turns seq).length ≤
              now.nanos := by
        rw [htracked.count]
        rw [UInt16.lt_iff_toNat_lt] at hless
        exact ⟨hoperation, ⟨t', ht', hqueues⟩, hpos, by omega, now, hclock,
          htracked.le_of_isDue hdue⟩
      cases htreated with
      | exhausted => exact absurd rfl hsent
      | failed cause hless =>
          refine ⟨origin, .error cause, ?_, .inr (hagain hless)⟩
          rw [hdestination, hmessage]
      | resent hless =>
          refine ⟨origin, .ok (), ?_, .inr (hagain hless)⟩
          rw [hdestination, hmessage]

/-- No message is sent more often than allowed, or to another destination, or
with other bytes. -/
theorem spent (h : Serial config turns e)
    (hmax : config.transmission.maxRetransmit.toNat < 65535) (ht : t ∈ turns)
    (hqueues : t.Queues config seq origin) :
    (∀ s ∈ sentBy turns seq,
      s.destination = origin.destination ∧ s.datagram = origin.message) ∧
    (sentBy turns seq).length ≤ 1 + config.transmission.maxRetransmit.toNat := by
  induction h with
  | start => cases ht
  | @turn turns last hrun hlast hfresh ih =>
      have hwhole : Serial config (turns ++ [last]) last.after :=
        .turn hrun hlast hfresh
      have hbefore : (∀ s ∈ sentBy turns seq,
            s.destination = origin.destination ∧ s.datagram = origin.message) ∧
          (sentBy turns seq).length ≤
            1 + config.transmission.maxRetransmit.toNat := by
        rcases List.mem_append.mp ht with hold | hnew
        · exact ih hold
        · rw [← List.mem_singleton.mp hnew] at hrun
          rw [hrun.sentBy_of_nextSeq_le (Nat.le_of_eq hqueues.seq_eq.symm)]
          exact ⟨nofun, Nat.zero_le _⟩
      rw [sentBy_append, sentBy_singleton]
      by_cases hsent : last.sentFor seq = []
      · rw [hsent, List.append_nil]
        exact hbefore
      · obtain ⟨origin', result, hsending, hwhen⟩ := hrun.sends hlast hmax hsent
        have hsame : origin = origin' := by
          rcases hwhen with ⟨hqueues', -⟩ | ⟨-, ⟨t', ht', hqueues'⟩, -⟩
          · exact (hwhole.queues_unique ht
              (List.mem_append_right _ (List.mem_singleton_self _))
              hqueues hqueues').2
          · exact (hwhole.queues_unique ht (List.mem_append_left _ ht')
              hqueues hqueues').2
        subst hsame
        rw [hsending]
        refine ⟨?_, ?_⟩
        · intro s hs
          rcases List.mem_append.mp hs with hold | hnew
          · exact hbefore.1 s hold
          · rw [List.mem_singleton.mp hnew]
            exact ⟨rfl, rfl⟩
        · rw [List.length_append, List.length_singleton]
          rcases hwhen with ⟨-, hnone⟩ | ⟨-, -, -, hle, -⟩
          · rw [hnone, List.length_nil]
            omega
          · omega

end Serial

end Coap
