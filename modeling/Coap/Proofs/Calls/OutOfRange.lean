import Coap.Proofs.InFlight.Questions
import Coap.Proofs.InFlight.Schedule
import Coap.Proofs.Runs.Scans

/-!
# Deadlines that are out of range

A message may be put in flight with any timeout, and each time it is sent again the
timeout doubles, up to the longest one there is. The deadline is a sum that may be no
clock reading, and then there is no telling anything about it. The questions about
time differ in how far they look. The one for all messages that are due and the one for
the time until a timer runs out come across every deadline. The others stop at the
first timer that has run out, so what stands behind it does not matter to them.

A scan asks the first of these questions. One message with a deadline out of range is
enough for every scan to break off, whatever is due besides, until that message is
taken out. What the questions do answer is right, since no timer that is out of range
has run out.

## Main results

* `InFlight.inRange_of_within` — deadlines stay in range if the first timeouts, doubled
  as often as messages are sent again, do.
* `InFlight.Sound.answeredInRange` — which questions of a queue are answered, and how.
* `Endpoint.scansInRange` — when scans break off, and what they leave.
* `questions_answered_iff` — both, for every queue.
* `overlong_wait_unanswered` — a wait that is accepted leaves all questions without an
  answer, though another message is due.
-/

namespace Coap

/-! ## Timeouts that are short enough -/

section ShortEnough

variable {latest : Instant} {longest : Duration}

/-- A change that is made at this reading or before, with this timeout or a shorter
one. -/
def Change.Within (latest : Instant) (longest : Duration) : Change → Prop
  | .add _ _ _ _ now timeout => now.nanos ≤ latest.nanos ∧ timeout.nanos ≤ longest.nanos
  | .retransmit _ now => now.nanos ≤ latest.nanos
  | .remove _ => True
  | .takeExpired _ => True

/-- Whether a change notes that the message with an id was sent again. -/
def Change.resends (id : UInt16) : Change → Bool
  | .retransmit id' _ => id' == id
  | _ => false

/-- The timer was started at this reading or before, with this timeout or a shorter one
that was doubled so many times at most. -/
structure Entry.Within (latest : Instant) (longest : Duration) (doublings : Nat)
    (entry : Entry) : Prop where
  started : entry.timer.started.nanos ≤ latest.nanos
  timeout : entry.timer.timeout.nanos ≤ 2 ^ doublings * longest.nanos

namespace Entry.Within

variable {entry : Entry} {n : Nat}

theorem mono (h : entry.Within latest longest n) (k : Nat) :
    entry.Within latest longest (n + k) where
  started := h.started
  timeout :=
    h.timeout.trans (Nat.mul_le_mul_right _ (Nat.pow_le_pow_right (by decide) (by omega)))

theorem retransmitted (h : entry.Within latest longest n) {now : Instant}
    (hnow : now.nanos ≤ latest.nanos) :
    (entry.retransmitted now).Within latest longest (n + 1) where
  started := hnow
  timeout := by
    have hdouble : (entry.retransmitted now).timer.timeout.nanos =
        min (2 * entry.timer.timeout.nanos) (Duration.limit - 1) :=
      entry.timer.timeout.nanos_double_eq_min
    have htimeout := h.timeout
    rw [hdouble, Nat.pow_succ', Nat.mul_assoc]
    omega

theorem inRange (h : entry.Within latest longest n)
    (hlimit : latest.nanos + 2 ^ n * longest.nanos < Instant.limit) :
    entry.timer.InRange := by
  have hstarted := h.started
  have htimeout := h.timeout
  unfold Timer.InRange
  omega

end Entry.Within

/-- A change doubles the timeout of the message that was sent again, and no other. -/
theorem PlainList.within_change {l : List Entry} {doublings : UInt16 → Nat}
    (hl : ∀ entry ∈ l, entry.Within latest longest (doublings entry.id)) {c : Change}
    (hc : c.Within latest longest) {entry : Entry} (hentry : entry ∈ (change l c).1) :
    entry.Within latest longest
      (doublings entry.id + if c.resends entry.id then 1 else 0) := by
  have hkept (hin : entry ∈ l) : entry.Within latest longest
      (doublings entry.id + if c.resends entry.id then 1 else 0) :=
    (hl entry hin).mono _
  cases c with
  | add id destination message ticket now timeout =>
      rw [change] at hentry
      split at hentry
      · exact hkept hentry
      · rcases List.mem_append.mp hentry with hin | hnew
        · exact hkept hin
        · rw [List.mem_singleton.mp hnew]
          refine ⟨hc.1, hc.2.trans ?_⟩
          exact Nat.le_mul_of_pos_left _ (Nat.two_pow_pos _)
  | remove id => exact hkept (List.mem_of_mem_filter hentry)
  | retransmit id now =>
      obtain ⟨before, hbefore, rfl⟩ := List.mem_map.mp hentry
      by_cases hid : before.id = id
      · have hresends : (Change.retransmit id now).resends (before.retransmitted now).id =
            true := beq_iff_eq.mpr hid.symm
        rw [if_pos hid, if_pos hresends]
        exact (hl before hbefore).retransmitted hc
      · rw [if_neg hid] at hkept ⊢
        exact hkept hbefore
  | takeExpired now =>
      rw [change] at hentry
      split at hentry
      · exact hkept hentry
      · split at hentry
        · exact hkept (List.mem_of_mem_filter hentry)
        · exact hkept hentry

/-- After some changes a timeout was doubled as often as its message was sent again, at
most. -/
theorem PlainList.within_replay (doublings : UInt16 → Nat) {l : List Entry}
    (hl : ∀ entry ∈ l, entry.Within latest longest (doublings entry.id))
    {changes : List Change} (hchanges : ∀ c ∈ changes, c.Within latest longest) :
    ∀ entry ∈ (replay change l changes).1, entry.Within latest longest
      (doublings entry.id + changes.countP (·.resends entry.id)) := by
  induction changes generalizing l doublings with
  | nil => exact hl
  | cons c rest ih =>
      obtain ⟨hc, hrest⟩ := List.forall_mem_cons.mp hchanges
      intro entry hentry
      rw [List.countP_cons, Nat.add_comm (rest.countP _), ← Nat.add_assoc]
      exact ih (fun id => doublings id + if c.resends id then 1 else 0)
        (fun _ => within_change hl hc) hrest entry hentry

/-- As long as the clock and the timeouts stay small enough, all deadlines are clock
readings. -/
theorem InFlight.inRange_of_within {changes : List Change} {n : Nat}
    (hchanges : ∀ c ∈ changes, c.Within latest longest)
    (hcount : ∀ id, changes.countP (·.resends id) ≤ n)
    (hlimit : latest.nanos + 2 ^ n * longest.nanos < Instant.limit) :
    ∀ entry ∈ (replay InFlight.change .empty changes).1.toList, entry.timer.InRange := by
  intro entry hentry
  have hlist : (replay PlainList.change [] changes).1 =
      (replay InFlight.change .empty changes).1.toList :=
    congrArg Prod.fst (InFlight.sound_empty.replay changes).2.1
  rw [← hlist] at hentry
  have hwithin := PlainList.within_replay (fun _ => 0) (by simp) hchanges entry hentry
  have hpow : 2 ^ (0 + changes.countP (·.resends entry.id)) ≤ 2 ^ n :=
    Nat.pow_le_pow_right (by decide) (by rw [Nat.zero_add]; exact hcount entry.id)
  have hmul := Nat.mul_le_mul_right longest.nanos hpow
  exact hwithin.inRange (by omega)

end ShortEnough

/-! ## Questions -/

namespace InFlight

variable {q : InFlight} {now : Instant}

/-- A deadline that is no clock reading stands behind a timer that has run out. -/
def DueAhead (q : InFlight) (now : Instant) : Prop :=
  ∀ before entry after, q.toList = before ++ entry :: after →
    entry.timer.InRange ∨ ∃ other ∈ before, other.timer.HasRunOut now

theorem firstExpired?_toList_eq_none_iff :
    firstExpired? now q.toList = none ↔ ¬q.DueAhead now := by
  rw [firstExpired?_eq_none_iff, DueAhead]
  push Not
  constructor
  · rintro ⟨before, entry, after, hsplit, hbefore, hentry⟩
    exact ⟨before, entry, after, hsplit, hentry, hbefore⟩
  · rintro ⟨before, entry, after, hsplit, hentry, hbefore⟩
    exact ⟨before, entry, after, hsplit, hbefore, hentry⟩

theorem firstExpired?_toList_eq_some_iff {found : Option Entry} :
    firstExpired? now q.toList = some found ↔
      q.DueAhead now ∧ found = (q.due now).head? := by
  cases hfirst : firstExpired? now q.toList with
  | none =>
      have hnot := firstExpired?_toList_eq_none_iff.mp hfirst
      simp only [reduceCtorEq, hnot, false_and]
  | some first =>
      have hahead : q.DueAhead now := by
        by_contra hnot
        rw [firstExpired?_toList_eq_none_iff.mpr hnot] at hfirst
        cases hfirst
      rw [Option.some.injEq, firstExpired?_eq_some hfirst, due, List.head?_filter]
      simp only [hahead, true_and]
      exact eq_comm

/-- At this time, these are the questions of a queue that are answered, and these are
the answers. -/
structure AnsweredInRange (q : InFlight) (now : Instant) : Prop where
  /-- What is due is told if all deadlines are clock readings. -/
  expiredIds : ∀ ids, q.expiredIds? now = some ids ↔
    (∀ entry ∈ q.toList, entry.timer.InRange) ∧ ids = (q.due now).map (·.id)
  /-- So is the time until a timer runs out. -/
  nextTimeout : (∃ next, q.nextTimeout? now = some next) ↔
    ∀ entry ∈ q.toList, entry.timer.InRange
  /-- Whether something is due is told if each deadline that is no clock reading stands
  behind something that is. -/
  hasExpired : ∀ answer, q.hasExpired? now = some answer ↔
    q.DueAhead now ∧ answer = !(q.due now).isEmpty
  /-- So is the first message that is due, which is taken out. -/
  takeExpired : ∀ found left, q.takeExpired? now = some (found, left) ↔
    q.DueAhead now ∧ found = (q.due now).head? ∧
      left = found.elim q fun entry => (q.remove entry.id).2

theorem expiredIds?_eq_some_inRange_iff {ids : List UInt16} :
    q.expiredIds? now = some ids ↔
      (∀ entry ∈ q.toList, entry.timer.InRange) ∧ ids = (q.due now).map (·.id) := by
  by_cases hall : ∀ entry ∈ q.toList, entry.timer.InRange
  · rw [expiredIds?_of_inRange hall, Option.some.injEq]
    constructor
    · rintro rfl
      exact ⟨hall, rfl⟩
    · rintro ⟨-, rfl⟩
      rfl
  · have hnone : expiredEntries? now q.toList = none := by
      rw [expiredEntries?_eq_none_iff]
      simpa using hall
    simp only [expiredIds?, hnone, Option.map_none, reduceCtorEq, hall, false_and]

theorem exists_nextTimeout?_iff :
    (∃ next, q.nextTimeout? now = some next) ↔
      ∀ entry ∈ q.toList, entry.timer.InRange := by
  constructor
  · rintro ⟨next, hnext⟩
    by_contra hall
    have hnone : remainingTimes? now q.toList = none := by
      rw [remainingTimes?_eq_none_iff]
      simpa using hall
    rw [nextTimeout?, hnone] at hnext
    cases hnext
  · intro hall
    obtain ⟨next, hnext, -⟩ := exists_nextTimeout? hall now
    exact ⟨next, hnext⟩

theorem Sound.answeredInRange (hq : q.Sound) (now : Instant) :
    q.AnsweredInRange now where
  expiredIds := fun _ => expiredIds?_eq_some_inRange_iff
  nextTimeout := exists_nextTimeout?_iff
  hasExpired := by
    intro answer
    simp only [hasExpired?, Option.map_eq_some_iff, firstExpired?_toList_eq_some_iff]
    constructor
    · rintro ⟨found, ⟨hahead, rfl⟩, rfl⟩
      refine ⟨hahead, ?_⟩
      cases q.due now <;> rfl
    · rintro ⟨hahead, rfl⟩
      refine ⟨_, ⟨hahead, rfl⟩, ?_⟩
      cases q.due now <;> rfl
  takeExpired := by
    intro found left
    -- the entry that is found is the one that its id leads to
    have hremove {entry : Entry} (h : (q.due now).head? = some entry) :
        q.remove entry.id = (some entry, (q.remove entry.id).2) := by
      obtain ⟨hmem, -⟩ := mem_due.mp (List.mem_of_mem_head? h)
      exact Prod.ext (hq.fst_remove_of_mem hmem) rfl
    simp only [takeExpired?, Option.map_eq_some_iff, firstExpired?_toList_eq_some_iff]
    constructor
    · rintro ⟨first, ⟨hahead, rfl⟩, htaken⟩
      cases hhead : (q.due now).head? with
      | none =>
          rw [hhead] at htaken
          cases htaken
          exact ⟨hahead, rfl, rfl⟩
      | some entry =>
          rw [hhead] at htaken
          dsimp only at htaken
          rw [hremove hhead] at htaken
          cases htaken
          exact ⟨hahead, rfl, rfl⟩
    · rintro ⟨hahead, rfl, rfl⟩
      refine ⟨_, ⟨hahead, rfl⟩, ?_⟩
      cases hhead : (q.due now).head? with
      | none => rfl
      | some entry => exact hremove hhead

end InFlight

/-! ## Scans -/

namespace Endpoint

/-- Scans in this state go to their end exactly if all deadlines are clock readings. -/
structure ScansInRange (e : Endpoint) : Prop where
  ends : ∀ actions e' value, Call.checkQueues.Runs e actions e' value →
    (value = some () ↔ ∀ entry ∈ e.inFlight.toList, entry.timer.InRange)
  /-- A scan that breaks off sends nothing, tells nobody and leaves the state as it
  is. -/
  breaksOff : ∀ actions e', Call.checkQueues.Runs e actions e' none →
    e' = e ∧ sendings actions = [] ∧ announced actions = []
  /-- There is a scan at every reading of the clock. -/
  scans : ∀ now, ∃ actions e' value, Call.checkQueues.Runs e actions e' value ∧
    .readTime now ∈ actions

theorem scansInRange (e : Endpoint) : e.ScansInRange where
  ends := by
    intro actions e' value hruns
    rcases Call.runs_checkQueues_iff.mp hruns with ⟨now, hdue, -, -, rfl⟩ |
      ⟨now, due, parts, finished, hdue, -, -, rfl⟩
    · simp only [reduceCtorEq, false_iff]
      intro hall
      rw [InFlight.expiredIds?_of_inRange hall] at hdue
      cases hdue
    · simp only [true_iff]
      exact (InFlight.expiredIds?_eq_some_inRange_iff.mp hdue).1
  breaksOff := by
    intro actions e' hruns
    rcases Call.runs_checkQueues_iff.mp hruns with ⟨now, -, rfl, rfl, -⟩ |
      ⟨_, _, _, _, -, -, -, hvalue⟩
    · exact ⟨rfl, rfl, rfl⟩
    · cases hvalue
  scans := by
    intro now
    cases hdue : e.inFlight.expiredIds? now with
    | none =>
        have hruns := Call.runs_checkQueues_iff.mpr (.inl ⟨now, hdue, rfl, rfl, rfl⟩)
        exact ⟨_, _, _, hruns, by simp [Call.opening]⟩
    | some due =>
        obtain ⟨parts, e', finished, hvisits, -⟩ := Call.Visits.exists_of now due (.ok ()) e
        have hruns := Call.runs_checkQueues_iff.mpr
          (.inr ⟨now, due, parts, finished, hdue, hvisits, rfl, rfl⟩)
        exact ⟨_, _, _, hruns, by simp [Call.opening]⟩

end Endpoint

/-- Whatever a queue has gone through: its questions have answers as long as they come
across no deadline that is out of range, the answers are right, and a scan goes to its
end exactly if no deadline is out of range. -/
theorem questions_answered_iff (changes : List Change) (now : Instant) (e : Endpoint) :
    (replay InFlight.change .empty changes).1.AnsweredInRange now ∧
      { e with inFlight := (replay InFlight.change .empty changes).1 }.ScansInRange :=
  ⟨(InFlight.sound_empty.replay changes).1.answeredInRange now, Endpoint.scansInRange _⟩

/-! ## A wait that is too long -/

/-- The first wait is as long as the clock can tell. -/
def overlongWait : Transmission := ⟨.ofSeconds 9223372036854775808, 1.0, 4⟩

/-- A message is added with that wait, then another one with a wait of two seconds. -/
def overlongChanges : List Change :=
  let destination := SocketAddress.ofIp (.v4 ⟨127, 0, 0, 1⟩) 5683
  [.add 5 destination [64, 1, 0, 5] none ⟨0⟩ overlongWait.ackTimeout,
    .add 6 destination [64, 1, 0, 6] none ⟨0⟩ (.ofSeconds 2)]

/-- The wait is accepted and is what messages are first sent with. After three seconds
the second message is due, but there is no answer to any question, and no scan goes to
its end or does anything. -/
theorem overlong_wait_unanswered :
    overlongWait.validate = .ok () ∧
    overlongWait.initialTimeout? 0.0 = some overlongWait.ackTimeout ∧
    ((replay InFlight.change .empty overlongChanges).1.due ⟨3000000000⟩).map (·.id) = [6] ∧
    (replay InFlight.change .empty overlongChanges).1.expiredIds? ⟨3000000000⟩ = none ∧
    (replay InFlight.change .empty overlongChanges).1.nextTimeout? ⟨3000000000⟩ = none ∧
    (replay InFlight.change .empty overlongChanges).1.hasExpired? ⟨3000000000⟩ = none ∧
    (replay InFlight.change .empty overlongChanges).1.takeExpired? ⟨3000000000⟩ = none ∧
    ∀ e : Endpoint, ∀ actions e' value,
      Call.checkQueues.Runs
        { e with inFlight := (replay InFlight.change .empty overlongChanges).1 }
        actions e' value →
      value = none ∧
        e' = { e with inFlight := (replay InFlight.change .empty overlongChanges).1 } ∧
        sendings actions = [] := by
  refine ⟨rfl, by decide +kernel, by decide, by decide, by decide, by decide, by decide, ?_⟩
  intro e actions e' value hruns
  have hscans := Endpoint.scansInRange
    { e with inFlight := (replay InFlight.change .empty overlongChanges).1 }
  have hnot : ¬∀ entry ∈ (replay InFlight.change .empty overlongChanges).1.toList,
      entry.timer.InRange := by decide
  cases value with
  | none =>
      obtain ⟨hstate, hsent, -⟩ := hscans.breaksOff _ _ hruns
      exact ⟨rfl, hstate, hsent⟩
  | some => exact absurd ((hscans.ends _ _ _ hruns).mp rfl) hnot

end Coap
