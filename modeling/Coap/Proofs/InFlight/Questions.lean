import Coap.Proofs.InFlight.Deadlines

/-!
# The answers about time agree

Four questions are asked of the messages in flight: how long until a timer runs out,
whether one has, which ones have, and, until there is none left, which message is the
first with a timer that has. Each looks at the timers in its own way. As long as all
deadlines are clock readings, all that any of them sees of a timer is whether its
deadline has come, so they cannot contradict each other.

The last question takes the message out that it finds, so it is asked of a smaller
queue every time. The first message that is due is the head of the list of all that
are, and what is taken out of the queue is taken out of that list; so the messages
come in the order of the list, and it is used up when nothing is due any more.

## Main results

* `exists_nextTimeout?` — the time until a timer runs out, told by what is due when.
* `Sound.takeExpired?_of_due_cons` — the first message that is due is taken out, and
  no other.
* `Sound.exists_drains` — what is taken out until nothing is due, and what is left.
* `answers_agree` — the answers of every queue, next to each other.
-/

namespace Coap

theorem PlainList.without_of_ne {l : List Entry} {id : UInt16} (h : ∀ entry ∈ l, entry.id ≠ id) :
    without l id = l := by
  apply List.filter_eq_self.mpr
  intro entry hentry
  exact bne_iff_ne.mpr (h entry hentry)

namespace InFlight

variable {q : InFlight} {now : Instant}

/-! ## The shortest of some times -/

theorem nanos_shorter_le_iff (a b : Duration) (n : Nat) :
    (shorter a b).nanos ≤ n ↔ a.nanos ≤ n ∨ b.nanos ≤ n := by
  unfold shorter
  split <;> omega

theorem nanos_foldl_shorter_le_iff (rest : List Duration) (first : Duration)
    (n : Nat) :
    (rest.foldl shorter first).nanos ≤ n ↔
      first.nanos ≤ n ∨ ∃ d ∈ rest, d.nanos ≤ n := by
  induction rest generalizing first with
  | nil => simp
  | cons d rest ih =>
      rw [List.foldl_cons, ih, nanos_shorter_le_iff, List.exists_mem_cons_iff, or_assoc]

/-- The shortest time is over as soon as one of them is. -/
theorem nanos_shortest_le_iff {times : List Duration} {d : Duration}
    (h : shortest times = some d) (n : Nat) :
    d.nanos ≤ n ↔ ∃ t ∈ times, t.nanos ≤ n := by
  cases times with
  | nil => cases h
  | cons first rest =>
      cases h
      rw [nanos_foldl_shorter_le_iff, List.exists_mem_cons_iff]

theorem shortest_eq_none_iff {times : List Duration} :
    shortest times = none ↔ times = [] := by
  cases times <;> simp [shortest]

/-! ## What is due -/

/-- The messages whose timers have run out, in order. -/
def due (q : InFlight) (now : Instant) : List Entry :=
  q.toList.filter (·.timer.HasRunOut now)

/-- The messages whose timers still run, in order. -/
def running (q : InFlight) (now : Instant) : List Entry :=
  q.toList.filter fun entry => ¬entry.timer.HasRunOut now

theorem mem_due {entry : Entry} :
    entry ∈ q.due now ↔ entry ∈ q.toList ∧ entry.timer.HasRunOut now := by
  rw [due, List.mem_filter, decide_eq_true_eq]

section Answers

variable (h : ∀ entry ∈ q.toList, entry.timer.InRange)

include h

theorem firstExpired?_eq_head? : firstExpired? now q.toList = some (q.due now).head? := by
  rw [firstExpired?_of_inRange h, due, List.head?_filter]

theorem hasExpired?_of_inRange :
    q.hasExpired? now = some (!(q.due now).isEmpty) := by
  rw [hasExpired?, firstExpired?_eq_head? h, Option.map_some]
  cases q.due now <;> rfl

theorem expiredIds?_of_inRange :
    q.expiredIds? now = some ((q.due now).map (·.id)) := by
  rw [expiredIds?, expiredEntries?_of_inRange h, Option.map_some, due]

/-- There is a time until a timer runs out unless there is no timer, and after that
time, but not before, one has run out. -/
theorem exists_nextTimeout? (now : Instant) :
    ∃ next, q.nextTimeout? now = some next ∧
      (next = none ↔ q.isEmpty = true) ∧
      ∀ wait, next = some wait → ∀ n,
        wait.nanos ≤ n ↔ ∃ entry ∈ q.toList, entry.timer.HasRunOut ⟨now.nanos + n⟩ := by
  obtain ⟨times, htimes, hnanos⟩ := remainingTimes?_of_inRange h now
  refine ⟨shortest times, by rw [nextTimeout?, htimes, Option.map_some], ?_, ?_⟩
  · have hlength := congrArg List.length hnanos
    rw [List.length_map, List.length_map] at hlength
    rw [shortest_eq_none_iff, isEmpty, List.isEmpty_iff, ← List.length_eq_zero_iff, hlength,
      toList, List.length_map, List.length_eq_zero_iff]
  · intro wait hwait n
    calc wait.nanos ≤ n
      _ ↔ ∃ left ∈ times.map (·.nanos), left ≤ n := by
          simp only [nanos_shortest_le_iff hwait, List.mem_map, exists_exists_and_eq_and]
      _ ↔ ∃ entry ∈ q.toList,
            entry.timer.started.nanos + entry.timer.timeout.nanos - now.nanos ≤ n := by
          simp only [hnanos, List.mem_map, exists_exists_and_eq_and]
      _ ↔ ∃ entry ∈ q.toList, entry.timer.HasRunOut ⟨now.nanos + n⟩ := by
          simp only [Timer.HasRunOut, Nat.sub_le_iff_le_add']

theorem takeExpired?_of_due_nil (hdue : q.due now = []) :
    q.takeExpired? now = some (none, q) := by
  rw [takeExpired?, firstExpired?_eq_head? h, hdue, List.head?_nil, Option.map_some]

end Answers

/-! ## Taking out what is due -/

/-- The first message that is due is taken out until there is none. -/
inductive Drains (now : Instant) : InFlight → List Entry → InFlight → Prop where
  | stop {q q' : InFlight} (hnone : q.takeExpired? now = some (none, q')) :
      Drains now q [] q'
  | take {q q' left : InFlight} {entry : Entry} {taken : List Entry}
      (hsome : q.takeExpired? now = some (some entry, q'))
      (hrest : Drains now q' taken left) : Drains now q (entry :: taken) left

theorem drains_of_none_iff {q' left : InFlight} {taken : List Entry}
    (h : q.takeExpired? now = some (none, q')) :
    Drains now q taken left ↔ taken = [] ∧ left = q' := by
  constructor
  · intro hdrains
    cases hdrains with
    | stop hnone =>
        rw [h] at hnone
        cases hnone
        exact ⟨rfl, rfl⟩
    | take hsome =>
        rw [h] at hsome
        cases hsome
  · rintro ⟨rfl, rfl⟩
    exact .stop h

theorem drains_of_some_iff {q' left : InFlight} {entry : Entry} {taken : List Entry}
    (h : q.takeExpired? now = some (some entry, q')) :
    Drains now q taken left ↔ ∃ rest, taken = entry :: rest ∧ Drains now q' rest left := by
  constructor
  · intro hdrains
    cases hdrains with
    | stop hnone =>
        rw [h] at hnone
        cases hnone
    | take hsome hrest =>
        rw [h] at hsome
        cases hsome
        exact ⟨_, rfl, hrest⟩
  · rintro ⟨rest, rfl, hrest⟩
    exact .take h hrest

namespace Sound

variable (hq : q.Sound)

include hq

theorem nodup_ids_due : ((q.due now).map (·.id)).Nodup :=
  hq.nodup_ids.sublist (List.filter_sublist.map _)

theorem due_remove (id : UInt16) :
    (q.remove id).2.due now = PlainList.without (q.due now) id := by
  rw [due, hq.toList_remove, PlainList.without, List.filter_comm]
  rfl

theorem running_remove (id : UInt16) :
    (q.remove id).2.running now = PlainList.without (q.running now) id := by
  rw [running, hq.toList_remove, PlainList.without, List.filter_comm]
  rfl

/-- An entry is told from the others by its id. -/
theorem eq_of_id_eq {entry other : Entry} (hentry : entry ∈ q.toList)
    (hother : other ∈ q.toList) (hid : entry.id = other.id) : entry = other :=
  List.inj_on_of_nodup_map hq.nodup_ids hentry hother hid

/-- What is taken out by the id of an entry is that entry. -/
theorem fst_remove_of_mem {entry : Entry} (hentry : entry ∈ q.toList) :
    (q.remove entry.id).1 = some entry := by
  obtain ⟨p, hp, rfl⟩ := List.mem_map.mp hentry
  rw [fst_remove, hq.get?_of_mem hp]

/-- The messages that are due are those that are named by their ids. -/
theorem mem_ids_due_iff {entry : Entry} (hentry : entry ∈ q.toList) :
    entry.id ∈ (q.due now).map (·.id) ↔ entry.timer.HasRunOut now := by
  constructor
  · intro hmem
    obtain ⟨other, hother, hid⟩ := List.mem_map.mp hmem
    obtain ⟨hin, hout⟩ := mem_due.mp hother
    rwa [hq.eq_of_id_eq hentry hin hid.symm]
  · exact fun hout => List.mem_map_of_mem (mem_due.mpr ⟨hentry, hout⟩)

/-- Taking the first message out that is due leaves the others that are due, and does
not touch those whose timers still run. -/
theorem takeExpired?_of_due_cons (h : ∀ entry ∈ q.toList, entry.timer.InRange)
    {entry : Entry} {rest : List Entry} (hdue : q.due now = entry :: rest) :
    ∃ q', q.takeExpired? now = some (some entry, q') ∧ q'.Sound ∧
      (∀ other ∈ q'.toList, other ∈ q.toList) ∧
      q'.due now = rest ∧ q'.running now = q.running now := by
  have hmem : entry ∈ q.due now := hdue ▸ List.mem_cons_self
  obtain ⟨hin, hout⟩ := mem_due.mp hmem
  have hnodup : ((q.due now).map (·.id)).Nodup := hq.nodup_ids_due
  rw [hdue, List.map_cons, List.nodup_cons] at hnodup
  refine ⟨(q.remove entry.id).2, ?_, hq.remove entry.id, ?_, ?_, ?_⟩
  · rw [takeExpired?, firstExpired?_eq_head? h, hdue, List.head?_cons, Option.map_some]
    exact congrArg some (Prod.ext (hq.fst_remove_of_mem hin) rfl)
  · intro other hother
    rw [hq.toList_remove] at hother
    exact List.mem_of_mem_filter hother
  · have hrest (other : Entry) (hother : other ∈ rest) : other.id ≠ entry.id :=
      fun hid => hnodup.1 (List.mem_map.mpr ⟨other, hother, hid⟩)
    have hfirst : (entry.id != entry.id) = false := bne_self_eq_false _
    rw [hq.due_remove, hdue, PlainList.without, List.filter_cons, hfirst,
      if_neg Bool.false_ne_true]
    exact PlainList.without_of_ne hrest
  · rw [hq.running_remove]
    apply PlainList.without_of_ne
    intro other hother hid
    obtain ⟨hother, hruns⟩ := List.mem_filter.mp hother
    rw [hq.eq_of_id_eq hother hin hid, decide_eq_true_eq] at hruns
    exact hruns hout

/-- Taking out what is due comes to an end, in one way: the messages that are due have
been taken out in order, and the others are left. -/
theorem exists_drains (h : ∀ entry ∈ q.toList, entry.timer.InRange) (now : Instant) :
    ∃ left, (∀ taken left', Drains now q taken left' ↔
        taken = q.due now ∧ left' = left) ∧
      left.Sound ∧ left.toList = q.running now := by
  obtain ⟨l, hdue⟩ : ∃ l, q.due now = l := ⟨_, rfl⟩
  induction l generalizing q with
  | nil =>
      refine ⟨q, ?_, hq, ?_⟩
      · intro taken left'
        rw [drains_of_none_iff (takeExpired?_of_due_nil h hdue), hdue]
      · have hruns := List.filter_eq_nil_iff.mp hdue
        refine (List.filter_eq_self.mpr ?_).symm
        intro entry hentry
        simpa using hruns entry hentry
  | cons entry rest ih =>
      obtain ⟨q', htake, hsound, hsub, hrest, hrunning⟩ :=
        hq.takeExpired?_of_due_cons h hdue
      obtain ⟨left, hdrains, hleft, hlist⟩ :=
        ih hsound (fun other hother => h other (hsub other hother)) hrest
      refine ⟨left, ?_, hleft, hlist.trans hrunning⟩
      intro taken left'
      rw [drains_of_some_iff htake, hdue]
      simp only [hdrains, hrest]
      constructor
      · rintro ⟨_, rfl, rfl, rfl⟩
        exact ⟨rfl, rfl⟩
      · rintro ⟨rfl, rfl⟩
        exact ⟨rest, rfl, rfl, rfl⟩

end Sound

/-! ## The answers next to each other -/

/-- At this time the queue has `next` for the time until a timer runs out and `ids` for
the messages that are due, `left` is what is left when these have been taken out, and
the answers agree with each other. -/
structure AnswersAgree (q : InFlight) (now : Instant) (next : Option Duration)
    (ids : List UInt16) (left : InFlight) : Prop where
  nextTimeout : q.nextTimeout? now = some next
  /-- There is nothing to wait for exactly if there is no message. -/
  next_eq_none : next = none ↔ q.isEmpty = true
  /-- Nothing is due before the time is over, and something is from then on. -/
  wakes : ∀ wait, next = some wait → ∀ later instant, now.add? later = some instant →
    q.hasExpired? instant = some (decide (wait.nanos ≤ later.nanos))
  expiredIds : q.expiredIds? now = some ids
  /-- Something is due exactly if something is named. -/
  hasExpired : q.hasExpired? now = some !ids.isEmpty
  /-- Each message that is due is named once, in the order of the messages. -/
  names : ids.Nodup ∧ (q.toList.filter (·.id ∈ ids)).map (·.id) = ids
  /-- Taking out what is due comes to an end, in one way: the messages that are named
  have been taken out in that order. -/
  drains : ∀ taken left', Drains now q taken left' ↔
    taken = q.toList.filter (·.id ∈ ids) ∧ left' = left
  /-- The other messages are left, unchanged and in order. -/
  leaves : Represents left (q.toList.filter (·.id ∉ ids))
  /-- Then nothing is due. -/
  quiet : left.hasExpired? now = some false

theorem Sound.exists_answersAgree (hq : q.Sound)
    (h : ∀ entry ∈ q.toList, entry.timer.InRange) (now : Instant) :
    ∃ next ids left, AnswersAgree q now next ids left := by
  obtain ⟨next, hnext, hnone, hwakes⟩ := exists_nextTimeout? h now
  obtain ⟨left, hdrains, hleft, hlist⟩ := hq.exists_drains h now
  have hnamed : (q.toList.filter fun entry => entry.id ∈ (q.due now).map (·.id)) =
      q.due now := by
    refine List.filter_congr ?_
    intro entry hentry
    rw [decide_eq_decide, hq.mem_ids_due_iff hentry]
  have hothers : (q.toList.filter fun entry => entry.id ∉ (q.due now).map (·.id)) =
      q.running now := by
    refine List.filter_congr ?_
    intro entry hentry
    rw [decide_eq_decide, hq.mem_ids_due_iff hentry]
  refine ⟨next, (q.due now).map (·.id), left, ?_⟩
  constructor
  case nextTimeout => exact hnext
  case next_eq_none => exact hnone
  case wakes =>
    intro wait hwait later instant hadd
    obtain ⟨hinstant, -⟩ := Instant.nanos_add? hadd
    rw [hasExpired?_of_inRange h, Option.some.injEq, Bool.eq_iff_iff, decide_eq_true_eq,
      hwakes wait hwait, ← hinstant, Bool.not_eq_true', List.isEmpty_eq_false_iff_exists_mem]
    simp only [mem_due]
  case expiredIds => exact expiredIds?_of_inRange h
  case hasExpired => rw [hasExpired?_of_inRange h, List.isEmpty_map]
  case names => exact ⟨hq.nodup_ids_due, by rw [hnamed]⟩
  case drains =>
    intro taken left'
    rw [hnamed, hdrains]
  case leaves =>
    rw [hothers, ← hlist]
    exact hleft.represents
  case quiet =>
    have hin : ∀ entry ∈ left.toList, entry.timer.InRange := by
      intro entry hentry
      rw [hlist] at hentry
      exact h entry (List.mem_of_mem_filter hentry)
    have hdue : left.due now = [] := by
      rw [due, hlist, running, List.filter_eq_nil_iff]
      intro entry hentry hout
      exact of_decide_eq_true (List.mem_filter.mp hentry).2 (of_decide_eq_true hout)
    rw [hasExpired?_of_inRange hin, hdue]
    rfl

/-- Whatever a queue has gone through: if all deadlines are clock readings, its answers
about time agree with each other. -/
theorem answers_agree (changes : List Change) (now : Instant)
    (h : ∀ entry ∈ (replay InFlight.change .empty changes).1.toList,
      entry.timer.InRange) :
    ∃ next ids left,
      AnswersAgree (replay InFlight.change .empty changes).1 now next ids left :=
  (sound_empty.replay changes).1.exists_answersAgree h now

/-- The timer of one of two messages runs out at this very moment. -/
theorem answers_agree_sampleChanges :
    (∀ entry ∈ (replay InFlight.change .empty sampleChanges).1.toList,
      entry.timer.InRange) ∧
    ∃ next ids left,
      AnswersAgree (replay InFlight.change .empty sampleChanges).1 ⟨2000000001⟩ next ids
        left ∧
      next = some .zero ∧ ids = [6] ∧ left.toList.map (·.id) = [5] := by
  have hrange : ∀ entry ∈ (replay InFlight.change .empty sampleChanges).1.toList,
      entry.timer.InRange := by decide
  obtain ⟨next, ids, left, hagree⟩ := answers_agree sampleChanges ⟨2000000001⟩ hrange
  have hnext : some next = some (some Duration.zero) := by
    rw [← hagree.nextTimeout]
    decide
  have hids : some ids = some [6] := by
    rw [← hagree.expiredIds]
    decide
  cases hnext
  cases hids
  refine ⟨hrange, _, _, left, hagree, rfl, rfl, ?_⟩
  rw [hagree.leaves.iter]
  decide

end InFlight

end Coap
