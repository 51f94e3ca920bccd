import Coap.Proofs.InFlight.PlainList

/-!
# Deadlines and the questions about time

A deadline is a starting point and a timeout added up, and the sum may be no clock
reading. A question about time looks at the timers from the front of the queue on.
As long as the deadlines that it comes across are clock readings, each timer is
compared with the reading that is asked about and nothing else; at the first
deadline that is none, the question has no answer. So two things are to be known of
a question: how far it looks, and what it makes of the timers on the way.

## Main results

* `expiredEntries?_eq_none_iff`, `remainingTimes?_eq_none_iff` — two of the
  questions look at every timer.
* `firstExpired?_eq_none_iff`, `firstExpired?_eq_some` — another one looks no further
  than to the first timer that has run out, and tells that one.
* `expiredEntries?_of_inRange`, `firstExpired?_of_inRange`,
  `remainingTimes?_of_inRange` — the answers, if all deadlines are clock readings.
-/

namespace Coap

/-! ## Timers -/

/-- A timer has run out: since it was started its timeout has passed. -/
def Timer.HasRunOut (t : Timer) (now : Instant) : Prop :=
  t.started.nanos + t.timeout.nanos ≤ now.nanos

instance (t : Timer) (now : Instant) : Decidable (t.HasRunOut now) := by
  unfold Timer.HasRunOut
  infer_instance

namespace Timer

/-- The deadline of a timer is a clock reading. -/
def InRange (t : Timer) : Prop :=
  t.started.nanos + t.timeout.nanos < Instant.limit

instance (t : Timer) : Decidable t.InRange :=
  inferInstanceAs (Decidable (t.started.nanos + t.timeout.nanos < Instant.limit))

variable {t : Timer} {now : Instant}

theorem deadline?_of_inRange (h : t.InRange) :
    t.deadline? = some ⟨t.started.nanos + t.timeout.nanos⟩ :=
  if_pos h

theorem deadline?_eq_none_iff : t.deadline? = none ↔ ¬t.InRange := by
  constructor
  · intro hnone h
    rw [deadline?_of_inRange h] at hnone
    cases hnone
  · exact fun h => if_neg h

theorem inRange_iff : t.InRange ↔ t.deadline? ≠ none := by
  rw [Ne, deadline?_eq_none_iff, not_not]

theorem isExpired?_of_inRange (h : t.InRange) :
    t.isExpired? now = some (decide (t.HasRunOut now)) :=
  expired_iff (deadline?_of_inRange h)

theorem isExpired?_of_not_inRange (h : ¬t.InRange) : t.isExpired? now = none :=
  isExpired?_eq_none.mpr (deadline?_eq_none_iff.mpr h)

/-- The time that is left of a timer, to the nanosecond. -/
theorem remaining?_of_inRange (h : t.InRange) (now : Instant) :
    ∃ left, t.remaining? now = some left ∧
      left.nanos = t.started.nanos + t.timeout.nanos - now.nanos := by
  refine ⟨_, by rw [remaining?, deadline?_of_inRange h, Option.map_some], ?_⟩
  apply Duration.nanos_ofNanos
  unfold InRange Instant.limit at h
  unfold Duration.limit
  dsimp only
  omega

theorem remaining?_of_not_inRange (h : ¬t.InRange) : t.remaining? now = none := by
  rw [remaining?, deadline?_eq_none_iff.mpr h, Option.map_none]

end Timer

/-! ## Questions -/

namespace InFlight

variable {now : Instant} {l : List Entry}

/-- Which entries are due can be told if all deadlines are clock readings, and only
then. -/
theorem expiredEntries?_eq_none_iff :
    expiredEntries? now l = none ↔ ∃ entry ∈ l, ¬entry.timer.InRange := by
  constructor
  · intro h
    by_contra hall
    refine expiredEntries?_ne_none (fun entry hentry => ?_) h
    exact Timer.inRange_iff.mp (not_not.mp fun hnot => hall ⟨entry, hentry, hnot⟩)
  · rintro ⟨entry, hentry, hnot⟩
    cases hdue : expiredEntries? now l with
    | none => rfl
    | some due =>
        have htold := (expiredEntries?_eq_some hdue).2 entry hentry
        exact absurd (Timer.inRange_iff.mpr htold) hnot

theorem expiredEntries?_of_inRange (h : ∀ entry ∈ l, entry.timer.InRange) :
    expiredEntries? now l = some (l.filter (·.timer.HasRunOut now)) := by
  cases hdue : expiredEntries? now l with
  | none =>
      obtain ⟨entry, hentry, hnot⟩ := expiredEntries?_eq_none_iff.mp hdue
      exact absurd (h entry hentry) hnot
  | some due =>
      rw [(expiredEntries?_eq_some hdue).1]
      refine congrArg some (List.filter_congr ?_)
      intro entry hentry
      rw [Timer.isExpired?_of_inRange (h entry hentry)]
      cases decide (entry.timer.HasRunOut now) <;> rfl

/-- How long the timers still run can be told if all deadlines are clock readings,
and only then. -/
theorem remainingTimes?_eq_none_iff :
    remainingTimes? now l = none ↔ ∃ entry ∈ l, ¬entry.timer.InRange := by
  induction l with
  | nil => simp [remainingTimes?]
  | cons first rest ih =>
      rw [remainingTimes?, List.exists_mem_cons_iff]
      by_cases hfirst : first.timer.InRange
      · obtain ⟨left, hleft, -⟩ := Timer.remaining?_of_inRange hfirst now
        simp only [hleft, Option.map_eq_none_iff, ih, hfirst, not_true_eq_false,
          false_or]
      · simp only [Timer.remaining?_of_not_inRange hfirst, hfirst,
          not_false_eq_true, true_or]

theorem remainingTimes?_of_inRange (h : ∀ entry ∈ l, entry.timer.InRange)
    (now : Instant) :
    ∃ times, remainingTimes? now l = some times ∧
      times.map (·.nanos) = l.map fun entry =>
        entry.timer.started.nanos + entry.timer.timeout.nanos - now.nanos := by
  induction l with
  | nil => exact ⟨[], rfl, rfl⟩
  | cons first rest ih =>
      obtain ⟨hfirst, hrest⟩ := List.forall_mem_cons.mp h
      obtain ⟨left, hleft, hnanos⟩ := Timer.remaining?_of_inRange hfirst now
      obtain ⟨times, htimes, hmap⟩ := ih hrest
      refine ⟨left :: times, ?_, ?_⟩
      · simp only [remainingTimes?, hleft, htimes, Option.map_some]
      · rw [List.map_cons, List.map_cons, hnanos, hmap]

/-- The first entry that is due cannot be told if a deadline that is no clock reading
comes before all timers that have run out, and only then. -/
theorem firstExpired?_eq_none_iff :
    firstExpired? now l = none ↔
      ∃ before entry after, l = before ++ entry :: after ∧
        (∀ other ∈ before, ¬other.timer.HasRunOut now) ∧ ¬entry.timer.InRange := by
  induction l with
  | nil => simp [firstExpired?]
  | cons first rest ih =>
      rw [firstExpired?]
      by_cases hfirst : first.timer.InRange
      · rw [Timer.isExpired?_of_inRange hfirst]
        by_cases hout : first.timer.HasRunOut now
        · simp only [hout, decide_true, reduceCtorEq, false_iff]
          rintro ⟨_ | ⟨other, before⟩, entry, after, hsplit, hbefore, hentry⟩
          · cases hsplit
            exact hentry hfirst
          · cases hsplit
            exact hbefore first List.mem_cons_self hout
        · simp only [hout, decide_false, ih]
          constructor
          · rintro ⟨before, entry, after, rfl, hbefore, hentry⟩
            exact ⟨first :: before, entry, after, rfl,
              List.forall_mem_cons.mpr ⟨hout, hbefore⟩, hentry⟩
          · rintro ⟨_ | ⟨other, before⟩, entry, after, hsplit, hbefore, hentry⟩
            · cases hsplit
              exact absurd hfirst hentry
            · cases hsplit
              exact ⟨before, entry, after, rfl,
                (List.forall_mem_cons.mp hbefore).2, hentry⟩
      · simp only [Timer.isExpired?_of_not_inRange hfirst, true_iff]
        exact ⟨[], first, rest, rfl, by simp, hfirst⟩

/-- If it can be told, it is the first one with a timer that has run out. -/
theorem firstExpired?_eq_some {found : Option Entry}
    (h : firstExpired? now l = some found) :
    found = l.find? (·.timer.HasRunOut now) := by
  induction l with
  | nil =>
      cases h
      rfl
  | cons first rest ih =>
      rw [firstExpired?] at h
      rw [List.find?_cons]
      by_cases hfirst : first.timer.InRange
      · rw [Timer.isExpired?_of_inRange hfirst] at h
        cases hout : decide (first.timer.HasRunOut now) with
        | true =>
            rw [hout] at h
            cases h
            rfl
        | false =>
            rw [hout] at h
            exact ih h
      · rw [Timer.isExpired?_of_not_inRange hfirst] at h
        cases h

theorem firstExpired?_of_inRange (h : ∀ entry ∈ l, entry.timer.InRange) :
    firstExpired? now l = some (l.find? (·.timer.HasRunOut now)) := by
  cases hfound : firstExpired? now l with
  | none =>
      obtain ⟨before, entry, after, rfl, -, hentry⟩ := firstExpired?_eq_none_iff.mp hfound
      exact absurd (h entry (by simp)) hentry
  | some found => rw [firstExpired?_eq_some hfound]

end InFlight

end Coap
