import Coap.Time.Duration

/-!
# The timer of a message in flight

A timer was started at some clock reading with some timeout. It may be
asked how long it still runs, and it may be restarted with twice the
timeout. A timer whose deadline is no clock reading cannot be asked for
anything but its timeout.

## Main results

* `expired_iff` — a timer with a deadline has expired from that deadline on.
* `timeout_backoff` — restarting doubles the timeout.
-/

namespace Coap

/-- A timer that runs out once. -/
structure Timer where
  started : Instant
  timeout : Duration
  deriving DecidableEq

namespace Timer

/-- The reading at which a timer runs out. -/
def deadline? (t : Timer) : Option Instant := Instant.add? t.started t.timeout

/-- The time until a timer runs out, none at all if it has. -/
def remaining? (t : Timer) (now : Instant) : Option Duration :=
  t.deadline?.map fun deadline => Instant.since deadline now

/-- Whether a timer has run out. -/
def isExpired? (t : Timer) (now : Instant) : Option Bool :=
  (t.remaining? now).map fun left => left.nanos == 0

/-- The timer, restarted with twice the timeout. -/
def backoff (t : Timer) (now : Instant) : Timer := ⟨now, t.timeout.double⟩

/-- A timer with a deadline has expired from that deadline on. -/
theorem expired_iff {t : Timer} {deadline now : Instant}
    (h : t.deadline? = some deadline) :
    t.isExpired? now = some (decide (deadline.nanos ≤ now.nanos)) := by
  have hlt := (Instant.nanos_add? h).2
  have hle : deadline.nanos - now.nanos < Duration.limit := by
    unfold Instant.limit at hlt
    unfold Duration.limit
    omega
  simp only [isExpired?, remaining?, h, Option.map_some, Instant.since,
    Duration.nanos_ofNanos hle, Option.some.injEq]
  by_cases hd : deadline.nanos ≤ now.nanos
  · simp [hd]
  · have hne : deadline.nanos - now.nanos ≠ 0 := by omega
    rw [beq_eq_false_iff_ne.mpr hne, decide_eq_false hd]

theorem timeout_backoff {t : Timer} {now : Instant}
    (h : 2 * t.timeout.nanos < Duration.limit) :
    (t.backoff now).timeout.nanos = 2 * t.timeout.nanos :=
  Duration.nanos_double h

end Timer

end Coap
