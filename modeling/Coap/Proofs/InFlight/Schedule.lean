import Mathlib.Algebra.Order.Ring.Nat
import Coap.InFlight.Entry
import Coap.Transmission

/-!
# How long it takes to give up

A message is given up on when the timeout has passed after it was sent again as often
as allowed, and each of the timeouts is twice the one before. Doubling stops at the
longest duration, but a sum that a doubling has cut off is itself longer than any
duration. So it does not matter whether the timeouts are cut off one by one or only
their sum: the wait for giving up is the first timeout times a power of two less one,
as far as there are durations.

The wait that is reckoned in advance takes that power as a word of 32 bits that stops
at the largest one. It stops one step early: the largest word is not a power of two, it
is already a power less one.

## Main results

* `Duration.nanos_double_eq_min` — doubling, with its limit.
* `Timer.total_timeouts` — the timeouts of a timer that is restarted, added up.
* `Entry.waits_new` — a message goes through these timeouts until it is given up on.
* `Transmission.maxTransmitWait?_eq_total_iff` — when the wait that is reckoned in
  advance is the right one, and what it is otherwise.
-/

namespace Coap

/-! ## Durations that stop at the longest one -/

namespace Duration

theorem nanos_ofNanos_eq_min (n : Nat) : (ofNanos n).nanos = min n (limit - 1) := by
  by_cases hn : n < limit
  · rw [nanos_ofNanos hn]
    omega
  · have hmax : ofNanos n = max := by rw [ofNanos, ofNanos?, dif_neg hn, Option.getD_none]
    have hnanos : max.nanos = limit - 1 := rfl
    rw [hmax, hnanos]
    omega

theorem nanos_double_eq_min (d : Duration) :
    d.double.nanos = min (2 * d.nanos) (limit - 1) := by
  rw [Nat.mul_comm]
  exact nanos_ofNanos_eq_min (d.nanos * 2)

theorem eq_iff_nanos_eq {d d' : Duration} : d = d' ↔ d.nanos = d'.nanos := by
  constructor
  · rintro rfl
    rfl
  · cases d
    cases d'
    rintro rfl
    rfl

theorem ofNanos_eq_iff {m n : Nat} :
    ofNanos m = ofNanos n ↔ min m (limit - 1) = min n (limit - 1) := by
  rw [eq_iff_nanos_eq, nanos_ofNanos_eq_min, nanos_ofNanos_eq_min]

/-- A doubled timeout is at least twice as long, as far as there are clock
readings. -/
theorem le_nanos_double {d : Duration} {n : Nat}
    (h : min n Instant.limit ≤ d.nanos) :
    min (2 * n) Instant.limit ≤ d.double.nanos := by
  have hle : Instant.limit ≤ limit - 1 := by decide
  rw [nanos_double_eq_min]
  omega

/-- The sum of some durations, or the longest one. -/
def total (l : List Duration) : Duration := ofNanos (l.map (·.nanos)).sum

end Duration

/-! ## Backing off -/

/-- How long it takes to wait out so many timeouts, each twice the one
before. -/
def backoffTime (timeout n : Nat) : Nat := (2 ^ n - 1) * timeout

theorem backoffTime_succ (timeout n : Nat) :
    backoffTime timeout (n + 1) = backoffTime timeout n + 2 ^ n * timeout := by
  have hpos : 1 ≤ 2 ^ n := Nat.one_le_two_pow
  have hsplit : 2 ^ (n + 1) - 1 = (2 ^ n - 1) + 2 ^ n := by
    rw [Nat.pow_succ]
    omega
  rw [backoffTime, hsplit, Nat.add_mul]
  rfl

/-- After the first timeout the wait goes on from twice that timeout. -/
theorem backoffTime_succ_eq_add_double (timeout n : Nat) :
    backoffTime timeout (n + 1) = timeout + backoffTime (2 * timeout) n := by
  induction n with
  | zero => simp [backoffTime]
  | succ n ih =>
      rw [backoffTime_succ, ih, backoffTime_succ (2 * timeout), Nat.pow_succ, Nat.mul_assoc,
        Nat.add_assoc]

theorem le_backoffTime_succ (timeout n : Nat) : timeout ≤ backoffTime timeout (n + 1) := by
  rw [backoffTime_succ_eq_add_double]
  exact Nat.le_add_right _ _

/-- The timeouts of a timer that is restarted at some clock readings. -/
def Timer.timeouts (t : Timer) : List Instant → List Duration
  | [] => [t.timeout]
  | now :: rest => t.timeout :: (t.backoff now).timeouts rest

/-- A timeout that is cut off makes the sum longer than any duration, and so does the
timeout that it is cut off from. -/
theorem Timer.total_timeouts (t : Timer) (restarts : List Instant) :
    Duration.total (t.timeouts restarts) =
      .ofNanos (backoffTime t.timeout.nanos (restarts.length + 1)) := by
  rw [Duration.total, Duration.ofNanos_eq_iff]
  induction restarts generalizing t with
  | nil => simp [timeouts, backoffTime]
  | cons now rest ih =>
      have hrest := ih (t.backoff now)
      have hdouble : (t.backoff now).timeout.nanos =
          min (2 * t.timeout.nanos) (Duration.limit - 1) := t.timeout.nanos_double_eq_min
      rw [timeouts, List.map_cons, List.sum_cons, List.length_cons,
        backoffTime_succ_eq_add_double]
      rcases Nat.le_total (2 * t.timeout.nanos) (Duration.limit - 1) with hkept | hcut
      · rw [hdouble, Nat.min_eq_left hkept] at hrest
        omega
      · rw [hdouble, Nat.min_eq_right hcut] at hrest
        have hsum := le_backoffTime_succ (Duration.limit - 1) rest.length
        have htrue := le_backoffTime_succ (2 * t.timeout.nanos) rest.length
        omega

/-! ## Giving up -/

/-- The timeouts that a message goes through if scans find it due at these clock
readings and can send it: it is sent again each time until it is given up on. -/
def Entry.waits (entry : Entry) (maxRetransmit : UInt16) : List Instant → List Duration
  | [] => [entry.timer.timeout]
  | now :: rest =>
      entry.timer.timeout ::
        if maxRetransmit < entry.transmissions then []
        else (entry.retransmitted now).waits maxRetransmit rest

theorem Entry.waits_eq_timeouts {entry : Entry} {maxRetransmit : UInt16}
    {restarts : List Instant} (hmax : maxRetransmit.toNat < 65535)
    (hcount : entry.transmissions.toNat + restarts.length = maxRetransmit.toNat + 1)
    (now : Instant) (later : List Instant) :
    entry.waits maxRetransmit (restarts ++ now :: later) = entry.timer.timeouts restarts := by
  induction restarts generalizing entry with
  | nil =>
      have hspent : maxRetransmit < entry.transmissions := by
        rw [UInt16.lt_iff_toNat_lt]
        rw [List.length_nil] at hcount
        omega
      rw [List.nil_append, waits, if_pos hspent, Timer.timeouts]
  | cons restart rest ih =>
      rw [List.length_cons] at hcount
      have hleft : ¬maxRetransmit < entry.transmissions := by
        rw [UInt16.lt_iff_toNat_lt]
        omega
      have hcounted : (entry.retransmitted restart).transmissions.toNat =
          entry.transmissions.toNat + 1 := transmissions_retransmitted (by omega)
      rw [List.cons_append, waits, if_neg hleft, Timer.timeouts, ih (by omega)]
      rfl

/-- A message that is put in flight is given up on when one timeout has passed and one
more for each time that it may be sent again, unless it is sent again so often that the
times are not counted. -/
theorem Entry.waits_new {maxRetransmit : UInt16} {restarts : List Instant}
    (hmax : maxRetransmit.toNat < 65535) (hcount : restarts.length = maxRetransmit.toNat)
    (start : Instant) (timeout : Duration) (id : UInt16) (destination : SocketAddress)
    (message : Bytes) (ticket : Option Ticket) (now : Instant) (later : List Instant) :
    (Entry.new id destination message ticket start timeout).waits maxRetransmit
      (restarts ++ now :: later) = (Timer.mk start timeout).timeouts restarts := by
  apply waits_eq_timeouts hmax
  change 1 + restarts.length = _
  omega

/-! ## The wait for giving up -/

namespace Transmission

variable {p : Transmission} {longest : Duration}

theorem maxTransmitWait?_eq (h : p.ackTimeout.scale? p.ackRandomFactor = some longest) :
    p.maxTransmitWait? =
      some (.ofNanos (longest.nanos * waitFactor p.maxRetransmit.toNat)) := by
  rw [maxTransmitWait?, h]
  rfl

/-- From 31 repetitions on the factor stays one less than the largest word. -/
theorem waitFactor_eq_of_le {n : Nat} (h : 31 ≤ n) : waitFactor n = 4294967294 := by
  have hle : Nat.pow 2 32 ≤ Nat.pow 2 (n + 1) :=
    Nat.pow_le_pow_right (by decide) (by omega)
  rw [waitFactor, Nat.min_eq_right (Nat.le_trans (by decide) hle)]

/-- That factor is too small, which shows unless both products are no time at all or
longer than any duration. -/
theorem ofNanos_mul_eq_iff {timeout n : Nat} (h : 31 ≤ n) :
    Duration.ofNanos (timeout * 4294967294) = .ofNanos (backoffTime timeout (n + 1)) ↔
      timeout = 0 ∨ Duration.max.nanos ≤ timeout * 4294967294 := by
  have hlongest : Duration.max.nanos = Duration.limit - 1 := rfl
  have hpow : 2 ^ 32 ≤ 2 ^ (n + 1) := Nat.pow_le_pow_right (by decide) (by omega)
  have hless : timeout * 4294967295 ≤ backoffTime timeout (n + 1) := by
    rw [backoffTime, Nat.mul_comm]
    exact Nat.mul_le_mul_right timeout (by omega)
  rw [Duration.ofNanos_eq_iff, hlongest]
  constructor
  · omega
  · rintro (rfl | hlong)
    · rw [backoffTime, Nat.zero_mul, Nat.mul_zero]
    · omega

/-- The wait for giving up that is reckoned in advance is the sum of the longest
timeouts that a message may go through, or the longest duration if that sum is none, as
long as a message is sent again 30 times at most. With more repetitions it is the same
as with 31 of them and one first timeout less, which is right only if there is nothing
to wait for or the wait is no duration anyway. -/
theorem maxTransmitWait?_eq_total_iff
    (h : p.ackTimeout.scale? p.ackRandomFactor = some longest) (start : Instant)
    {restarts : List Instant} (hcount : restarts.length = p.maxRetransmit.toNat) :
    (p.maxTransmitWait? = some (.total ((Timer.mk start longest).timeouts restarts)) ↔
      p.maxRetransmit.toNat ≤ 30 ∨ longest.nanos = 0 ∨
        Duration.max.nanos ≤ longest.nanos * 4294967294) ∧
    (30 < p.maxRetransmit.toNat →
      p.maxTransmitWait? = some (.ofNanos (longest.nanos * 4294967294))) ∧
    Duration.total ((Timer.mk start longest).timeouts restarts) =
      .ofNanos ((2 ^ (p.maxRetransmit.toNat + 1) - 1) * longest.nanos) ∧
    (p.maxRetransmit.toNat < 65535 → ∀ id destination message ticket now later,
      (Entry.new id destination message ticket start longest).waits p.maxRetransmit
        (restarts ++ now :: later) = (Timer.mk start longest).timeouts restarts) := by
  have htotal : Duration.total ((Timer.mk start longest).timeouts restarts) =
      .ofNanos (backoffTime longest.nanos (p.maxRetransmit.toNat + 1)) := by
    rw [Timer.total_timeouts, hcount]
  refine ⟨?_, ?_, htotal, fun hmax => Entry.waits_new hmax hcount start longest⟩
  · rw [maxTransmitWait?_eq h, htotal, Option.some.injEq]
    by_cases hfew : p.maxRetransmit.toNat ≤ 30
    · have hfactor : waitFactor p.maxRetransmit.toNat =
          2 ^ (p.maxRetransmit.toNat + 1) - 1 := waitFactor_eq (by omega)
      simp only [hfactor, hfew, true_or, iff_true]
      rw [backoffTime, Nat.mul_comm]
    · rw [waitFactor_eq_of_le (by omega), ofNanos_mul_eq_iff (by omega)]
      simp only [hfew, false_or]
  · intro hmany
    rw [maxTransmitWait?_eq h, waitFactor_eq_of_le hmany]

/-- The first timeout is 2 to 3 seconds. -/
def twoToThreeSeconds (maxRetransmit : UInt16) : Transmission :=
  ⟨.ofSeconds 2, 1.5, maxRetransmit⟩

/-- With 4 repetitions a message is given up on after at most 93 seconds. -/
theorem maxTransmitWait?_eq_total_iff_four :
    (twoToThreeSeconds 4).ackTimeout.scale? (twoToThreeSeconds 4).ackRandomFactor =
        some (.ofSeconds 3) ∧
      (twoToThreeSeconds 4).maxTransmitWait? = some (.ofSeconds 93) ∧
      Duration.total ((Timer.mk .zero (.ofSeconds 3)).timeouts (List.replicate 4 .zero)) =
        .ofSeconds 93 := by
  have hscale : (twoToThreeSeconds 4).ackTimeout.scale?
      (twoToThreeSeconds 4).ackRandomFactor = some (.ofSeconds 3) := by decide +kernel
  have hcount : (List.replicate 4 Instant.zero).length =
      (twoToThreeSeconds 4).maxRetransmit.toNat := rfl
  obtain ⟨hiff, -, htotal, -⟩ := maxTransmitWait?_eq_total_iff hscale .zero hcount
  have hwait := hiff.mpr (.inl (by decide))
  rw [htotal] at hwait
  exact ⟨hscale, hwait, htotal⟩

/-- With 31 repetitions, which are accepted, it is given up on after at most 12884901885
seconds, which is three seconds more than reckoned. -/
theorem maxTransmitWait?_too_short :
    (twoToThreeSeconds 31).validate = .ok () ∧
    (twoToThreeSeconds 31).ackTimeout.scale? (twoToThreeSeconds 31).ackRandomFactor =
      some (.ofSeconds 3) ∧
    Duration.total ((Timer.mk .zero (.ofSeconds 3)).timeouts (List.replicate 31 .zero)) =
      .ofSeconds 12884901885 ∧
    (twoToThreeSeconds 31).maxTransmitWait? = some (.ofSeconds 12884901882) ∧
    (twoToThreeSeconds 31).maxTransmitWait? ≠ some
      (Duration.total ((Timer.mk .zero (.ofSeconds 3)).timeouts
        (List.replicate 31 .zero))) := by
  have htotal : Duration.total ((Timer.mk .zero (.ofSeconds 3)).timeouts
      (List.replicate 31 .zero)) = .ofSeconds 12884901885 := by decide +kernel
  have hwait : (twoToThreeSeconds 31).maxTransmitWait? =
      some (.ofSeconds 12884901882) := by decide +kernel
  refine ⟨rfl, by decide +kernel, htotal, hwait, ?_⟩
  rw [hwait, htotal]
  decide

end Transmission

end Coap
