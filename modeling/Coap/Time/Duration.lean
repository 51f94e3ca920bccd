import Coap.Decimal.Double
import Coap.Decimal.Rounding

/-!
# Durations and clock readings

A duration is a number of nanoseconds whose whole seconds fit into 64
bits. A clock reading is a number of nanoseconds since some fixed moment;
readings that are 2⁶³ seconds or more from it do not exist, so a duration
added to one may fall out of range.

## Main results

* `nanos_ofNanos` — a number of nanoseconds in range is kept as it is.
* `checkedMul_eq_some`, `nanos_double` — multiplication is exact as long as
  it stays in range.
-/

namespace Coap

/-- A length of time. -/
structure Duration where
  /-- The number of nanoseconds. -/
  nanos : Nat
  nanos_lt : nanos < 18446744073709551616 * 1000000000
  deriving DecidableEq

namespace Duration

/-- The number of nanoseconds that no duration reaches. -/
def limit : Nat := 18446744073709551616 * 1000000000

/-- No time at all. -/
def zero : Duration := ⟨0, by decide⟩

/-- The longest duration. -/
def max : Duration := ⟨limit - 1, by decide⟩

/-- The duration of so many nanoseconds, if there is one. -/
def ofNanos? (n : Nat) : Option Duration :=
  if h : n < limit then some ⟨n, h⟩ else none

/-- The duration of so many nanoseconds, or the longest one. -/
def ofNanos (n : Nat) : Duration := (ofNanos? n).getD max

/-- The duration of so many seconds, or the longest one. -/
def ofSeconds (n : Nat) : Duration := ofNanos (n * 1000000000)

/-- The duration of so many milliseconds, or the longest one. -/
def ofMillis (n : Nat) : Duration := ofNanos (n * 1000000)

theorem nanos_ofNanos {n : Nat} (h : n < limit) : (ofNanos n).nanos = n := by
  simp [ofNanos, ofNanos?, h]

/-- The whole seconds of a duration. -/
def seconds (d : Duration) : Nat := d.nanos / 1000000000

/-- The nanoseconds beyond the whole seconds. -/
def subsecond (d : Duration) : Nat := d.nanos % 1000000000

/-! ## Multiples -/

/-- A multiple of a duration, if it is one. -/
def checkedMul (d : Duration) (n : Nat) : Option Duration := ofNanos? (d.nanos * n)

/-- Twice a duration, or the longest one. -/
def double (d : Duration) : Duration := (d.checkedMul 2).getD max

theorem checkedMul_eq_some {d r : Duration} {n : Nat} :
    d.checkedMul n = some r ↔ r.nanos = d.nanos * n := by
  unfold checkedMul ofNanos?
  constructor
  · intro h
    split at h
    · cases h; rfl
    · contradiction
  · intro h
    have := r.nanos_lt
    rw [dif_pos (by unfold limit; omega)]
    cases r
    cases h
    rfl

theorem nanos_double {d : Duration} (h : 2 * d.nanos < limit) :
    d.double.nanos = 2 * d.nanos := by
  simp [double, checkedMul, ofNanos?, Nat.mul_comm d.nanos 2, h]

/-! ## Seconds as a double -/

/-- The duration in seconds, as a double. -/
def toSeconds (d : Duration) : Float :=
  (UInt64.ofNat d.seconds).toFloat +
    (UInt64.ofNat d.subsecond).toFloat / 1000000000.0

/-- The number of whole nanoseconds nearest to `m · 2 ^ e` seconds. -/
def nearestNanos (m : Nat) (e : Int) : Nat :=
  Decimal.roundDiv (m * Nat.pow 2 e.toNat * 1000000000) (Nat.pow 2 (-e).toNat)

/-- The duration of so many seconds, to the nearest nanosecond. There is
none for a negative number, for one that is too large, or for none. -/
def ofSeconds? (x : Float) : Option Duration :=
  match Decimal.Double.decode x with
  | .finite negative m e =>
      if negative && m != 0 then none else ofNanos? (nearestNanos m e)
  | _ => none

/-- A duration times a factor, computed on doubles. -/
def scale? (d : Duration) (factor : Float) : Option Duration :=
  ofSeconds? (factor * d.toSeconds)

/-! ## Text -/

/-- A number of nanoseconds in a unit of `10 ^ places` nanoseconds, without
trailing zeros behind the point. -/
def inUnit (nanos places : Nat) (name : String) : String :=
  let unit := Nat.pow 10 places
  let fraction := Nat.toDigits 10 (nanos % unit)
  let padded := List.replicate (places - fraction.length) '0' ++ fraction
  let trimmed := (padded.reverse.dropWhile (· == '0')).reverse
  let point := if nanos % unit = 0 then "" else "." ++ String.ofList trimmed
  (nanos / unit).repr ++ point ++ name

/-- A duration in the largest of the units s, ms, µs and ns that it
reaches. -/
def text (d : Duration) : String :=
  if 1000000000 ≤ d.nanos then inUnit d.nanos 9 "s"
  else if 1000000 ≤ d.nanos then inUnit d.nanos 6 "ms"
  else if 1000 ≤ d.nanos then inUnit d.nanos 3 "µs"
  else inUnit d.nanos 0 "ns"

end Duration

/-! ## Clock readings -/

/-- A clock reading. -/
structure Instant where
  /-- The number of nanoseconds since a fixed moment. -/
  nanos : Nat
  deriving DecidableEq

namespace Instant

/-- The fixed moment. -/
def zero : Instant := ⟨0⟩

/-- The number of nanoseconds that no reading reaches. -/
def limit : Nat := 9223372036854775808 * 1000000000

/-- The reading a duration later, if there is such a reading. -/
def add? (t : Instant) (d : Duration) : Option Instant :=
  if t.nanos + d.nanos < limit then some ⟨t.nanos + d.nanos⟩ else none

/-- The time from one reading to a later one, none at all if it is not
later. -/
def since (later earlier : Instant) : Duration :=
  Duration.ofNanos (later.nanos - earlier.nanos)

theorem nanos_add? {t t' : Instant} {d : Duration} (h : t.add? d = some t') :
    t'.nanos = t.nanos + d.nanos ∧ t'.nanos < limit := by
  unfold add? at h
  split at h
  · cases h; exact ⟨rfl, by assumption⟩
  · contradiction

end Instant

end Coap
