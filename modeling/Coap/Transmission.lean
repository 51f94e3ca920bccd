import Coap.Decimal.Shortest
import Coap.Time.Duration

/-!
# How long to wait for an acknowledgement

A confirmable message is sent again when no acknowledgement has come for
a while: the first time after a random wait between `ackTimeout` and
`ackTimeout * ackRandomFactor`, then after twice the wait before, until it
has been sent again `maxRetransmit` times.

## Main results

* `waitFactor_eq` — as long as it fits into 32 bits, the wait for giving up
  is the sum of all doublings.
-/

namespace Coap

/-- Why a configuration is refused. -/
inductive ConfigError where
  | buffersTooSmall
  | receiveTimeoutZero
  | sendTimeoutZero
  | ackTimeoutZero
  | ackRandomFactor (factor : Float)
  | ackTimeoutRange (timeout : Duration) (factor : Float)

/-- What is told of a refused configuration. -/
def ConfigError.message : ConfigError → String
  | buffersTooSmall => "buffers must at least hold a message header"
  | receiveTimeoutZero => "receive timeout must be positive"
  | sendTimeoutZero => "send timeout must be positive"
  | ackTimeoutZero => "ack timeout must be positive"
  | ackRandomFactor factor =>
      "ack random factor must be finite and at least 1.0, was " ++
        Decimal.text factor
  | ackTimeoutRange timeout factor =>
      "ack timeout " ++ timeout.text ++ " times ack random factor " ++
        Decimal.text factor ++ " is out of range"

/-- The parameters of waiting and sending again. -/
structure Transmission where
  /-- The least wait before the first repetition. -/
  ackTimeout : Duration
  /-- How much longer than that the wait may be. -/
  ackRandomFactor : Float
  /-- How often a message is sent again. -/
  maxRetransmit : UInt16

namespace Transmission

/-- The parameters are usable: the wait is positive, the factor is a number
from 1 up, and their product is a duration. -/
def validate (p : Transmission) : Except ConfigError Unit :=
  if p.ackTimeout = Duration.zero then .error .ackTimeoutZero
  else if !p.ackRandomFactor.isFinite || p.ackRandomFactor < 1.0 then
    .error (.ackRandomFactor p.ackRandomFactor)
  else if (p.ackTimeout.scale? p.ackRandomFactor).isNone then
    .error (.ackTimeoutRange p.ackTimeout p.ackRandomFactor)
  else .ok ()

/-- A fraction cut to the range from 0 to 1. What is no number stays. -/
def clampFraction (x : Float) : Float :=
  if x < 0.0 then 0.0 else if 1.0 < x then 1.0 else x

/-- The first wait of a message, for a fraction between 0 and 1 of the
range it may be in. -/
def initialTimeout? (p : Transmission) (fraction : Float) : Option Duration :=
  p.ackTimeout.scale?
    (1.0 + (p.ackRandomFactor - 1.0) * clampFraction fraction)

/-- The sum of the doublings from 1 up to `2 ^ n`, in 32-bit arithmetic that
stops at the largest word. -/
def waitFactor (n : Nat) : Nat := min (Nat.pow 2 (n + 1)) 4294967295 - 1

theorem waitFactor_eq {n : Nat} (h : n < 31) : waitFactor n = Nat.pow 2 (n + 1) - 1 := by
  have hle : Nat.pow 2 (n + 1) ≤ Nat.pow 2 31 := Nat.pow_le_pow_right (by decide) (by omega)
  rw [waitFactor, Nat.min_eq_left (Nat.le_trans hle (by decide))]

/-- The longest time from first sending a message to giving up on it. -/
def maxTransmitWait? (p : Transmission) : Option Duration :=
  (p.ackTimeout.scale? p.ackRandomFactor).map fun longest =>
    (longest.checkedMul (waitFactor p.maxRetransmit.toNat)).getD Duration.max

end Transmission

end Coap
