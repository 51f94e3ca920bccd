import Coap.Header
import Coap.Transmission

/-!
# Configuration of an endpoint

Sizes of the buffers, bounds on the time that a single receive or send may
take, and the parameters of sending again. Of several faults the first in
that order is told.
-/

namespace Coap

/-- The configuration of an endpoint. -/
structure Config where
  /-- The most bytes of a datagram that is received. -/
  readBufferSize : Nat
  /-- The most bytes of a message that is sent. -/
  writeBufferSize : Nat
  /-- How long a single receive waits. -/
  receiveTimeout : Duration
  /-- How long a single send may take. -/
  sendTimeout : Duration
  /-- When messages are sent again. -/
  transmission : Transmission

namespace Config

/-- A buffer of fewer bytes has no room for a header. -/
def bufferTooSmall (size : Nat) : Bool := decide (size < Header.size)

/-- A configuration is usable. -/
def validate (c : Config) : Except ConfigError Unit :=
  if bufferTooSmall c.readBufferSize || bufferTooSmall c.writeBufferSize then
    .error .buffersTooSmall
  else if c.receiveTimeout = Duration.zero then .error .receiveTimeoutZero
  else if c.sendTimeout = Duration.zero then .error .sendTimeoutZero
  else c.transmission.validate

end Config

end Coap
