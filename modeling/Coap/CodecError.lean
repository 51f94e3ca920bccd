import Coap.Bytes.Basic

/-!
# Failures of the wire codec

A read or a write would leave its bounds, a value has no encoding, or the
bytes are not a well-formed message. Each cause is a constructor with the
numbers that describe it; the wording is in `CodecError.message` alone.
-/

namespace Coap

/-- Why bytes could not be read or written. -/
inductive CodecError where
  /-- `needed` bytes at `offset` were asked for where `available` are left. -/
  | bounds (offset needed available : Nat)
  /-- A message of `required` bytes does not fit into `available` bytes. -/
  | bufferTooSmall (required available : Nat)
  /-- An option does not fit into what is left of a buffer filled up to
  `position`. -/
  | bufferOverflow (position : Nat)
  /-- A delta or length has no nibble with extension. -/
  | extendedIntOverflow (value : UInt32)
  /-- An option whose head is at `offset` would have a number over 65535. -/
  | optionNumberOverflow (offset : Nat)
  /-- The option head at `offset` holds the nibble 15. -/
  | reservedNibble (offset : Nat)
  /-- A byte other than the payload marker follows the options. -/
  | invalidPayloadMarker (marker : UInt8)
  /-- The payload marker is the last byte. -/
  | emptyPayload
  /-- A token has more than 8 bytes. -/
  | invalidTokenLength (length : Nat)
  deriving DecidableEq, Repr

namespace CodecError

/-- What is told of a failure. -/
def message : CodecError → String
  | bounds offset needed available =>
      s!"bounds exceeded: {needed} bytes needed at offset {offset}, {available} available"
  | bufferTooSmall required available =>
      s!"destination buffer too small: {required} bytes required, {available} available"
  | bufferOverflow position =>
      s!"option does not fit the destination buffer at position {position}"
  | extendedIntOverflow value =>
      s!"value {value.toNat} is too big for the extended integer encoding"
  | optionNumberOverflow offset =>
      s!"option number exceeds 65535 at offset {offset}"
  | reservedNibble offset =>
      s!"reserved nibble 15 in option header at offset {offset}"
  | invalidPayloadMarker marker =>
      "invalid payload marker 0x" ++ Bytes.hex [marker]
  | emptyPayload => "payload marker is not followed by a payload"
  | invalidTokenLength length =>
      s!"token length {length} exceeds the maximum of 8"

end CodecError

end Coap
