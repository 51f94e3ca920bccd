import Coap.Message.Basic
import Coap.Option.Wire

/-!
# Messages on the wire

A message is one datagram: the header, the token, the options, and if
there is a payload the marker 0xFF and the payload. The token's length is
in the header; the options end at the marker or with the datagram.

## Main results

* `write_of_room_lt` — a message that does not fit leaves the buffer as it
  was.
-/

namespace Coap.Message

/-! ## Writing -/

/-- The number of bytes of a payload with its marker. -/
def payloadLength : Option Bytes → Nat
  | some p => 1 + p.length
  | none => 0

/-- The number of bytes of a message. -/
def encodedLength (m : Message) : Except CodecError Nat := do
  let options ← m.options.encodedLength
  return Header.size + m.token.bytes.length + options + payloadLength m.payload

/-- A payload behind its marker, appended to a buffer. -/
def putPayload (buf : Buffer) : Option Bytes → Buffer
  | some p => (buf.put [payloadMarker]).put p
  | none => buf

/-- Append a message to a buffer and tell its length. The room is checked
first: a message that does not fit is not begun. -/
def write (m : Message) (buf : Buffer) : Buffer × Except CodecError Nat :=
  match m.encodedLength with
  | .error e => (buf, .error e)
  | .ok required =>
      if buf.room < required then
        (buf, .error (.bufferTooSmall required buf.room))
      else
        let started :=
          (buf.put (Bytes.ofUInt32 m.header.raw)).put m.token.bytes
        match m.options.write started with
        | (buf, .error e) => (buf, .error e)
        | (buf, .ok ()) => (putPayload buf m.payload, .ok required)

theorem write_of_room_lt {m : Message} {buf : Buffer} {required : Nat}
    (hm : m.encodedLength = .ok required) (hr : buf.room < required) :
    m.write buf = (buf, .error (.bufferTooSmall required buf.room)) := by
  simp [write, hm, hr]

/-! ## Reading -/

/-- Read what follows the options: nothing, or a marker and a payload. -/
def readPayload (c : Cursor) : Except CodecError (Option Bytes) :=
  match c.rest with
  | [] => .ok none
  | marker :: payload =>
      if marker ≠ payloadMarker then .error (.invalidPayloadMarker marker)
      else if payload.isEmpty then .error .emptyPayload
      else .ok (some payload)

/-- Read a message from a datagram. -/
def read (data : Bytes) : Except CodecError Message := do
  let (raw, c) ← (Cursor.ofBytes data).nextUInt32
  let header := Header.mk raw
  if maxTokenLength < header.tokenLength then
    throw (.invalidTokenLength header.tokenLength)
  let (token, c) ← c.next header.tokenLength
  let token ← Token.ofBytes token
  let (options, c) ← Options.read c
  let payload ← readPayload c
  return { header, token, options, payload, sender := none }

end Coap.Message
