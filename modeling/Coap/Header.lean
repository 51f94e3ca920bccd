import Coap.Code

/-!
# The header word

A message starts with a 32-bit word of five fields, from the top down:

    version (2)   type (2)   token length (4)   code (8)   message id (16)

The word is kept whole and the fields are read from it by division, so a
word that was received is the word that is sent on, whatever its version
and token length.

## Main results

* `toNat_ofFields` — the word of five fields is the sum of the fields at
  their places, version and token length cut to their widths.
* `version_ofFields`, `type_ofFields`, `tokenLength_ofFields`, `code_ofFields`,
  `id_ofFields` — a field is read back as it was given, as far as it has a place.
-/

namespace Coap

/-- How a message is acknowledged. -/
inductive MessageType where
  /-- To be acknowledged, and repeated until it is. -/
  | confirmable
  /-- Sent once. -/
  | nonConfirmable
  /-- Acknowledges a confirmable message. -/
  | acknowledgement
  /-- Rejects a message. -/
  | reset
  deriving DecidableEq, Repr

namespace MessageType

/-- The two bits of a type. -/
def number : MessageType → Nat
  | confirmable => 0
  | nonConfirmable => 1
  | acknowledgement => 2
  | reset => 3

/-- The type that the two lowest bits of a number stand for. -/
def ofBits (n : Nat) : MessageType :=
  match n % 4 with
  | 0 => confirmable
  | 1 => nonConfirmable
  | 2 => acknowledgement
  | _ => reset

/-- The registered types. -/
def registry : Registry MessageType where
  name := "MessageType"
  members := [confirmable, nonConfirmable, acknowledgement, reset]
  numberOf := number
  nameOf
    | confirmable => "Confirmable"
    | nonConfirmable => "NonConfirmable"
    | acknowledgement => "Acknowledgement"
    | reset => "Reset"

/-- The registered name of a type. -/
def name (t : MessageType) : String := registry.nameOf t

theorem number_lt (t : MessageType) : t.number < 4 := by cases t <;> decide

theorem ofBits_number (t : MessageType) : ofBits t.number = t := by
  cases t <;> rfl

end MessageType

/-- The first word of a message. -/
structure Header where
  /-- The word. -/
  raw : UInt32
  deriving DecidableEq, Repr

namespace Header

/-- The number of bytes of a header. -/
def size : Nat := 4

/-- The version of the protocol that messages are made for. -/
def version1 : UInt8 := 1

/-- The header with the given fields. Only the lowest two bits of the
version and four of the token length have a place in it. -/
def ofFields (version : UInt8) (type : MessageType) (tokenLength : UInt8)
    (code : Code) (id : UInt16) : Header :=
  ⟨UInt32.ofNat
    (version.toNat % 4 * 1073741824 + type.number * 268435456 +
      tokenLength.toNat % 16 * 16777216 + code.raw.toNat * 65536 + id.toNat)⟩

/-- The top two bits. -/
def version (h : Header) : UInt8 := UInt8.ofNat (h.raw.toNat / 1073741824)

/-- The two bits below the version. -/
def type (h : Header) : MessageType :=
  MessageType.ofBits (h.raw.toNat / 268435456)

/-- The four bits below the type, which may exceed 8. -/
def tokenLength (h : Header) : Nat := h.raw.toNat / 16777216 % 16

/-- The byte above the message id. -/
def code (h : Header) : Code := ⟨UInt8.ofNat (h.raw.toNat / 65536)⟩

/-- The lower half of the word. -/
def id (h : Header) : UInt16 := UInt16.ofNat h.raw.toNat

theorem toNat_ofFields (version : UInt8) (type : MessageType)
    (tokenLength : UInt8) (code : Code) (id : UInt16) :
    (ofFields version type tokenLength code id).raw.toNat =
      version.toNat % 4 * 1073741824 + type.number * 268435456 +
        tokenLength.toNat % 16 * 16777216 + code.raw.toNat * 65536 +
        id.toNat := by
  have ht := type.number_lt
  have hc := code.raw.toNat_lt
  have hi := id.toNat_lt
  simp only [ofFields, UInt32.toNat_ofNat']
  omega

theorem version_ofFields (version : UInt8) (type : MessageType)
    (tokenLength : UInt8) (code : Code) (id : UInt16) :
    (ofFields version type tokenLength code id).version =
      UInt8.ofNat (version.toNat % 4) := by
  have ht := type.number_lt
  have hl : tokenLength.toNat % 16 < 16 := Nat.mod_lt _ (by decide)
  have hc := code.raw.toNat_lt
  have hi := id.toNat_lt
  rw [Header.version, toNat_ofFields]
  congr 1
  omega

theorem code_ofFields (version : UInt8) (type : MessageType)
    (tokenLength : UInt8) (code : Code) (id : UInt16) :
    (ofFields version type tokenLength code id).code = code := by
  have hi := id.toNat_lt
  have hc := code.raw.toNat_lt
  have hraw : UInt8.ofNat
      ((ofFields version type tokenLength code id).raw.toNat / 65536) =
        code.raw := by
    apply UInt8.toNat_inj.mp
    rw [UInt8.toNat_ofNat', toNat_ofFields]
    omega
  rw [Header.code, hraw]

theorem type_ofFields (version : UInt8) (type : MessageType)
    (tokenLength : UInt8) (code : Code) (id : UInt16) :
    (ofFields version type tokenLength code id).type = type := by
  have ht := type.number_lt
  have hc := code.raw.toNat_lt
  have hi := id.toNat_lt
  have hbits : (ofFields version type tokenLength code id).raw.toNat /
      268435456 % 4 = type.number := by
    rw [toNat_ofFields]
    omega
  rw [Header.type, MessageType.ofBits, hbits]
  cases type <;> rfl

theorem tokenLength_ofFields (version : UInt8) (type : MessageType)
    (tokenLength : UInt8) (code : Code) (id : UInt16) :
    (ofFields version type tokenLength code id).tokenLength =
      tokenLength.toNat % 16 := by
  have hc := code.raw.toNat_lt
  have hi := id.toNat_lt
  rw [Header.tokenLength, toNat_ofFields]
  omega

theorem id_ofFields (version : UInt8) (type : MessageType)
    (tokenLength : UInt8) (code : Code) (id : UInt16) :
    (ofFields version type tokenLength code id).id = id := by
  have hi := id.toNat_lt
  apply UInt16.toNat_inj.mp
  rw [Header.id, UInt16.toNat_ofNat', toNat_ofFields]
  omega

/-- The fields of a header, each with its name. -/
def listing (h : Header) : String :=
  s!"Header \x7b version: {h.version.toNat}, type: {h.type.name}, " ++
    s!"token_len: {h.tokenLength}, code: {h.code.text}, " ++
    s!"message_id: {h.id.toNat} \x7d"

end Header

end Coap
