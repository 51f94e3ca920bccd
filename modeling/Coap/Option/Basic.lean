import Coap.ExtendedField
import Coap.Registry
import Coap.Text.Quoted

/-!
# Options

An option is a number, which says what the option means, and a value of
opaque bytes. Values that are integers are written with the most
significant byte first and read back from any width of up to four bytes.

## Main results

* `length_encode` — an option takes as many bytes on the wire as its
  `encodedLength` says, and has an encoding exactly if it has that length.
* `length_assemble` — the room that is asked for an option is what its parts
  take.
-/

namespace Coap

/-! ## Registered numbers -/

/-- Values of the option that names the format of a payload. -/
inductive ContentFormat where
  | textPlain
  | linkFormat
  | xml
  | octetStream
  | exi
  | json
  deriving DecidableEq, Repr

namespace ContentFormat

/-- The registered number of a format. -/
def number : ContentFormat → Nat
  | textPlain => 0
  | linkFormat => 40
  | xml => 41
  | octetStream => 42
  | exi => 47
  | json => 50

/-- The registered formats. -/
def registry : Registry ContentFormat where
  name := "ContentFormat"
  members := [textPlain, linkFormat, xml, octetStream, exi, json]
  numberOf := number
  nameOf
    | textPlain => "TextPlain"
    | linkFormat => "LinkFormat"
    | xml => "Xml"
    | octetStream => "OctetStream"
    | exi => "Exi"
    | json => "Json"

end ContentFormat

namespace OptionNumber

/-! The numbers of the options that requests are built from. -/

/-- The host of the requested resource. -/
def uriHost : UInt16 := 3

/-- The port of the requested resource. -/
def uriPort : UInt16 := 7

/-- One segment of the path of the requested resource. -/
def uriPath : UInt16 := 11

/-- The format of the payload. -/
def contentFormat : UInt16 := 12

/-- One term of the query of the requested resource. -/
def uriQuery : UInt16 := 15

end OptionNumber

/-! ## Options and their values -/

/-- A numbered option. -/
structure MessageOption where
  /-- What the option means. -/
  number : UInt16
  /-- The value, as it stands on the wire. -/
  value : Bytes
  deriving DecidableEq, Repr

namespace MessageOption

/-- The option whose value is a text. -/
def ofText (number : UInt16) (text : String) : MessageOption :=
  ⟨number, Bytes.ofText text⟩

/-- An integer in the least of one, two and four bytes that hold it. -/
def shortestBytes (n : UInt32) : Bytes :=
  if n.toNat < 256 then [UInt8.ofNat n.toNat]
  else if n.toNat < 65536 then Bytes.ofUInt16 (UInt16.ofNat n.toNat)
  else Bytes.ofUInt32 n

/-- The option whose value is an integer. -/
def ofUInt32 (number : UInt16) (n : UInt32) : MessageOption :=
  ⟨number, shortestBytes n⟩

/-- The option that names the format of the payload. -/
def ofFormat (f : ContentFormat) : MessageOption :=
  ofUInt32 OptionNumber.contentFormat (UInt32.ofNat f.number)

/-- The value as an integer, if it has at most four bytes. -/
def toUInt32? (o : MessageOption) : Option UInt32 :=
  if o.value.length ≤ 4 then
    some (o.value.foldl (fun n x => (n <<< 8) ||| x.toUInt32) 0)
  else none

/-- The value as a text, if it is valid UTF-8. -/
def toText? (o : MessageOption) : Option String := Bytes.toText? o.value

/-- An option as its number, a colon and its value: a quoted text if the
value is one without control characters, and a list of bytes otherwise. -/
def listing (o : MessageOption) : String :=
  let shown :=
    match o.toText? with
    | some s =>
        if s.isEmpty || s.toList.any Text.isControl then Bytes.listing o.value
        else Text.quoted s
    | none => Bytes.listing o.value
  o.number.toNat.repr ++ ":" ++ shown

/-! ## Options on the wire

The head of an option holds its number as the difference to the number of
the option before it. The length of the value is a 32-bit word here: of a
value with 2³² bytes or more only the lower bits are looked at. -/

/-- The difference of an option's number to the number before it. -/
def delta (o : MessageOption) (previous : UInt16) : UInt32 :=
  UInt32.ofNat (o.number.toNat - previous.toNat)

/-- The number of bytes in an option's value, as a word. -/
def valueLength (o : MessageOption) : UInt32 := UInt32.ofNat o.value.length

/-- The number of bytes of an option that follows one numbered
`previous`. -/
def encodedLength (o : MessageOption) (previous : UInt16) :
    Except CodecError Nat := do
  let delta ← ExtendedField.encodedLength (o.delta previous)
  let length ← ExtendedField.encodedLength o.valueLength
  return 1 + delta + length + o.value.length

/-- The two fields in the head of an option that follows one numbered
`previous`: the difference of the numbers and the length of the value. -/
def fields (o : MessageOption) (previous : UInt16) :
    Except CodecError (ExtendedField × ExtendedField) := do
  let delta ← ExtendedField.encode (o.delta previous)
  let length ← ExtendedField.encode o.valueLength
  return (delta, length)

/-- The room that an option with the given fields needs. -/
def required (delta length : ExtendedField) (value : Bytes) : Nat :=
  1 + delta.extensionLength + length.extensionLength + value.length

/-- The parts of an option with the given fields, in the order in which they
are put: the head, the two extensions and the value. -/
def parts (delta length : ExtendedField) (value : Bytes) : List Bytes :=
  [[UInt8.ofNat (delta.nibble.toNat * 16 + length.nibble.toNat)],
    delta.extension, length.extension, value]

/-- The head, extensions and value of an option with the given fields. -/
def assemble (delta length : ExtendedField) (value : Bytes) : Bytes :=
  UInt8.ofNat (delta.nibble.toNat * 16 + length.nibble.toNat) ::
    (delta.extension ++ length.extension ++ value)

/-- The bytes of an option that follows one numbered `previous`. -/
def encode (o : MessageOption) (previous : UInt16) :
    Except CodecError Bytes := do
  let delta ← ExtendedField.encode (o.delta previous)
  let length ← ExtendedField.encode o.valueLength
  return assemble delta length o.value

@[simp] theorem flatten_parts (delta length : ExtendedField) (value : Bytes) :
    (parts delta length value).flatten = assemble delta length value := by
  simp [parts, assemble]

/-- The room that is asked for is that of the bytes. -/
@[simp] theorem length_assemble (delta length : ExtendedField)
    (value : Bytes) :
    (assemble delta length value).length = required delta length value := by
  simp only [assemble, required, List.length_cons, List.length_append,
    ExtendedField.length_extension]
  omega

theorem encode_eq_map_fields (o : MessageOption) (previous : UInt16) :
    o.encode previous =
      (o.fields previous).map fun f => assemble f.1 f.2 o.value := by
  unfold encode fields
  cases ExtendedField.encode (o.delta previous) with
  | error e => rfl
  | ok delta => cases ExtendedField.encode o.valueLength <;> rfl

/-- The length that is announced is that of the bytes written, and the
errors are the same. -/
theorem length_encode (o : MessageOption) (previous : UInt16) :
    o.encodedLength previous = (o.encode previous).map List.length := by
  unfold encodedLength encode ExtendedField.encodedLength
  cases ExtendedField.encode (o.delta previous) with
  | error e => rfl
  | ok d =>
    cases ExtendedField.encode o.valueLength with
    | error e => rfl
    | ok l =>
      simp only [bind, Except.bind, Except.map, pure, Except.pure, assemble,
        List.length_cons, List.length_append, ExtendedField.length_extension,
        Except.ok.injEq]
      omega

end MessageOption

end Coap
