import Coap.Proofs.Codec.Acceptance
import Coap.Proofs.Codec.Writing

/-!
# Writing and reading undo each other

Both sides are compared with the grammar: a message is read from exactly
the datagrams of its parts, and the bytes it is written as are the only
such datagram. So what was written is read as it was, and what was read is
written as it came, whoever wrote it.

## Main results

* `encode_eq_ok_iff` — the bytes of a message are the only form it has.
* `read_of_write` — a message that was written is read back.
* `write_of_read` — a datagram that was read is written back, byte for
  byte.
-/

namespace Coap.Message

open Grammar

/-! ## Well-formed messages -/

/-- What a message keeps for its bytes to be those of a datagram: the
header tells the token's length, a payload has a byte, and the length of no
value is cut off. -/
structure WellFormed (m : Message) : Prop where
  tokenLength : m.header.tokenLength = m.token.bytes.length
  payload_ne : m.payload ≠ some []
  short : ∀ o ∈ m.options.toList, o.value.length < 4294967296

/-- The messages that can be made: by a constructor, with values shorter
than 2³² bytes, by reading a datagram, or by noting a sender. -/
inductive Obtainable : Message → Prop where
  | new (type : MessageType) (code : Code) (id : UInt16) (token : Token)
      {options : Options} (payload : Option Bytes)
      (h : ∀ o ∈ options.toList, o.value.length < 4294967296) :
      Obtainable (.new type code id token options payload)
  | confirmable (code : Code) (id : UInt16) (token : Token)
      {options : Options} (payload : Option Bytes)
      (h : ∀ o ∈ options.toList, o.value.length < 4294967296) :
      Obtainable (.confirmable code id token options payload)
  | nonConfirmable (code : Code) (id : UInt16) (token : Token)
      {options : Options} (payload : Option Bytes)
      (h : ∀ o ∈ options.toList, o.value.length < 4294967296) :
      Obtainable (.nonConfirmable code id token options payload)
  | ack (token : Token) (id : UInt16) : Obtainable (.ack token id)
  | reset (id : UInt16) : Obtainable (.reset id)
  | piggyback (request : Message) (code : Code) {options : Options}
      (payload : Option Bytes)
      (h : ∀ o ∈ options.toList, o.value.length < 4294967296) :
      Obtainable (request.piggyback code options payload)
  | read {data : Bytes} {m : Message} (h : Message.read data = .ok m) :
      Obtainable m
  | withSender {m : Message} (h : Obtainable m) (sender : SocketAddress) :
      Obtainable (m.withSender sender)

theorem tokenLength_new (type : MessageType) (code : Code) (id : UInt16)
    (token : Token) (options : Options) (payload : Option Bytes) :
    (new type code id token options payload).header.tokenLength =
      token.bytes.length := by
  have htoken : token.bytes.length ≤ 8 := token.length_le
  rw [new, Header.tokenLength_ofFields, UInt8.toNat_ofNat']
  omega

theorem wellFormed_new (type : MessageType) (code : Code) (id : UInt16)
    (token : Token) {options : Options} (payload : Option Bytes)
    (h : ∀ o ∈ options.toList, o.value.length < 4294967296) :
    (new type code id token options payload).WellFormed := by
  refine ⟨tokenLength_new .., ?_, h⟩
  cases payload with
  | none => simp [new]
  | some p =>
      rw [payload_new]
      split
      · simp
      · next hp => simpa using hp

theorem wellFormed_of_read {data : Bytes} {m : Message}
    (h : read data = .ok m) : m.WellFormed := by
  obtain ⟨-, hform⟩ := read_eq_ok_iff.mp h
  rcases m with ⟨⟨raw⟩, token, options, payload, sender⟩
  dsimp only at hform
  cases hform with
  | intro hheader hnibble hlength hoptions hpayload =>
      subst hheader
      refine ⟨?_, hpayload.ne_empty, fun o ho => ?_⟩
      · rw [tokenLength_join]
        exact hlength.symm
      · have := hoptions.length_value_le o ho
        omega

theorem Obtainable.wellFormed {m : Message} (h : m.Obtainable) :
    m.WellFormed := by
  induction h with
  | new type code id token payload h => exact wellFormed_new _ _ _ _ _ h
  | confirmable code id token payload h => exact wellFormed_new _ _ _ _ _ h
  | nonConfirmable code id token payload h => exact wellFormed_new _ _ _ _ _ h
  | ack token id => exact wellFormed_new _ _ _ _ _ (by simp)
  | reset id => exact wellFormed_new _ _ _ _ _ (by simp)
  | piggyback request code payload h => exact wellFormed_new _ _ _ _ _ h
  | read h => exact wellFormed_of_read h
  | withSender h sender ih => exact ⟨ih.tokenLength, ih.payload_ne, ih.short⟩

/-! ## Bytes and grammar -/

theorem payloadForm_iff {payload : Option Bytes} {text : Bytes} :
    PayloadForm payload text ↔
      payload ≠ some [] ∧ text = payloadBytes payload := by
  constructor
  · intro h
    refine ⟨h.ne_empty, ?_⟩
    cases h <;> rfl
  · rintro ⟨hne, rfl⟩
    cases payload with
    | none => exact .absent
    | some p => exact .present fun hp => hne (by rw [hp])

/-- The bytes of a message are the only form that it has in the grammar. -/
theorem encode_eq_ok_iff {m : Message} (hm : m.WellFormed) {data : Bytes} :
    m.encode = .ok data ↔
      DatagramForm m.header.raw m.token.bytes m.options.toList m.payload
        data := by
  have hoptions (text : Bytes) :
      Options.encodeFrom 0 m.options.toList = .ok text ↔
        OptionsForm 0 m.options.toList text :=
    Options.encodeFrom_eq_ok_iff m.options.ascending
      (fun _ _ => UInt16.zero_le) hm.short
  simp only [encode_eq_ok_iff_options, hoptions]
  rcases m with ⟨⟨raw⟩, token, options, payload, sender⟩
  dsimp only
  constructor
  · rintro ⟨text, hform, rfl⟩
    have htoken := hm.tokenLength
    have hle : token.bytes.length ≤ 8 := token.length_le
    have hraw := (Bytes.join32_split raw).symm
    rw [hraw, tokenLength_join] at htoken
    exact .intro hraw (htoken ▸ hle) htoken.symm hform
      (payloadForm_iff.mpr ⟨hm.payload_ne, rfl⟩)
  · intro h
    cases h with
    | @intro a b c d optionBytes payloadBytes hheader hnibble hlength hform
        hpayload =>
        subst hheader
        rw [Bytes.ofUInt32_join, (payloadForm_iff.mp hpayload).2]
        exact ⟨optionBytes, hform, rfl⟩

/-- A message is read from its bytes. -/
theorem read_of_encode {m : Message} (hm : m.WellFormed) {data : Bytes}
    (h : m.encode = .ok data) : read data = .ok { m with sender := none } :=
  read_eq_ok_iff.mpr ⟨rfl, (encode_eq_ok_iff hm).mp h⟩

/-- A message that was made is read from its bytes, if these are not too many for
the length of a value. -/
theorem read_of_encode_new {type : MessageType} {code : Code} {id : UInt16}
    {token : Token} {options : Options} {payload : Option Bytes} {data : Bytes}
    (h : (new type code id token options payload).encode = .ok data)
    (hlength : data.length < 4294967296) :
    read data = .ok (new type code id token options payload) := by
  refine read_of_encode (wellFormed_new _ _ _ _ _ ?_) h
  intro o ho
  exact Nat.lt_of_le_of_lt (length_value_le_of_encode h o ho) hlength

/-- A datagram is the bytes of the message that is read from it. -/
theorem encode_of_read {m : Message} {data : Bytes} (h : read data = .ok m) :
    m.encode = .ok data :=
  (encode_eq_ok_iff (wellFormed_of_read h)).mpr (read_eq_ok_iff.mp h).2

/-! ## Round trips -/

/-- A message that was written is read back from just the bytes that were
appended, without its sender. An empty payload comes back as none. -/
theorem read_of_write {m : Message} (hm : m.Obtainable) {b : Buffer} {n : Nat}
    (hw : (m.write b).2 = .ok n) :
    ∃ text, (m.write b).1.contents = b.contents ++ text ∧ text.length = n ∧
      read text = .ok { m with sender := none } ∧
      ∀ type code id token options,
        m = .new type code id token options (some []) →
          read text = .ok (.new type code id token options none) := by
  obtain ⟨text, hencode, hlength, hb⟩ := append?_of_write hw
  have hread := read_of_encode hm.wellFormed hencode
  refine ⟨text, Buffer.contents_append? hb, hlength, hread, ?_⟩
  rintro type code id token options rfl
  exact hread

/-- A request with two options of one number, one that is far from them, a
value that needs an extension, and a payload. -/
def sampleRequest : Message :=
  .confirmable ⟨1⟩ 2 ⟨[3], by decide⟩
    (.ofList [⟨300, List.replicate 14 7⟩, ⟨11, [97]⟩, ⟨11, [98]⟩]) (some [10])

theorem read_of_write_sampleRequest :
    sampleRequest.Obtainable ∧
      (sampleRequest.write ⟨List.replicate 64 0, 2, by decide⟩).2 = .ok 29 ∧
      ∃ text,
        (sampleRequest.write ⟨List.replicate 64 0, 2, by decide⟩).1.contents =
          [0, 0] ++ text ∧ text.length = 29 ∧
        read text = .ok sampleRequest ∧
        ∀ type code id token options,
          sampleRequest = .new type code id token options (some []) →
            read text = .ok (.new type code id token options none) := by
  have hm : sampleRequest.Obtainable :=
    .confirmable _ _ _ _ (by decide)
  have hw : (sampleRequest.write ⟨List.replicate 64 0, 2, by decide⟩).2 =
      .ok 29 := rfl
  exact ⟨hm, hw, read_of_write hm hw⟩

/-- A datagram that was read has the announced length and is written back
byte for byte wherever there is room, so no other datagram is read as the
same message. -/
theorem write_of_read {data : Bytes} {m : Message} (h : read data = .ok m) :
    m.encodedLength = .ok data.length ∧
      (∀ b : Buffer, data.length ≤ b.room →
        (m.write b).2 = .ok data.length ∧
          (m.write b).1.contents = b.contents ++ data) ∧
      ∀ data', read data' = .ok m → data' = data := by
  have hencode := encode_of_read h
  refine ⟨?_, fun b hroom => ?_, fun data' h' => ?_⟩
  · rw [encodedLength_eq, hencode]
    rfl
  · cases hb : b.append? data with
    | none => exact absurd (Buffer.append?_eq_none.mp hb) (Nat.not_lt.mpr hroom)
    | some b' =>
        rw [write_of_append? hencode hb]
        exact ⟨rfl, Buffer.contents_append? hb⟩
  · have hencode' := encode_of_read h'
    rw [hencode] at hencode'
    exact (Except.ok.inj hencode').symm

/-- A response of a version that is not spoken here. -/
def sampleVersion2 : Message :=
  ⟨⟨0xA1450007⟩, ⟨[9], by decide⟩, .ofList [⟨17, [5, 6]⟩], some [8], none⟩

theorem write_of_read_sampleVersion2 :
    read [0xA1, 0x45, 0, 7, 9, 0xD2, 4, 5, 6, 0xFF, 8] = .ok sampleVersion2 ∧
      sampleVersion2.encodedLength = .ok 11 ∧
      (∀ b : Buffer, 11 ≤ b.room →
        (sampleVersion2.write b).2 = .ok 11 ∧
          (sampleVersion2.write b).1.contents =
            b.contents ++ [0xA1, 0x45, 0, 7, 9, 0xD2, 4, 5, 6, 0xFF, 8]) ∧
      ∀ data, read data = .ok sampleVersion2 →
        data = [0xA1, 0x45, 0, 7, 9, 0xD2, 4, 5, 6, 0xFF, 8] := by
  have hm : sampleVersion2.WellFormed := ⟨rfl, by decide, by decide⟩
  have h : read [0xA1, 0x45, 0, 7, 9, 0xD2, 4, 5, 6, 0xFF, 8] =
      .ok sampleVersion2 := read_of_encode hm rfl
  exact ⟨h, write_of_read h⟩

end Coap.Message
