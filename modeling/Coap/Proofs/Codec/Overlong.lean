import Coap.Option.Outline
import Coap.Proofs.Codec.Room
import Coap.Proofs.Options.Order

/-!
# Values that are too long for the wire

The field for the length of a value ends at 65804. Whether a value exceeds it
is asked of its length as a 32-bit word, so it is the remainder of the length
by 2³² that is compared, and that the field tells. A value of 2³² bytes or more
is therefore refused only if the remainder is too large as well; otherwise it
is written whole behind a field that tells the remainder, and no reader finds
the end of the value.

Everything is decided by the bytes of one option: the sizes and the writers of
options and messages fail exactly if one of the options has none.

## Main results

* `Options.encodeFrom_of_tooLong` — options have no bytes if one of them has
  none.
* `MessageOption.refused_iff_told_length` — which values are refused, and what
  is told of those that are not.
* `MessageOption.overlong_written` — a value of 2³² bytes is written.
-/

namespace Coap

namespace MessageOption

variable {o : MessageOption} {previous : UInt16} {text : Bytes}

/-- The word for the length of a value is the remainder of the length. -/
theorem toNat_valueLength_eq_mod (o : MessageOption) :
    o.valueLength.toNat = o.value.length % 4294967296 :=
  UInt32.toNat_ofNat'

/-- The value is too long for the wire by the word for its length. -/
def TooLong (o : MessageOption) : Prop :=
  65804 < o.value.length % 4294967296

theorem encode_eq_error_iff_tooLong {e : CodecError} :
    o.encode previous = .error e ↔
      o.TooLong ∧ e = .extendedIntOverflow o.valueLength := by
  rw [encode_eq_error_iff, toNat_valueLength_eq_mod]
  exact Iff.rfl

/-- The bytes of an option end with its value, and their length field tells the
remainder of its length. -/
theorem told_length_of_encode (h : o.encode previous = .ok text) :
    ∃ delta length, text = assemble delta length o.value ∧
      length.value = o.value.length % 4294967296 := by
  obtain ⟨delta, length, -, hlength, rfl⟩ := encode_eq_ok_iff_fields.mp h
  refine ⟨delta, length, rfl, ?_⟩
  rw [ExtendedField.value_of_encode hlength, toNat_valueLength_eq_mod]

end MessageOption

/-! ## Sizes and writers -/

namespace Options

/-- Options have no bytes if one of them has none. -/
theorem encodeFrom_of_tooLong {l : List MessageOption} {o : MessageOption}
    (ho : o ∈ l) (hlong : o.TooLong) (previous : UInt16) :
    ∃ w, encodeFrom previous l = .error (.extendedIntOverflow w) := by
  induction l generalizing previous with
  | nil => cases ho
  | cons x rest ih =>
      cases hx : x.encode previous with
      | error e =>
          obtain ⟨-, rfl⟩ := MessageOption.encode_eq_error_iff_tooLong.mp hx
          exact ⟨_, bind_eq_error_iff.mpr (.inl hx)⟩
      | ok first =>
          have hne : o ≠ x := by
            rintro rfl
            rw [MessageOption.encode_eq_error_iff_tooLong.mpr ⟨hlong, rfl⟩] at hx
            contradiction
          obtain ⟨w, hw⟩ := ih ((List.mem_cons.mp ho).resolve_left hne) x.number
          refine ⟨w, bind_eq_error_iff.mpr (.inr ⟨first, hx, ?_⟩)⟩
          exact bind_eq_error_iff.mpr (.inl hw)

/-- The bytes of options hold those of each of them. -/
theorem exists_encode_of_mem {previous : UInt16} {l : List MessageOption}
    {text : Bytes} {o : MessageOption} (h : encodeFrom previous l = .ok text)
    (ho : o ∈ l) :
    ∃ before own after prior, text = before ++ own ++ after ∧
      o.encode prior = .ok own := by
  obtain ⟨front, back, rfl⟩ := List.append_of_mem ho
  obtain ⟨before, others, -, hothers, rfl⟩ := encodeFrom_append_eq_ok_iff.mp h
  obtain ⟨own, after, hown, -, rfl⟩ := encodeFrom_cons_eq_ok_iff.mp hothers
  exact ⟨before, own, after, _, (List.append_assoc ..).symm, hown⟩

end Options

namespace MessageOption

/-- An option is refused everywhere: its own size, the sizes of options and
messages that it is among, and every attempt to write these. -/
structure Refused (o : MessageOption) : Prop where
  size : ∀ previous, ∃ w,
    o.encodedLength previous = .error (.extendedIntOverflow w)
  options : ∀ s : Options, o ∈ s.toList → ∃ w,
    s.encodedLength = .error (.extendedIntOverflow w)
  message : ∀ m : Message, o ∈ m.options.toList → ∃ w,
    m.encodedLength = .error (.extendedIntOverflow w)
  writing : ∀ (s : Options) (b : Buffer), o ∈ s.toList → ∃ e,
    (s.write b).2 = .error e
  sending : ∀ (m : Message) (b : Buffer), o ∈ m.options.toList → ∃ e,
    (m.write b).2 = .error e

theorem refused_of_tooLong {o : MessageOption} (hlong : o.TooLong) :
    o.Refused where
  size previous := by
    refine ⟨o.valueLength, ?_⟩
    rw [length_encode, encode_eq_error_iff_tooLong.mpr ⟨hlong, rfl⟩]
    rfl
  options s ho := by
    obtain ⟨w, hw⟩ := Options.encodeFrom_of_tooLong ho hlong 0
    refine ⟨w, ?_⟩
    rw [Options.encodedLength, Options.encodedLengthFrom_eq, hw]
    rfl
  message m ho := by
    obtain ⟨w, hw⟩ := Options.encodeFrom_of_tooLong ho hlong 0
    refine ⟨w, ?_⟩
    rw [Message.encodedLength_eq, Message.encode, hw]
    rfl
  writing s b ho := by
    obtain ⟨w, hw⟩ := Options.encodeFrom_of_tooLong ho hlong 0
    cases hwrite : (s.write b).2 with
    | error e => exact ⟨e, rfl⟩
    | ok _ =>
        obtain ⟨text, htext, -⟩ :=
          Options.writeFrom_eq_ok_iff.mp (Prod.ext rfl hwrite)
        rw [hw] at htext
        contradiction
  sending m b ho := by
    obtain ⟨w, hw⟩ := Options.encodeFrom_of_tooLong ho hlong 0
    cases hwrite : (m.write b).2 with
    | error e => exact ⟨e, rfl⟩
    | ok n =>
        obtain ⟨text, htext, -⟩ := Message.append?_of_write hwrite
        rw [Message.encode, hw] at htext
        contradiction

theorem tooLong_of_refused {o : MessageOption} (h : o.Refused) :
    o.TooLong := by
  obtain ⟨w, hw⟩ := h.size 0
  rw [length_encode] at hw
  cases hencode : o.encode 0 with
  | error e => exact (encode_eq_error_iff_tooLong.mp hencode).1
  | ok text =>
      rw [hencode] at hw
      contradiction

/-- An option is refused exactly if the remainder of its value's length by 2³²
is more than 65804. Of every option in a message that is written, the length
field tells this remainder. -/
theorem refused_iff_told_length (o : MessageOption) :
    (o.Refused ↔ 65804 < o.value.length % 4294967296) ∧
    ∀ (m : Message) (b : Buffer) (n : Nat), o ∈ m.options.toList →
      (m.write b).2 = .ok n →
        ∃ before delta length after,
          (m.write b).1.contents =
            before ++ assemble delta length o.value ++ after ∧
          length.value = o.value.length % 4294967296 := by
  refine ⟨⟨tooLong_of_refused, refused_of_tooLong⟩, fun m b n ho hwrite => ?_⟩
  obtain ⟨text, htext, -, hb⟩ := Message.append?_of_write hwrite
  obtain ⟨options, hoptions, rfl⟩ := Message.encode_eq_ok_iff_options.mp htext
  obtain ⟨before, own, after, prior, rfl, hown⟩ :=
    Options.exists_encode_of_mem hoptions ho
  obtain ⟨delta, length, rfl, hlength⟩ := told_length_of_encode hown
  refine ⟨b.contents ++ (Bytes.ofUInt32 m.header.raw ++ m.token.bytes ++ before),
    delta, length, after ++ Message.payloadBytes m.payload, ?_, hlength⟩
  rw [Buffer.contents_append? hb]
  simp only [List.append_assoc]

/-! ## A value that is not refused -/

/-- An option with a value of `n` zeros. -/
def zeros (n : Nat) : MessageOption := ⟨11, List.replicate n 0⟩

/-- A request with this option alone. -/
def zerosRequest (n : Nat) : Message :=
  .confirmable ⟨1⟩ 2 Token.empty (.ofList [zeros n]) none

/-- If the word for the length is zero, the head says that no value follows. -/
theorem encode_zeros {n : Nat} (hn : UInt32.ofNat n = 0) :
    (zeros n).encode 0 = .ok (0xB0 :: List.replicate n 0) := by
  have hword : (zeros n).valueLength = 0 := by
    rw [valueLength, zeros, List.length_replicate, hn]
  rw [encode, hword]
  rfl

theorem encode_zerosRequest {n : Nat} (hn : UInt32.ofNat n = 0) :
    (zerosRequest n).encode =
      .ok ([0x40, 1, 0, 2, 0xB0] ++ List.replicate n 0) := by
  have hoptions : Options.encodeFrom 0 (zerosRequest n).options.toList =
      .ok (0xB0 :: List.replicate n 0) := by
    exact Options.encodeFrom_cons_eq_ok_iff.mpr
      ⟨_, [], encode_zeros hn, rfl, (List.append_nil _).symm⟩
  refine Message.encode_eq_ok_iff_options.mpr ⟨_, hoptions, ?_⟩
  have hheader : (zerosRequest n).header =
      .ofFields Header.version1 .confirmable 0 ⟨1⟩ 2 := rfl
  have htoken : (zerosRequest n).token.bytes = [] := rfl
  have hpayload : Message.payloadBytes (zerosRequest n).payload = [] := rfl
  rw [hheader, htoken, hpayload, List.append_nil, List.append_nil]
  rfl

/-- A value of 2³² bytes is refused nowhere. The request that holds it is
written behind a length field that tells no bytes, and nothing that could be
received is read as this request. -/
theorem overlong_written :
    65804 < (zeros 4294967296).value.length ∧
      ¬(zeros 4294967296).Refused ∧
      (zeros 4294967296).encodedLength 0 = .ok 4294967297 ∧
      (∃ b, (zerosRequest 4294967296).write (Buffer.new 4294967301) =
          (b, .ok 4294967301) ∧
        b.contents = [0x40, 1, 0, 2, 0xB0] ++ List.replicate 4294967296 0) ∧
      ∀ data, Message.read data ≠ .ok (zerosRequest 4294967296) := by
  have hlength : (zeros 4294967296).value.length = 4294967296 :=
    List.length_replicate
  have hword : UInt32.ofNat 4294967296 = 0 := by decide
  have hencode := encode_zerosRequest hword
  refine ⟨?_, ?_, ?_, ?_, fun data hread => ?_⟩
  · rw [hlength]
    decide
  · intro h
    have hlong := tooLong_of_refused h
    rw [TooLong, hlength] at hlong
    exact absurd hlong (by decide)
  · rw [length_encode, encode_zeros hword, Except.map, List.length_cons,
      List.length_replicate]
  · have hsize : ([0x40, 1, 0, 2, 0xB0] ++
        List.replicate 4294967296 (0 : UInt8)).length = 4294967301 := by
      rw [List.length_append, List.length_replicate]
      rfl
    cases hb : (Buffer.new 4294967301).append?
        ([0x40, 1, 0, 2, 0xB0] ++ List.replicate 4294967296 0) with
    | none =>
        have hroom := Buffer.append?_eq_none.mp hb
        rw [hsize, Buffer.room, Buffer.capacity_new] at hroom
        exact absurd hroom (Nat.not_lt.mpr (Nat.le_refl _))
    | some b =>
        refine ⟨b, ?_, ?_⟩
        · rw [Message.write_of_append? hencode hb, hsize]
        · rw [Buffer.contents_append? hb, Buffer.contents_new, List.nil_append]
  · obtain ⟨-, hform⟩ := Message.read_eq_ok_iff.mp hread
    cases hform with
    | intro _ _ _ hoptions _ =>
        have hle := hoptions.length_value_le (zeros 4294967296)
          List.mem_cons_self
        rw [hlength] at hle
        exact absurd hle (by decide)

end MessageOption

end Coap
