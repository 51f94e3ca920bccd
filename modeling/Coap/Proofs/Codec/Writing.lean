import Coap.Message.Wire
import Coap.Proofs.Codec.Reading

/-!
# Writing is appending a form of the grammar

What is appended to a buffer is a byte string that does not depend on the
buffer: `Options.encodeFrom` and `Message.encode` say which, without room
and without marks. Writing then is computing that string and appending it
whole, and the string is the one form the grammar has for the message.

## Main results

* `Message.write_eq` — a message is written by appending its encoding, or
  nothing is.
* `Options.encodeFrom_eq_ok_iff` — the bytes of options are the one form
  they have in the grammar.
* `Options.writeFrom_eq_ok_iff` — options are written exactly if they have
  bytes and there is room for these.
-/

namespace Coap

open Grammar

/-! ## Nibbles -/

namespace ExtendedField

theorem extension_of_encode {number : UInt32} {f : ExtendedField}
    (h : encode number = .ok f) :
    Extension f.nibble.toNat f.extension number.toNat := by
  rw [← value_of_encode h]
  unfold encode at h
  split at h
  · next hlt =>
      cases h
      refine .inline ?_
      rw [ExtendedField.nibble, UInt8.toNat_ofNat']
      omega
  · split at h
    · cases h
      exact .oneByte _
    · split at h
      · cases h
        generalize UInt16.ofNat (number.toNat - 269) = w
        have hw := Bytes.toNat_join16 (UInt8.ofNat (w.toNat / 256))
          (UInt8.ofNat w.toNat)
        rw [Bytes.join16_split] at hw
        have hform := Extension.twoBytes (UInt8.ofNat (w.toNat / 256))
          (UInt8.ofNat w.toNat)
        rw [← hw] at hform
        exact hform
      · contradiction

/-- An extension of the grammar is the one that is chosen for its number. -/
theorem encode_of_extension {nibble : Nat} {text : Bytes} {v : Nat}
    (h : Extension nibble text v) :
    ∃ f, encode (UInt32.ofNat v) = .ok f ∧ f.nibble.toNat = nibble ∧
      f.extension = text := by
  have hv : (UInt32.ofNat v).toNat = v := by
    have hle := h.value_le
    rw [UInt32.toNat_ofNat']
    omega
  unfold encode
  rw [hv]
  cases h with
  | inline hlt =>
      refine ⟨_, if_pos hlt, ?_, rfl⟩
      simp only [ExtendedField.nibble, UInt8.toNat_ofNat']
      omega
  | oneByte a =>
      have ha := a.toNat_lt
      rw [if_neg (by omega), if_pos (by omega), Nat.add_sub_cancel]
      refine ⟨_, rfl, rfl, ?_⟩
      rw [extension, UInt8.ofNat_toNat]
  | twoBytes a b =>
      have ha := a.toNat_lt
      have hb := b.toNat_lt
      unfold limit
      rw [if_neg (by omega), if_neg (by omega), if_pos (by omega),
        Nat.add_sub_cancel]
      exact ⟨_, rfl, rfl, Bytes.ofUInt16_join a b⟩

end ExtendedField

/-! ## One option -/

namespace MessageOption

theorem toNat_delta {o : MessageOption} {previous : UInt16} :
    (o.delta previous).toNat = o.number.toNat - previous.toNat := by
  have hn := o.number.toNat_lt
  rw [delta, UInt32.toNat_ofNat']
  omega

theorem toNat_valueLength {o : MessageOption}
    (h : o.value.length < 4294967296) :
    o.valueLength.toNat = o.value.length := by
  rw [valueLength, UInt32.toNat_ofNat']
  omega

/-- The bytes of an option are those of its two fields and its value. -/
theorem encode_eq_ok_iff_fields {o : MessageOption} {previous : UInt16}
    {text : Bytes} :
    o.encode previous = .ok text ↔
      ∃ f g, ExtendedField.encode (o.delta previous) = .ok f ∧
        ExtendedField.encode o.valueLength = .ok g ∧
        text = assemble f g o.value := by
  simp only [encode, bind_eq_ok_iff]
  constructor
  · rintro ⟨f, hf, g, hg, h⟩
    cases h
    exact ⟨f, g, hf, hg, rfl⟩
  · rintro ⟨f, g, hf, hg, rfl⟩
    exact ⟨f, hf, g, hg, rfl⟩

/-- The encodings of an option are the forms that it has in the grammar. -/
theorem encode_eq_ok_iff {o : MessageOption} {previous : UInt16} {text : Bytes}
    (hshort : o.value.length < 4294967296) :
    o.encode previous = .ok text ↔
      OptionForm (o.number.toNat - previous.toNat) o.value text := by
  rw [encode_eq_ok_iff_fields]
  constructor
  · rintro ⟨f, g, hf, hg, rfl⟩
    have hupper := ExtendedField.extension_of_encode hf
    have hlower := ExtendedField.extension_of_encode hg
    rw [toNat_delta] at hupper
    rw [toNat_valueLength hshort] at hlower
    have hf15 := hupper.nibble_lt
    have hg15 := hlower.nibble_lt
    have hhead : (UInt8.ofNat (f.nibble.toNat * 16 + g.nibble.toNat)).toNat =
        f.nibble.toNat * 16 + g.nibble.toNat := by
      rw [UInt8.toNat_ofNat']
      omega
    refine .intro ?_ ?_
    · rw [hhead, show (f.nibble.toNat * 16 + g.nibble.toNat) / 16 =
        f.nibble.toNat by omega]
      exact hupper
    · rw [hhead, show (f.nibble.toNat * 16 + g.nibble.toNat) % 16 =
        g.nibble.toNat by omega]
      exact hlower
  · intro h
    cases h with
    | @intro head upper lower hupper hlower =>
        obtain ⟨f, hf, hfn, rfl⟩ := ExtendedField.encode_of_extension hupper
        obtain ⟨g, hg, hgn, rfl⟩ := ExtendedField.encode_of_extension hlower
        refine ⟨f, g, hf, hg, ?_⟩
        have hhead : UInt8.ofNat (f.nibble.toNat * 16 + g.nibble.toNat) = head := by
          rw [hfn, hgn, show head.toNat / 16 * 16 + head.toNat % 16 =
            head.toNat by omega, UInt8.ofNat_toNat]
        rw [assemble, hhead]

/-- An option has no bytes exactly if the length of its value, as a word, has
no field. The difference of two numbers always has one. -/
theorem encode_eq_error_iff {o : MessageOption} {previous : UInt16}
    {e : CodecError} :
    o.encode previous = .error e ↔
      ExtendedField.limit ≤ o.valueLength.toNat ∧
        e = .extendedIntOverflow o.valueLength := by
  have hn := o.number.toNat_lt
  have hdelta : ¬ExtendedField.limit ≤ (o.delta previous).toNat := by
    rw [toNat_delta, ExtendedField.limit]
    omega
  unfold encode
  simp only [bind_eq_error_iff, ExtendedField.encode_eq_error]
  constructor
  · rintro (⟨hle, -⟩ | ⟨f, -, h | ⟨g, -, h⟩⟩)
    · exact absurd hle hdelta
    · exact h
    · contradiction
  · intro h
    cases hf : ExtendedField.encode (o.delta previous) with
    | error e' => exact absurd (ExtendedField.encode_eq_error.mp hf).1 hdelta
    | ok f => exact .inr ⟨f, rfl, .inl h⟩

/-- The bytes of an option hold its value. -/
theorem length_value_le_of_encode {o : MessageOption} {previous : UInt16}
    {text : Bytes} (h : o.encode previous = .ok text) :
    o.value.length ≤ text.length := by
  obtain ⟨f, g, -, -, rfl⟩ := encode_eq_ok_iff_fields.mp h
  simp only [assemble, List.length_cons, List.length_append]
  omega

end MessageOption

/-! ## All options -/

namespace Options

/-- The bytes of options that follow one numbered `previous`. -/
def encodeFrom (previous : UInt16) : List MessageOption → Except CodecError Bytes
  | [] => .ok []
  | o :: rest => do
      let first ← o.encode previous
      let others ← encodeFrom o.number rest
      return first ++ others

theorem encodeFrom_cons_eq_ok_iff {previous : UInt16} {o : MessageOption}
    {rest : List MessageOption} {text : Bytes} :
    encodeFrom previous (o :: rest) = .ok text ↔
      ∃ first others, o.encode previous = .ok first ∧
        encodeFrom o.number rest = .ok others ∧ text = first ++ others := by
  simp only [encodeFrom, bind_eq_ok_iff]
  constructor
  · rintro ⟨first, hfirst, others, hothers, h⟩
    cases h
    exact ⟨first, others, hfirst, hothers, rfl⟩
  · rintro ⟨first, others, hfirst, hothers, rfl⟩
    exact ⟨first, hfirst, others, hothers, rfl⟩

/-- The announced length of options is that of their bytes. -/
theorem encodedLengthFrom_eq (previous : UInt16) (l : List MessageOption) :
    encodedLengthFrom previous l = (encodeFrom previous l).map List.length := by
  induction l generalizing previous with
  | nil => rfl
  | cons o rest ih =>
      simp only [encodedLengthFrom, encodeFrom, MessageOption.length_encode, ih]
      cases o.encode previous with
      | error e => rfl
      | ok first =>
          cases encodeFrom o.number rest with
          | error e => rfl
          | ok others =>
              simp [bind, Except.bind, Except.map, pure, Except.pure]

/-- The number of the last option, or `previous` if there is none. -/
def lastNumber (previous : UInt16) : List MessageOption → UInt16
  | [] => previous
  | o :: rest => lastNumber o.number rest

/-- The bytes of options in two parts are those of the parts. -/
theorem encodeFrom_append_eq_ok_iff {previous : UInt16}
    {l l' : List MessageOption} {text : Bytes} :
    encodeFrom previous (l ++ l') = .ok text ↔
      ∃ first others, encodeFrom previous l = .ok first ∧
        encodeFrom (lastNumber previous l) l' = .ok others ∧
        text = first ++ others := by
  induction l generalizing previous text with
  | nil => simp [encodeFrom, lastNumber]
  | cons o rest ih =>
      simp only [List.cons_append, encodeFrom_cons_eq_ok_iff, lastNumber, ih]
      constructor
      · rintro ⟨head, _, hhead, ⟨first, others, hfirst, hothers, rfl⟩, rfl⟩
        exact ⟨head ++ first, others, ⟨head, first, hhead, hfirst, rfl⟩, hothers,
          (List.append_assoc ..).symm⟩
      · rintro ⟨_, others, ⟨head, first, hhead, hfirst, rfl⟩, hothers, rfl⟩
        exact ⟨head, first ++ others, hhead, ⟨first, others, hfirst, hothers, rfl⟩,
          List.append_assoc ..⟩

/-- Options whose bytes fit are written by appending them, and writing goes on
behind them. -/
theorem writeFrom_append {previous : UInt16} {l : List MessageOption}
    {text : Bytes} {b b' : Buffer} (h : encodeFrom previous l = .ok text)
    (hb : b.append? text = some b') (l' : List MessageOption) :
    writeFrom previous (l ++ l') b =
      writeFrom (lastNumber previous l) l' b' := by
  induction l generalizing previous text b with
  | nil =>
      cases h
      rw [Buffer.append?_nil] at hb
      cases hb
      rfl
  | cons o rest ih =>
      obtain ⟨first, others, hfirst, hothers, rfl⟩ := encodeFrom_cons_eq_ok_iff.mp h
      rw [Buffer.append?_append] at hb
      obtain ⟨b₁, hb₁, hb⟩ := Option.bind_eq_some_iff.mp hb
      simp only [List.cons_append, writeFrom_cons, hfirst, hb₁]
      exact ih hothers hb

/-- Options whose bytes fit are written by appending them. -/
theorem writeFrom_of_encodeFrom {previous : UInt16} {l : List MessageOption}
    {text : Bytes} {b b' : Buffer} (h : encodeFrom previous l = .ok text)
    (hb : b.append? text = some b') :
    writeFrom previous l b = (b', .ok ()) := by
  have happend := writeFrom_append h hb []
  rw [List.append_nil] at happend
  exact happend

/-- Writing options to their end is appending their bytes. -/
theorem writeFrom_eq_ok_iff {previous : UInt16} {l : List MessageOption}
    {b b' : Buffer} :
    writeFrom previous l b = (b', .ok ()) ↔
      ∃ text, encodeFrom previous l = .ok text ∧ b.append? text = some b' := by
  refine ⟨fun h => ?_, fun ⟨text, htext, hb⟩ => writeFrom_of_encodeFrom htext hb⟩
  induction l generalizing previous b with
  | nil =>
      cases h
      exact ⟨[], rfl, Buffer.append?_nil _⟩
  | cons o rest ih =>
      rw [writeFrom_cons] at h
      cases hfirst : o.encode previous with
      | error e =>
          rw [hfirst] at h
          cases h
      | ok first =>
          cases hb₁ : b.append? first with
          | none =>
              simp only [hfirst, hb₁] at h
              cases h
          | some b₁ =>
              simp only [hfirst, hb₁] at h
              obtain ⟨others, hothers, hb'⟩ := ih h
              refine ⟨first ++ others, encodeFrom_cons_eq_ok_iff.mpr
                ⟨first, others, hfirst, hothers, rfl⟩, ?_⟩
              rw [Buffer.append?_append, hb₁]
              exact hb'

/-- The bytes of options in order are the form that they have in the
grammar. -/
theorem encodeFrom_eq_ok_iff {previous : UInt16} {l : List MessageOption}
    {text : Bytes} (hasc : l.Pairwise fun a b => a.number ≤ b.number)
    (hprev : ∀ o ∈ l, previous ≤ o.number)
    (hshort : ∀ o ∈ l, o.value.length < 4294967296) :
    encodeFrom previous l = .ok text ↔ OptionsForm previous.toNat l text := by
  induction l generalizing previous text with
  | nil =>
      constructor
      · intro h
        cases h
        exact .nil _
      · intro h
        cases h
        rfl
  | cons o rest ih =>
      obtain ⟨hfirstLe, hrest⟩ := List.pairwise_cons.mp hasc
      have hle := UInt16.le_iff_toNat_le.mp (hprev o List.mem_cons_self)
      have hlt := o.number.toNat_lt
      have hencode (first : Bytes) :
          o.encode previous = .ok first ↔
            OptionForm (o.number.toNat - previous.toNat) o.value first :=
        MessageOption.encode_eq_ok_iff (hshort o List.mem_cons_self)
      have hothers (others : Bytes) :
          encodeFrom o.number rest = .ok others ↔
            OptionsForm o.number.toNat rest others :=
        ih hrest hfirstLe fun x hx => hshort x (List.mem_cons_of_mem o hx)
      simp only [encodeFrom_cons_eq_ok_iff, hencode, hothers]
      constructor
      · rintro ⟨first, others, hfirst, hform, rfl⟩
        have hsum : previous.toNat + (o.number.toNat - previous.toNat) =
            o.number.toNat := by omega
        have hcons : OptionsForm previous.toNat
            (⟨.ofNat (previous.toNat + (o.number.toNat - previous.toNat)),
              o.value⟩ :: rest) (first ++ others) :=
          .cons hfirst (by omega) (by rw [hsum]; exact hform)
        rw [hsum, UInt16.ofNat_toNat] at hcons
        exact hcons
      · intro h
        cases h with
        | @cons _ delta value first others _ hfirst hsum hform =>
            have hnat : (UInt16.ofNat (previous.toNat + delta)).toNat =
                previous.toNat + delta := by
              rw [UInt16.toNat_ofNat']
              omega
            simp only [hnat, Nat.add_sub_cancel_left]
            exact ⟨first, others, hfirst, hform, rfl⟩

/-- The bytes of options hold all their values. -/
theorem length_value_le_of_encodeFrom {previous : UInt16}
    {l : List MessageOption} {text : Bytes} (h : encodeFrom previous l = .ok text) :
    ∀ o ∈ l, o.value.length ≤ text.length := by
  induction l generalizing previous text with
  | nil =>
      intro o ho
      cases ho
  | cons first rest ih =>
      obtain ⟨head, others, hhead, hothers, rfl⟩ := encodeFrom_cons_eq_ok_iff.mp h
      have hfirst := MessageOption.length_value_le_of_encode hhead
      intro o ho
      rw [List.length_append]
      rcases List.mem_cons.mp ho with rfl | hmem
      · omega
      · have hle := ih hothers o hmem
        omega

end Options

/-! ## Messages -/

namespace Message

/-- A payload behind its marker. -/
def payloadBytes : Option Bytes → Bytes
  | some p => payloadMarker :: p
  | none => []

/-- The bytes of a message. -/
def encode (m : Message) : Except CodecError Bytes := do
  let options ← Options.encodeFrom 0 m.options.toList
  return Bytes.ofUInt32 m.header.raw ++ m.token.bytes ++ options ++
    payloadBytes m.payload

/-- The bytes of a message are those of its parts, of which only the options
may have none. -/
theorem encode_eq_ok_iff_options {m : Message} {text : Bytes} :
    m.encode = .ok text ↔
      ∃ options, Options.encodeFrom 0 m.options.toList = .ok options ∧
        text = Bytes.ofUInt32 m.header.raw ++ m.token.bytes ++ options ++
          payloadBytes m.payload := by
  simp only [encode, bind_eq_ok_iff]
  constructor
  · rintro ⟨options, hoptions, h⟩
    cases h
    exact ⟨options, hoptions, rfl⟩
  · rintro ⟨options, hoptions, rfl⟩
    exact ⟨options, hoptions, rfl⟩

/-- The bytes of a message hold the values of all its options. -/
theorem length_value_le_of_encode {m : Message} {text : Bytes}
    (h : m.encode = .ok text) :
    ∀ o ∈ m.options.toList, o.value.length ≤ text.length := by
  obtain ⟨options, hoptions, rfl⟩ := encode_eq_ok_iff_options.mp h
  intro o ho
  have hle := Options.length_value_le_of_encodeFrom hoptions o ho
  simp only [List.length_append]
  omega

theorem length_payloadBytes (payload : Option Bytes) :
    (payloadBytes payload).length = payloadLength payload := by
  cases payload with
  | none => rfl
  | some p => exact Nat.add_comm p.length 1

/-- The announced length of a message is that of its bytes. -/
theorem encodedLength_eq (m : Message) :
    m.encodedLength = m.encode.map List.length := by
  unfold encodedLength encode Options.encodedLength
  rw [Options.encodedLengthFrom_eq]
  cases Options.encodeFrom 0 m.options.toList with
  | error e => rfl
  | ok options =>
      simp only [bind, Except.bind, Except.map, pure, Except.pure,
        List.length_append, Bytes.length_ofUInt32, length_payloadBytes]
      rfl

theorem putPayload_of_append? {b b' : Buffer} {payload : Option Bytes}
    (h : b.append? (payloadBytes payload) = some b') :
    putPayload b payload = b' := by
  cases payload with
  | none =>
      rw [payloadBytes, Buffer.append?_nil] at h
      exact Option.some.inj h
  | some p =>
      rw [payloadBytes, ← List.singleton_append, Buffer.append?_append] at h
      obtain ⟨b₁, hb₁, h⟩ := Option.bind_eq_some_iff.mp h
      rw [putPayload, Buffer.put_of_append? hb₁, Buffer.put_of_append? h]

/-- A message is written by appending its bytes. If it has none, or no room
for them is left, the buffer stays as it is. -/
theorem write_eq (m : Message) (b : Buffer) :
    m.write b =
      match m.encode with
      | .error e => (b, .error e)
      | .ok text =>
          match b.append? text with
          | none => (b, .error (.bufferTooSmall text.length b.room))
          | some b' => (b', .ok text.length) := by
  unfold write
  rw [encodedLength_eq]
  cases hm : m.encode with
  | error e => rfl
  | ok text =>
      simp only [Except.map]
      by_cases hroom : b.room < text.length
      · rw [if_pos hroom, Buffer.append?_eq_none.mpr hroom]
      · rw [if_neg hroom]
        cases hb : b.append? text with
        | none => exact absurd (Buffer.append?_eq_none.mp hb) hroom
        | some b' =>
            obtain ⟨options, hoptions, rfl⟩ := encode_eq_ok_iff_options.mp hm
            -- The parts are appended one behind the other, as they are put.
            simp only [Buffer.append?_append, Option.bind_eq_some_iff] at hb
            obtain ⟨b₃, ⟨b₂, ⟨b₁, hb₁, hb₂⟩, hb₃⟩, hb'⟩ := hb
            rw [Buffer.put_of_append? hb₁, Buffer.put_of_append? hb₂,
              Options.write, Options.writeFrom_of_encodeFrom hoptions hb₃]
            simp only [putPayload_of_append? hb']

theorem write_of_append? {m : Message} {b b' : Buffer} {text : Bytes}
    (hm : m.encode = .ok text) (hb : b.append? text = some b') :
    m.write b = (b', .ok text.length) := by
  rw [write_eq, hm]
  simp only [hb]

/-- Writing that succeeds has appended the bytes of the message. -/
theorem append?_of_write {m : Message} {b : Buffer} {n : Nat}
    (h : (m.write b).2 = .ok n) :
    ∃ text, m.encode = .ok text ∧ text.length = n ∧
      b.append? text = some (m.write b).1 := by
  rw [write_eq] at h ⊢
  cases hm : m.encode with
  | error e =>
      rw [hm] at h
      contradiction
  | ok text =>
      simp only [hm] at h ⊢
      cases hb : b.append? text with
      | none =>
          rw [hb] at h
          contradiction
      | some b' =>
          rw [hb] at h
          cases h
          exact ⟨text, rfl, rfl, hb⟩

end Message

end Coap
