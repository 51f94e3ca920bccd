import Coap.Proofs.Codec.RoundTrip

/-!
# Writing into what is free

Options are put part by part, and only whether there is room for all parts of
one option is asked before the first of them is put. So what is written when
the room ends is a number of whole options, and the place where writing stops
can be told without writing: it is the first option whose value is too long, or
up to which the bytes are more than what is free.

A message asks once, for all of its parts, before the first of them is put. The
room that it asks for is added up by another recursion than the one that puts
the parts; both follow the bytes of the options, so the room never ends in the
middle of a message.

## Main results

* `Options.encodeFrom_take_of_writable` — what stands in front of the first
  option that cannot be written has bytes, and room.
* `Options.write_stops_at_first_unwritable` — options are written up to the
  first that cannot be.
* `Message.write_all_or_nothing` — a message is written whole, or the buffer
  stays as it was.
-/

namespace Coap

open Grammar

/-! ## Putting options part by part -/

namespace Options

variable {s : Options} {l : List MessageOption} {b b' : Buffer}
  {previous : UInt16} {text : Bytes}

/-- The parts of options that follow one numbered `previous`, in the order in
which they are put. -/
def partsFrom (previous : UInt16) :
    List MessageOption → Except CodecError (List Bytes)
  | [] => .ok []
  | o :: rest => do
      let (delta, length) ← o.fields previous
      let others ← partsFrom o.number rest
      return MessageOption.parts delta length o.value ++ others

/-- The bytes of options are those of their parts. -/
theorem encodeFrom_eq_map_partsFrom (previous : UInt16)
    (l : List MessageOption) :
    encodeFrom previous l = (partsFrom previous l).map List.flatten := by
  induction l generalizing previous with
  | nil => rfl
  | cons o rest ih =>
      simp only [encodeFrom, partsFrom, MessageOption.encode_eq_map_fields, ih]
      cases o.fields previous with
      | error e => rfl
      | ok f =>
          cases partsFrom o.number rest with
          | error e => rfl
          | ok others =>
              simp [bind, Except.bind, Except.map, pure, Except.pure]

/-- The parts of the options were put one behind the other, and there was room
for each of them when it was put. -/
def Puts (l : List MessageOption) (b b' : Buffer) : Prop :=
  ∃ parts, partsFrom 0 l = .ok parts ∧
    parts.foldlM Buffer.append? b = some b'

/-- Bytes that are appended whole are put part by part. -/
theorem puts_of_append? (h : encodeFrom 0 l = .ok text)
    (hb : b.append? text = some b') : Puts l b b' := by
  rw [encodeFrom_eq_map_partsFrom] at h
  cases hparts : partsFrom 0 l with
  | error e =>
      rw [hparts] at h
      contradiction
  | ok parts =>
      rw [hparts] at h
      cases h
      exact ⟨parts, hparts, by rw [Buffer.foldlM_append?, hb]⟩

/-- The options were written behind what the buffer held: the bytes they have
in the grammar follow it, and no part of them was put past the end. -/
structure Written (l : List MessageOption) (b b' : Buffer) : Prop where
  contents : ∃ text, OptionsForm 0 l text ∧ b'.contents = b.contents ++ text
  capacity : b'.capacity = b.capacity
  puts : Puts l b b'

/-! ## Where writing stops -/

/-- The option at place `k` cannot be written into `room` bytes: its value is
too long for the wire, or the bytes up to its end are more than that. -/
def Unwritable (s : Options) (room k : Nat) : Prop :=
  ∃ o, s.toList[k]? = some o ∧
    (65804 < o.value.length ∨
      ∃ text, OptionsForm 0 (s.toList.take (k + 1)) text ∧ room < text.length)

/-- Options whose values are not too long have bytes. -/
theorem exists_encodeFrom (h : ∀ o ∈ l, o.value.length ≤ 65804)
    (previous : UInt16) : ∃ text, encodeFrom previous l = .ok text := by
  induction l generalizing previous with
  | nil => exact ⟨[], rfl⟩
  | cons o rest ih =>
      obtain ⟨others, hothers⟩ :=
        ih (fun x hx => h x (List.mem_cons_of_mem o hx)) o.number
      have hle := h o List.mem_cons_self
      cases ho : o.encode previous with
      | error e =>
          have hlimit := (MessageOption.encode_eq_error_iff.mp ho).1
          rw [MessageOption.toNat_valueLength (by omega),
            ExtendedField.limit] at hlimit
          omega
      | ok first =>
          exact ⟨first ++ others, encodeFrom_cons_eq_ok_iff.mpr
            ⟨first, others, ho, hothers, rfl⟩⟩

/-- The bytes of the first options are the form that they have. -/
theorem encodeFrom_take_iff (hshort : ∀ o ∈ s.toList, o.value.length < 4294967296)
    (n : Nat) :
    encodeFrom 0 (s.toList.take n) = .ok text ↔
      OptionsForm 0 (s.toList.take n) text :=
  encodeFrom_eq_ok_iff (s.ascending.sublist (List.take_sublist n _))
    (fun _ _ => UInt16.zero_le) fun o ho => hshort o (List.mem_of_mem_take ho)

/-- In front of the first option that cannot be written, all have bytes, and
there is room for these. -/
theorem encodeFrom_take_of_writable {room n : Nat}
    (hshort : ∀ o ∈ s.toList, o.value.length < 4294967296)
    (hn : n ≤ s.toList.length) (h : ∀ j < n, ¬s.Unwritable room j) :
    ∃ text, encodeFrom 0 (s.toList.take n) = .ok text ∧ text.length ≤ room := by
  have hvalues : ∀ o ∈ s.toList.take n, o.value.length ≤ 65804 := by
    intro o ho
    obtain ⟨j, hj, hget⟩ := List.mem_take_iff_getElem.mp ho
    refine Nat.le_of_not_lt fun hlong => h j (by omega) ⟨o, ?_, .inl hlong⟩
    rw [List.getElem?_eq_getElem (by omega), hget]
  obtain ⟨text, htext⟩ := exists_encodeFrom hvalues 0
  refine ⟨text, htext, ?_⟩
  cases n with
  | zero =>
      cases htext
      exact Nat.zero_le room
  | succ j =>
      refine Nat.le_of_not_lt fun hroom => h j (Nat.lt_succ_self j) ?_
      exact ⟨s.toList[j], List.getElem?_eq_getElem hn,
        .inr ⟨text, (encodeFrom_take_iff hshort _).mp htext, hroom⟩⟩

/-- No option that has room together with all before it is one that cannot be
written. -/
theorem not_unwritable_of_encodeFrom {room k : Nat}
    (hshort : ∀ o ∈ s.toList, o.value.length < 4294967296)
    (h : encodeFrom 0 s.toList = .ok text) (hroom : text.length ≤ room) :
    ¬s.Unwritable room k := by
  rintro ⟨o, hget, hlong | ⟨front, hfront, hlt⟩⟩
  · have hform := (encodeFrom_eq_ok_iff s.ascending
      (fun _ _ => UInt16.zero_le) hshort).mp h
    have hle := hform.length_value_le o (List.mem_of_getElem? hget)
    omega
  · rw [← List.take_append_drop (k + 1) s.toList] at h
    obtain ⟨first, others, hfirst, -, rfl⟩ := encodeFrom_append_eq_ok_iff.mp h
    rw [(encodeFrom_take_iff hshort _).mpr hfront] at hfirst
    cases hfirst
    rw [List.length_append] at hroom
    omega

/-- Appending the bytes of the first options writes them. -/
theorem written_of_append? {n : Nat}
    (hshort : ∀ o ∈ s.toList, o.value.length < 4294967296)
    (h : encodeFrom 0 (s.toList.take n) = .ok text)
    (hb : b.append? text = some b') : Written (s.toList.take n) b b' :=
  ⟨⟨text, (encodeFrom_take_iff hshort n).mp h, Buffer.contents_append? hb⟩,
    Buffer.capacity_append? hb, puts_of_append? h hb⟩

/-- What is told of the first option that cannot be written. -/
theorem writeFrom_of_unwritable {k : Nat} {o : MessageOption}
    (hshort : ∀ o ∈ s.toList, o.value.length < 4294967296)
    (hget : s.toList[k]? = some o) (hk : s.Unwritable b.room k)
    (h : encodeFrom 0 (s.toList.take k) = .ok text)
    (hb : b.append? text = some b') :
    s.write b =
      (b', .error
        (if 65804 < o.value.length then
          .extendedIntOverflow (UInt32.ofNat o.value.length)
        else .bufferOverflow b'.length)) := by
  have hsplit : s.toList = s.toList.take k ++ o :: s.toList.drop (k + 1) := by
    obtain ⟨hlt, rfl⟩ := List.getElem?_eq_some_iff.mp hget
    rw [List.getElem_cons_drop, List.take_append_drop]
  have hwrite : s.write b =
      writeFrom (lastNumber 0 (s.toList.take k))
        (o :: s.toList.drop (k + 1)) b' := by
    calc s.write b
        = writeFrom 0 (s.toList.take k ++ o :: s.toList.drop (k + 1)) b := by
          rw [← hsplit, write]
      _ = _ := writeFrom_append h hb _
  have hword := MessageOption.toNat_valueLength
    (hshort o (List.mem_of_getElem? hget))
  rw [hwrite, writeFrom_cons]
  by_cases hlong : 65804 < o.value.length
  · have herror : o.encode (lastNumber 0 (s.toList.take k)) =
        .error (.extendedIntOverflow o.valueLength) := by
      refine MessageOption.encode_eq_error_iff.mpr ⟨?_, rfl⟩
      rw [hword, ExtendedField.limit]
      omega
    rw [if_pos hlong, herror]
    rfl
  · obtain ⟨_, hget', hcause⟩ := hk
    rw [hget] at hget'
    cases hget'
    obtain ⟨front, hfront, hroom⟩ := hcause.resolve_left hlong
    -- The bytes up to the end of this option are those in front of it and its own.
    have htake : s.toList.take (k + 1) = s.toList.take k ++ [o] := by
      rw [List.take_add_one, hget]
      rfl
    have hfront := (encodeFrom_take_iff hshort _).mpr hfront
    rw [htake, encodeFrom_append_eq_ok_iff] at hfront
    obtain ⟨_, _, hfirst, hown, rfl⟩ := hfront
    rw [h] at hfirst
    cases hfirst
    obtain ⟨bytes, _, hbytes, hnil, rfl⟩ := encodeFrom_cons_eq_ok_iff.mp hown
    cases hnil
    have hfull : b'.append? bytes = none := by
      have hleft := Buffer.room_append? hb
      have hfits := Buffer.length_le_room hb
      rw [List.append_nil, List.length_append] at hroom
      exact Buffer.append?_eq_none.mpr (by omega)
    rw [if_neg hlong, hbytes]
    simp only [hfull]

/-- In front of place `n` there is a buffer that the bytes lead to. -/
theorem exists_append?_take {n : Nat}
    (hshort : ∀ o ∈ s.toList, o.value.length < 4294967296)
    (hn : n ≤ s.toList.length) (h : ∀ j < n, ¬s.Unwritable b.room j) :
    ∃ text b', encodeFrom 0 (s.toList.take n) = .ok text ∧
      b.append? text = some b' := by
  obtain ⟨text, htext, hroom⟩ := encodeFrom_take_of_writable hshort hn h
  cases hb : b.append? text with
  | none => exact absurd (Buffer.append?_eq_none.mp hb) (Nat.not_lt.mpr hroom)
  | some b' => exact ⟨text, b', htext, hb⟩

theorem encodedLength_eq_ok_iff {n : Nat} :
    s.encodedLength = .ok n ↔
      ∃ text, encodeFrom 0 s.toList = .ok text ∧ text.length = n := by
  rw [encodedLength, encodedLengthFrom_eq]
  cases encodeFrom 0 s.toList <;> simp [Except.map]

/-- Options that all can be written are written, and take the announced number
of bytes. -/
theorem write_of_writable
    (hshort : ∀ o ∈ s.toList, o.value.length < 4294967296)
    (h : ∀ k, ¬s.Unwritable b.room k) :
    (s.write b).2 = .ok () ∧ Written s.toList b (s.write b).1 ∧
      ∃ n, s.encodedLength = .ok n ∧ n ≤ b.room ∧
        (s.write b).1.length = b.length + n := by
  obtain ⟨text, b', htext, hb⟩ :=
    exists_append?_take hshort (Nat.le_refl _) fun j _ => h j
  have hwritten := written_of_append? hshort htext hb
  rw [List.take_length] at htext hwritten
  have hwrite : s.write b = (b', .ok ()) := writeFrom_of_encodeFrom htext hb
  rw [hwrite]
  exact ⟨rfl, hwritten, text.length,
    encodedLength_eq_ok_iff.mpr ⟨text, htext, rfl⟩,
    Buffer.length_le_room hb, Buffer.length_append? hb⟩

/-- Options are written up to the first that cannot be, which is told of by the
length of its value or by the place that was reached; they are all written, in
as many bytes as were announced, exactly if that many are free. -/
theorem write_stops_at_first_unwritable (s : Options)
    (hshort : ∀ o ∈ s.toList, o.value.length < 4294967296) (b : Buffer) :
    ((∀ k, ¬s.Unwritable b.room k) →
      (s.write b).2 = .ok () ∧ Written s.toList b (s.write b).1 ∧
        ∃ n, s.encodedLength = .ok n ∧
          (s.write b).1.length = b.length + n) ∧
    ((∀ k, ¬s.Unwritable b.room k) ↔
      ∃ n, s.encodedLength = .ok n ∧ n ≤ b.room) ∧
    ∀ k o, s.toList[k]? = some o → s.Unwritable b.room k →
      (∀ j < k, ¬s.Unwritable b.room j) →
        Written (s.toList.take k) b (s.write b).1 ∧
        (s.write b).2 = .error
          (if 65804 < o.value.length then
            .extendedIntOverflow (UInt32.ofNat o.value.length)
          else .bufferOverflow (s.write b).1.length) := by
  refine ⟨fun h => ?_, ⟨fun h => ?_, ?_⟩, fun k o hget hk hfirst => ?_⟩
  · obtain ⟨hok, hwritten, n, hn, -, hlength⟩ := write_of_writable hshort h
    exact ⟨hok, hwritten, n, hn, hlength⟩
  · obtain ⟨-, -, n, hn, hroom, -⟩ := write_of_writable hshort h
    exact ⟨n, hn, hroom⟩
  · rintro ⟨n, hn, hroom⟩ k
    obtain ⟨text, htext, rfl⟩ := encodedLength_eq_ok_iff.mp hn
    exact not_unwritable_of_encodeFrom hshort htext hroom
  · obtain ⟨hlt, -⟩ := List.getElem?_eq_some_iff.mp hget
    obtain ⟨text, b', htext, hb⟩ :=
      exists_append?_take hshort (Nat.le_of_lt hlt) hfirst
    rw [writeFrom_of_unwritable hshort hget hk htext hb]
    exact ⟨written_of_append? hshort htext hb, rfl⟩

/-- A host, and a path whose value needs a byte of extension. -/
def sampleHostAndPath : Options :=
  .ofList [⟨11, List.replicate 14 97⟩, ⟨3, [104, 111, 115, 116]⟩]

/-- A buffer of 21 bytes that holds one. Behind the host, 15 are left for the
path: enough for its head and value, but not for the extension between them. -/
def sampleBuffer : Buffer := ⟨List.replicate 21 7, 1, by decide⟩

theorem write_stops_at_first_unwritable_sampleHostAndPath :
    (∀ o ∈ sampleHostAndPath.toList, o.value.length < 4294967296) ∧
      sampleHostAndPath.Unwritable sampleBuffer.room 1 ∧
      (∀ j < 1, ¬sampleHostAndPath.Unwritable sampleBuffer.room j) ∧
      Written [⟨3, [104, 111, 115, 116]⟩] sampleBuffer
        (sampleHostAndPath.write sampleBuffer).1 ∧
      (sampleHostAndPath.write sampleBuffer).2 = .error (.bufferOverflow 6) := by
  have hshort : ∀ o ∈ sampleHostAndPath.toList,
      o.value.length < 4294967296 := by decide
  have hpath : sampleHostAndPath.Unwritable sampleBuffer.room 1 :=
    ⟨_, rfl, .inr ⟨_, (encodeFrom_take_iff hshort 2).mp rfl, by decide⟩⟩
  have hhost : ∀ j < 1, ¬sampleHostAndPath.Unwritable sampleBuffer.room j := by
    intro j hj hunwritable
    obtain rfl : j = 0 := by omega
    obtain ⟨o, hget, hlong | ⟨text, hform, hroom⟩⟩ := hunwritable
    · cases hget
      exact absurd hlong (by decide)
    · have htext := (encodeFrom_take_iff hshort 1).mpr hform
      cases htext
      exact absurd hroom (by decide)
  obtain ⟨hwritten, herror⟩ :=
    (write_stops_at_first_unwritable sampleHostAndPath hshort
      sampleBuffer).2.2 1 _ rfl hpath hhost
  exact ⟨hshort, hpath, hhost, hwritten, herror⟩

end Options

/-! ## Messages -/

namespace Message

variable {m : Message} {b b' : Buffer} {text : Bytes}

/-- The parts of a payload, in the order in which they are put. -/
def payloadParts : Option Bytes → List Bytes
  | some p => [[payloadMarker], p]
  | none => []

/-- The message was written behind what the buffer held. Its parts were put one
behind the other, there was room for each of them when it was put, and the
writer of the options had nothing to tell of. -/
structure Written (m : Message) (b b' : Buffer) : Prop where
  contents : ∃ text, m.encode = .ok text ∧ b'.contents = b.contents ++ text
  capacity : b'.capacity = b.capacity
  puts : ∃ started between,
    [Bytes.ofUInt32 m.header.raw, m.token.bytes].foldlM Buffer.append? b =
      some started ∧
    m.options.write started = (between, .ok ()) ∧
    Options.Puts m.options.toList started between ∧
    (payloadParts m.payload).foldlM Buffer.append? between = some b'

theorem flatten_payloadParts (payload : Option Bytes) :
    (payloadParts payload).flatten = payloadBytes payload := by
  cases payload <;> simp [payloadParts, payloadBytes]

theorem encodedLength_eq_ok_iff {n : Nat} :
    m.encodedLength = .ok n ↔ ∃ text, m.encode = .ok text ∧ text.length = n := by
  rw [encodedLength_eq]
  cases m.encode <;> simp [Except.map]

/-- Appending the bytes of a message writes it. -/
theorem written_of_append? (hm : m.encode = .ok text)
    (hb : b.append? text = some b') : m.Written b b' := by
  refine ⟨⟨text, hm, Buffer.contents_append? hb⟩, Buffer.capacity_append? hb, ?_⟩
  obtain ⟨options, hoptions, rfl⟩ := encode_eq_ok_iff_options.mp hm
  simp only [Buffer.append?_append, Option.bind_eq_some_iff] at hb
  obtain ⟨between, ⟨started, ⟨b₁, hb₁, hstarted⟩, hbetween⟩, hb'⟩ := hb
  refine ⟨started, between, ?_, ?_, ?_, ?_⟩
  · rw [Buffer.foldlM_append?, List.flatten_cons, List.flatten_singleton,
      Buffer.append?_append, hb₁]
    exact hstarted
  · exact Options.writeFrom_of_encodeFrom hoptions hbetween
  · exact Options.puts_of_append? hoptions hbetween
  · rw [Buffer.foldlM_append?, flatten_payloadParts]
    exact hb'

/-- A message is written exactly if the announced length is free, and then takes
just that many bytes behind what the buffer held; otherwise the buffer stays as
it was, and the announcement or the room is told of. -/
theorem write_all_or_nothing (m : Message) (b : Buffer) :
    ((∃ n, (m.write b).2 = .ok n) ↔
      ∃ n, m.encodedLength = .ok n ∧ n ≤ b.room) ∧
    (∀ n, m.encodedLength = .ok n → n ≤ b.room →
      (m.write b).2 = .ok n ∧ (m.write b).1.length = b.length + n ∧
        m.Written b (m.write b).1) ∧
    (∀ n, m.encodedLength = .ok n → b.room < n →
      m.write b = (b, .error (.bufferTooSmall n b.room))) ∧
    ∀ e, m.encodedLength = .error e → m.write b = (b, .error e) := by
  have hfits (n : Nat) (hn : m.encodedLength = .ok n) (hroom : n ≤ b.room) :
      (m.write b).2 = .ok n ∧ (m.write b).1.length = b.length + n ∧
        m.Written b (m.write b).1 := by
    obtain ⟨text, htext, rfl⟩ := encodedLength_eq_ok_iff.mp hn
    cases hb : b.append? text with
    | none => exact absurd (Buffer.append?_eq_none.mp hb) (Nat.not_lt.mpr hroom)
    | some b' =>
        rw [write_of_append? htext hb]
        exact ⟨rfl, Buffer.length_append? hb, written_of_append? htext hb⟩
  refine ⟨⟨?_, ?_⟩, hfits, fun n => write_of_room_lt, fun e he => ?_⟩
  · rintro ⟨n, hn⟩
    obtain ⟨text, htext, rfl, hb⟩ := append?_of_write hn
    exact ⟨text.length, encodedLength_eq_ok_iff.mpr ⟨text, htext, rfl⟩,
      Buffer.length_le_room hb⟩
  · rintro ⟨n, hn, hroom⟩
    exact ⟨n, (hfits n hn hroom).1⟩
  · rw [write, he]

end Message

end Coap
