import Coap.Proofs.Codec.Reading

/-!
# Which datagrams are accepted

A datagram is accepted exactly if it has the form of the grammar, and the
message in it is made of the parts that the grammar names. What is not of
that form is refused with an error of a malformed datagram: no error of
writing, and none that names a byte in the place of the payload marker,
since the options end nowhere but at the marker.

## Main results

* `Message.read_eq_ok_iff` — a message is read from exactly the datagrams
  of its parts.
* `Message.read_accepts_grammar` — acceptance, the parts and the errors in
  one statement.
-/

namespace Coap

/-- The errors of reading: bytes that are missing, and the four ways in
which bytes that are there can be wrong. -/
def CodecError.IsMalformed : CodecError → Prop
  | .bounds .. => True
  | .invalidTokenLength _ => True
  | .reservedNibble _ => True
  | .optionNumberOverflow _ => True
  | .emptyPayload => True
  | .bufferTooSmall .. => False
  | .bufferOverflow _ => False
  | .extendedIntOverflow _ => False
  | .invalidPayloadMarker _ => False

/-! ## Errors of the readers -/

namespace Cursor

theorem malformed_of_next {n : Nat} {c : Cursor} {e : CodecError}
    (h : c.next n = .error e) : e.IsMalformed := by
  simp only [next] at h
  split at h
  · contradiction
  · cases h; trivial

theorem malformed_of_nextUInt8 {c : Cursor} {e : CodecError}
    (h : c.nextUInt8 = .error e) : e.IsMalformed := by
  unfold nextUInt8 at h
  split at h
  · contradiction
  · cases h; trivial

theorem malformed_of_nextUInt16 {c : Cursor} {e : CodecError}
    (h : c.nextUInt16 = .error e) : e.IsMalformed := by
  unfold nextUInt16 at h
  split at h
  · contradiction
  · cases h; trivial

theorem malformed_of_nextUInt32 {c : Cursor} {e : CodecError}
    (h : c.nextUInt32 = .error e) : e.IsMalformed := by
  unfold nextUInt32 at h
  split at h
  · contradiction
  · cases h; trivial

end Cursor

theorem ExtendedField.malformed_of_decode {nibble : UInt8} {offset : Nat}
    {c : Cursor} {e : CodecError} (h : decode nibble offset c = .error e) :
    e.IsMalformed := by
  unfold decode at h
  split at h
  · contradiction
  · split at h
    · cases hc : c.nextUInt8 with
      | error e' =>
          rw [hc] at h
          cases h
          exact Cursor.malformed_of_nextUInt8 hc
      | ok r => rw [hc] at h; contradiction
    · split at h
      · cases hc : c.nextUInt16 with
        | error e' =>
            rw [hc] at h
            cases h
            exact Cursor.malformed_of_nextUInt16 hc
        | ok r => rw [hc] at h; contradiction
      · cases h; trivial

namespace Token

theorem malformed_of_ofBytes {b : Bytes} {e : CodecError}
    (h : ofBytes b = .error e) : e.IsMalformed := by
  unfold ofBytes at h
  split at h
  · contradiction
  · cases h; trivial

theorem ofBytes_eq_ok_iff {b : Bytes} {t : Token} :
    ofBytes b = .ok t ↔ t.bytes = b := by
  rcases t with ⟨bytes, hle⟩
  unfold ofBytes
  constructor
  · intro h
    split at h
    · cases h; rfl
    · contradiction
  · rintro rfl
    rw [dif_pos hle]

end Token

namespace Options

theorem malformed_of_readHead {previous : UInt16} {offset : Nat}
    {head : UInt8} {c : Cursor} {e : CodecError}
    (h : readHead previous offset head c = .error e) : e.IsMalformed := by
  unfold readHead at h
  rcases bind_eq_error_iff.mp h with h | ⟨⟨delta, c₁⟩, -, h⟩
  · exact ExtendedField.malformed_of_decode h
  · rcases bind_eq_error_iff.mp h with h | ⟨⟨length, c₂⟩, -, h⟩
    · exact ExtendedField.malformed_of_decode h
    · dsimp only at h
      split at h
      · contradiction
      · cases h; trivial

theorem malformed_of_next? {previous : UInt16} {c : Cursor} {e : CodecError}
    (h : next? previous c = .error e) : e.IsMalformed := by
  unfold next? at h
  split at h
  · contradiction
  · split at h
    · contradiction
    · split at h
      · next hr => cases h; exact malformed_of_readHead hr
      · split at h
        · next hv => cases h; exact Cursor.malformed_of_next hv
        · contradiction

theorem malformed_of_collectFrom {previous : UInt16} {c : Cursor}
    {e : CodecError} (h : collectFrom previous c = .error e) :
    e.IsMalformed := by
  fun_induction collectFrom previous c with
  | case1 previous c e' hn =>
      cases h
      exact malformed_of_next? hn
  | case2 => contradiction
  | case3 previous c o c₁ hn ih =>
      cases hc : collectFrom o.number c₁ with
      | error e' =>
          rw [hc] at h
          cases h
          exact ih hc
      | ok r => rw [hc] at h; contradiction

theorem malformed_of_read {c : Cursor} {e : CodecError}
    (h : read c = .error e) : e.IsMalformed := by
  unfold read at h
  split at h
  · next hc =>
      cases h
      rw [countFrom_eq] at hc
      cases hl : collectFrom 0 c with
      | error e' =>
          rw [hl] at hc
          cases hc
          exact malformed_of_collectFrom hl
      | ok r => rw [hl] at hc; contradiction
  · split at h
    · next hl => cases h; exact malformed_of_collectFrom hl
    · contradiction

end Options

/-! ## Messages -/

namespace Message

open Grammar

theorem tokenLength_join (a b c d : UInt8) :
    (Header.mk (Bytes.join32 a b c d)).tokenLength = a.toNat % 16 := by
  have hb := b.toNat_lt
  have hc := c.toNat_lt
  have hd := d.toNat_lt
  simp only [Header.tokenLength, Bytes.toNat_join32]
  omega

theorem readPayload_eq_ok_iff {c : Cursor} {payload : Option Bytes} :
    readPayload c = .ok payload ↔ PayloadForm payload c.rest := by
  unfold readPayload
  constructor
  · intro h
    split at h
    · next hc => cases h; rw [hc]; exact .absent
    · next marker rest hc =>
        split at h
        · contradiction
        · next hm =>
            have hm : marker = 0xFF := Decidable.not_not.mp hm
            split at h
            · contradiction
            · next hne =>
                cases h
                rw [hc, hm]
                exact .present fun heq => hne (by rw [heq]; rfl)
  · intro h
    generalize c.rest = text at h
    cases h with
    | absent => rfl
    | @present p hp =>
        have hempty : p.isEmpty = false := by
          cases p with
          | nil => contradiction
          | cons => rfl
        simp [payloadMarker, hempty]

theorem atEnd_of_payloadForm {c : Cursor} {payload : Option Bytes}
    (h : PayloadForm payload c.rest) : Options.AtEnd c := by
  generalize hc : c.rest = text at h
  cases h with
  | absent => exact .inl hc
  | present => exact .inr ⟨_, hc⟩

/-- Behind the options a payload can only be missing, not mistaken. -/
theorem malformed_of_readPayload {c : Cursor} {e : CodecError}
    (hend : Options.AtEnd c) (h : readPayload c = .error e) :
    e.IsMalformed := by
  unfold readPayload at h
  rcases hend with hc | ⟨payload, hc⟩
  · rw [hc] at h
    contradiction
  · rw [hc] at h
    simp only [ne_eq, not_true_eq_false, if_false] at h
    split at h
    · cases h; trivial
    · contradiction

/-- A message is read from exactly the datagrams of its parts, and comes
without a sender. -/
theorem read_eq_ok_iff {data : Bytes} {m : Message} :
    read data = .ok m ↔
      m.sender = none ∧
        DatagramForm m.header.raw m.token.bytes m.options.toList m.payload
          data := by
  unfold read
  constructor
  · intro h
    obtain ⟨⟨raw, c₁⟩, hraw, h⟩ := bind_eq_ok_iff.mp h
    dsimp only at h
    split at h
    · contradiction
    · next hle =>
        obtain ⟨⟨bytes, c₂⟩, hbytes, h⟩ := bind_eq_ok_iff.mp h
        obtain ⟨token, htoken, h⟩ := bind_eq_ok_iff.mp h
        obtain ⟨⟨options, c₃⟩, hoptions, h⟩ := bind_eq_ok_iff.mp h
        obtain ⟨payload, hpayload, h⟩ := bind_eq_ok_iff.mp h
        cases h
        refine ⟨rfl, ?_⟩
        obtain ⟨a, b, x, y, rfl, hc₁⟩ := Cursor.nextUInt32_eq_ok_iff.mp hraw
        rw [tokenLength_join] at hbytes hle
        obtain ⟨hlength, hc₂⟩ := Cursor.next_eq_ok_iff.mp hbytes
        obtain ⟨text, hform, hc₃, -⟩ := Options.read_eq_ok_iff.mp hoptions
        rw [Token.ofBytes_eq_ok_iff.mp htoken]
        have hdata : data = a :: b :: x :: y :: (bytes ++ text ++ c₃.rest) := by
          have hrest := ((hc₁.append hc₂).append hc₃).rest
          simpa [Cursor.ofBytes] using hrest
        rw [hdata]
        exact .intro rfl (Nat.le_of_not_lt hle) hlength hform
          (readPayload_eq_ok_iff.mp hpayload)
  · rcases m with ⟨⟨raw⟩, token, options, payload, sender⟩
    rintro ⟨hsender, hform⟩
    dsimp only at hsender hform
    subst hsender
    cases hform with
    | @intro a b x y optionBytes payloadBytes hheader hnibble hlength hoptions
        hpayload =>
        subst hheader
        let rest := token.bytes ++ optionBytes ++ payloadBytes
        let c₁ : Cursor := ⟨4, rest⟩
        let c₂ : Cursor := ⟨4 + token.bytes.length, optionBytes ++ payloadBytes⟩
        let c₃ : Cursor :=
          ⟨4 + token.bytes.length + optionBytes.length, payloadBytes⟩
        have hraw : (Cursor.ofBytes (a :: b :: x :: y :: rest)).nextUInt32 =
            .ok (Bytes.join32 a b x y, c₁) := rfl
        have hbytes : c₁.next (a.toNat % 16) = .ok (token.bytes, c₂) :=
          Cursor.next_eq_ok_iff.mpr
            ⟨hlength, ⟨List.append_assoc .., rfl⟩⟩
        have hread : Options.read c₂ = .ok (options, c₃) :=
          Options.read_eq_ok_iff.mpr
            ⟨optionBytes, hoptions, ⟨rfl, rfl⟩, atEnd_of_payloadForm hpayload⟩
        have hshort : ¬maxTokenLength < a.toNat % 16 := Nat.not_lt.mpr hnibble
        refine bind_eq_ok_iff.mpr ⟨_, hraw, ?_⟩
        dsimp only
        rw [tokenLength_join, if_neg hshort]
        refine bind_eq_ok_iff.mpr ⟨_, hbytes, ?_⟩
        refine bind_eq_ok_iff.mpr ⟨_, Token.ofBytes_eq_ok_iff.mpr rfl, ?_⟩
        refine bind_eq_ok_iff.mpr ⟨_, hread, ?_⟩
        exact bind_eq_ok_iff.mpr
          ⟨_, readPayload_eq_ok_iff.mpr hpayload, rfl⟩

/-- Parts that a datagram has the form of are those of a message. -/
theorem read_of_datagramForm {header : UInt32} {token : Bytes}
    {options : List MessageOption} {payload : Option Bytes} {data : Bytes}
    (h : DatagramForm header token options payload data) :
    ∃ m, read data = .ok m ∧ m.header.raw = header ∧ m.token.bytes = token ∧
      m.options.toList = options ∧ m.payload = payload := by
  have hparts : token.length ≤ maxTokenLength ∧
      options.Pairwise fun a b => a.number ≤ b.number := by
    cases h with
    | intro hheader hnibble hlength hoptions hpayload =>
        exact ⟨Nat.le_trans (Nat.le_of_eq hlength) hnibble, hoptions.ascending⟩
  let m : Message :=
    { header := ⟨header⟩
      token := ⟨token, hparts.1⟩
      options := ⟨options, hparts.2⟩
      payload := payload
      sender := none }
  exact ⟨m, read_eq_ok_iff.mpr ⟨rfl, h⟩, rfl, rfl, rfl, rfl⟩

theorem malformed_of_read {data : Bytes} {e : CodecError}
    (h : read data = .error e) : e.IsMalformed := by
  unfold read at h
  rcases bind_eq_error_iff.mp h with h | ⟨⟨raw, c₁⟩, -, h⟩
  · exact Cursor.malformed_of_nextUInt32 h
  · dsimp only at h
    split at h
    · cases h; trivial
    · rcases bind_eq_error_iff.mp h with h | ⟨⟨bytes, c₂⟩, -, h⟩
      · exact Cursor.malformed_of_next h
      · rcases bind_eq_error_iff.mp h with h | ⟨token, -, h⟩
        · exact Token.malformed_of_ofBytes h
        · rcases bind_eq_error_iff.mp h with h | ⟨⟨options, c₃⟩, hread, h⟩
          · exact Options.malformed_of_read h
          · obtain ⟨_, -, -, hend⟩ := Options.read_eq_ok_iff.mp hread
            rcases bind_eq_error_iff.mp h with h | ⟨payload, -, h⟩
            · exact malformed_of_readPayload hend h
            · contradiction

/-- A byte string is accepted exactly if it has the form of the grammar,
the message then has the parts that the grammar names, and what is refused
is refused as malformed. -/
theorem read_accepts_grammar (data : Bytes) :
    ((∃ m, read data = .ok m) ↔
      ∃ header token options payload,
        DatagramForm header token options payload data) ∧
    (∀ m header token options payload, read data = .ok m →
      DatagramForm header token options payload data →
        m.header.raw = header ∧ m.token.bytes = token ∧
          m.options.toList = options ∧ m.payload = payload) ∧
    ∀ e, read data = .error e → e.IsMalformed := by
  refine ⟨⟨?_, ?_⟩, ?_, fun e => malformed_of_read⟩
  · rintro ⟨m, hm⟩
    exact ⟨_, _, _, _, (read_eq_ok_iff.mp hm).2⟩
  · rintro ⟨header, token, options, payload, hform⟩
    obtain ⟨m, hm, -⟩ := read_of_datagramForm hform
    exact ⟨m, hm⟩
  · intro m header token options payload hm hform
    obtain ⟨m', hm', hparts⟩ := read_of_datagramForm hform
    rw [hm] at hm'
    cases hm'
    exact hparts

end Message

end Coap
