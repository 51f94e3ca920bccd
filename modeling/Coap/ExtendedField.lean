import Coap.Bytes.Cursor

/-!
# Nibbles with extension bytes

The head of an option has room for four bits of its number's delta and
four bits of its value's length. A number that does not fit continues in
extension bytes behind the head:

    below 13            the nibble is the number
    13 to 268           nibble 13, one byte holding the number less 13
    269 to 65804        nibble 14, two bytes holding the number less 269

Nibble 15 is reserved, since a head of two such nibbles would be the
payload marker.

## Main results

* `value_of_encode` — an encoded number is the one that was given.
* `encode_eq_error` — exactly the numbers from 65805 on have no encoding.
* `decode_encode` — reading back the extension of an encoded number gives
  the same field and leaves what follows unread.
-/

namespace Coap

/-- A number in an option head: its nibble and extension. -/
inductive ExtendedField where
  /-- The nibble is the number. -/
  | inline (nibble : UInt8)
  /-- Nibble 13 and one extension byte. -/
  | oneByte (extension : UInt8)
  /-- Nibble 14 and two extension bytes. -/
  | twoBytes (extension : UInt16)
  deriving DecidableEq, Repr

namespace ExtendedField

/-! ## The parts of a field -/

/-- The four bits that go into the head. -/
def nibble : ExtendedField → UInt8
  | inline n => n
  | oneByte _ => 13
  | twoBytes _ => 14

/-- The bytes that go behind the head. -/
def extension : ExtendedField → Bytes
  | inline _ => []
  | oneByte e => [e]
  | twoBytes e => Bytes.ofUInt16 e

/-- The number of extension bytes. -/
def extensionLength : ExtendedField → Nat
  | inline _ => 0
  | oneByte _ => 1
  | twoBytes _ => 2

/-- The number that a field stands for. -/
def value : ExtendedField → Nat
  | inline n => n.toNat
  | oneByte e => e.toNat + 13
  | twoBytes e => e.toNat + 269

@[simp] theorem length_extension (f : ExtendedField) :
    f.extension.length = f.extensionLength := by
  cases f <;> rfl

/-! ## Writing -/

/-- The least number without an encoding. -/
def limit : Nat := 65805

/-- The field for a number, in the shortest of the three forms. -/
def encode (number : UInt32) : Except CodecError ExtendedField :=
  if number.toNat < 13 then .ok (inline (UInt8.ofNat number.toNat))
  else if number.toNat < 269 then
    .ok (oneByte (UInt8.ofNat (number.toNat - 13)))
  else if number.toNat < limit then
    .ok (twoBytes (UInt16.ofNat (number.toNat - 269)))
  else .error (.extendedIntOverflow number)

/-- The number of bytes that a number takes besides its nibble. -/
def encodedLength (number : UInt32) : Except CodecError Nat :=
  (encode number).map extensionLength

theorem encode_eq_error {number : UInt32} {e : CodecError} :
    encode number = .error e ↔
      limit ≤ number.toNat ∧ e = .extendedIntOverflow number := by
  unfold encode limit
  constructor
  · intro h
    split at h
    · contradiction
    · split at h
      · contradiction
      · split at h
        · contradiction
        · cases h; exact ⟨by omega, rfl⟩
  · rintro ⟨h, rfl⟩
    rw [if_neg (by omega), if_neg (by omega), if_neg (by omega)]

/-- An encoded number is the one that was given. -/
theorem value_of_encode {number : UInt32} {f : ExtendedField}
    (h : encode number = .ok f) : f.value = number.toNat := by
  unfold encode limit at h
  split at h
  · cases h; simp only [value, UInt8.toNat_ofNat']; omega
  · split at h
    · cases h; simp only [value, UInt8.toNat_ofNat']; omega
    · split at h
      · cases h; simp only [value, UInt16.toNat_ofNat']; omega
      · contradiction

/-! ## Reading -/

/-- Read the extension that goes with a nibble. Only the error for a
reserved nibble mentions the offset of the head. -/
def decode (nibble : UInt8) (headOffset : Nat) (c : Cursor) :
    Except CodecError (ExtendedField × Cursor) :=
  if nibble < 13 then .ok (inline nibble, c)
  else if nibble = 13 then
    c.nextUInt8.map fun (e, c) => (oneByte e, c)
  else if nibble = 14 then
    c.nextUInt16.map fun (e, c) => (twoBytes e, c)
  else .error (.reservedNibble headOffset)

/-- The extension of an encoded number is read back. -/
theorem decode_encode {number : UInt32} {f : ExtendedField}
    (h : encode number = .ok f) (headOffset p : Nat) (rest : Bytes) :
    decode f.nibble headOffset ⟨p, f.extension ++ rest⟩ =
      .ok (f, ⟨p + f.extensionLength, rest⟩) := by
  unfold encode limit at h
  split at h
  · next hn =>
    cases h
    have hlt : UInt8.ofNat number.toNat < 13 := by
      simp only [UInt8.lt_iff_toNat_lt, UInt8.toNat_ofNat', UInt8.reduceToNat]
      omega
    exact if_pos hlt
  · split at h
    · cases h
      simp [decode, nibble, extension, extensionLength, Cursor.nextUInt8,
        Except.map]
    · split at h
      · cases h
        simp only [decode, nibble, extension, extensionLength, Bytes.ofUInt16,
          Cursor.nextUInt16, List.cons_append, List.nil_append,
          Bytes.join16_split, Except.map]
        rfl
      · contradiction

/-- Reading an extension never reads backwards. -/
theorem length_decode {n : UInt8} {headOffset : Nat} {c c' : Cursor}
    {f : ExtendedField} (h : decode n headOffset c = .ok (f, c')) :
    c'.rest.length ≤ c.rest.length := by
  unfold decode at h
  split at h
  · cases h; exact Nat.le_refl _
  · split at h
    · cases hc : c.nextUInt8 with
      | error e => simp [hc, Except.map] at h
      | ok r =>
        simp only [hc, Except.map, Except.ok.injEq, Prod.mk.injEq] at h
        have := Cursor.length_nextUInt8 hc
        rw [← h.2]; omega
    · split at h
      · cases hc : c.nextUInt16 with
        | error e => simp [hc, Except.map] at h
        | ok r =>
          simp only [hc, Except.map, Except.ok.injEq, Prod.mk.injEq] at h
          have := Cursor.length_nextUInt16 hc
          rw [← h.2]; omega
      · contradiction

end ExtendedField

end Coap
