import Mathlib.Algebra.Group.Nat.Defs
import Mathlib.Logic.Function.Basic
import Coap.Header

/-!
# The fields of a header word

The five fields lie side by side in the word and fill it. So a word is told by its
fields and any fields are those of some word, and a version or a token length that is
too wide for its place loses its upper bits without touching its neighbours.

On the wire's side the word is made by shifts and masks: each field is masked, shifted
to its place and joined by `or`, and is shifted back and cut again when it is read. No
two fields share a bit, so `or` adds, one field at a time from the top: what has been
joined so far is a multiple of a power of two that the next field is below
(`or_eq_add_of_dvd`). That is how the word by shifts is the word by sums.

## Main results

* `header_fields` — a word is made again from the fields that are read from it.
* `fields_header` — any fields are read back, cut to their places.
* `raw_header`, `fields_eq_parted` — the same by shifts and masks.
* `packing_isolates_fields` — all of it, and that no word is left out.
-/

namespace Coap.Header

/-! ## Fields -/

/-- The fields of a header, each in the type in which it is given. -/
structure Fields where
  version : UInt8
  type : MessageType
  tokenLength : UInt8
  code : Code
  id : UInt16

namespace Fields

/-- Version and token length are not too wide for their places. -/
structure Fit (f : Fields) : Prop where
  version_lt : f.version.toNat < 4
  tokenLength_lt : f.tokenLength.toNat < 16

/-- The header of given fields. -/
def header (f : Fields) : Header :=
  ofFields f.version f.type f.tokenLength f.code f.id

/-- What is left of fields in their places. -/
def cut (f : Fields) : Fields where
  version := UInt8.ofNat (f.version.toNat % 4)
  type := f.type
  tokenLength := UInt8.ofNat (f.tokenLength.toNat % 16)
  code := f.code
  id := f.id

theorem cut_of_fit {f : Fields} (h : f.Fit) : f.cut = f := by
  have hversion : UInt8.ofNat (f.version.toNat % 4) = f.version := by
    rw [Nat.mod_eq_of_lt h.version_lt, UInt8.ofNat_toNat]
  have htokenLength : UInt8.ofNat (f.tokenLength.toNat % 16) = f.tokenLength := by
    rw [Nat.mod_eq_of_lt h.tokenLength_lt, UInt8.ofNat_toNat]
  rw [cut, hversion, htokenLength]

end Fields

/-- The fields that are read from a header. -/
def fields (h : Header) : Fields where
  version := h.version
  type := h.type
  tokenLength := UInt8.ofNat h.tokenLength
  code := h.code
  id := h.id

theorem fit_fields (h : Header) : h.fields.Fit := by
  have hlt := h.raw.toNat_lt
  constructor
  · simp only [fields, version, UInt8.toNat_ofNat']
    omega
  · simp only [fields, tokenLength, UInt8.toNat_ofNat']
    omega

/-! ## From fields to the word and back -/

/-- Any fields are read back, cut to their places. -/
theorem fields_header (f : Fields) : f.header.fields = f.cut := by
  simp only [fields, Fields.header, Fields.cut, version_ofFields, type_ofFields,
    tokenLength_ofFields, code_ofFields, id_ofFields]

theorem number_type (h : Header) : h.type.number = h.raw.toNat / 268435456 % 4 := by
  have hlt : h.raw.toNat / 268435456 % 4 < 4 := Nat.mod_lt _ (by decide)
  have hall : ∀ n < 4, (MessageType.ofBits n).number = n := by decide
  rw [type, ← hall _ hlt]
  simp only [MessageType.ofBits, Nat.mod_mod]

/-- A word is made again from the fields that are read from it. -/
theorem header_fields (h : Header) : h.fields.header = h := by
  obtain ⟨raw⟩ := h
  have hlt := raw.toNat_lt
  have hraw : (Fields.header (fields ⟨raw⟩)).raw = raw := by
    apply UInt32.toNat_inj.mp
    simp only [Fields.header, toNat_ofFields, fields, number_type, version, tokenLength,
      code, id, UInt8.toNat_ofNat', UInt16.toNat_ofNat']
    omega
  exact congrArg Header.mk hraw

/-! ## Shifts and masks -/

/-- A number below a power of two is joined to a multiple of it by addition. -/
theorem or_eq_add_of_dvd {k a b : Nat} (ha : 2 ^ k ∣ a) (hb : b < 2 ^ k) :
    a ||| b = a + b := by
  obtain ⟨q, rfl⟩ := ha
  exact (Nat.two_pow_add_eq_or_of_lt hb q).symm

/-- Fields that are joined from the top down at their places add up there. -/
theorem or_places {version type tokenLength code id : Nat} (ht : type < 4)
    (hl : tokenLength < 16) (hc : code < 256) (hi : id < 65536) :
    version * 2 ^ 30 ||| type * 2 ^ 28 ||| tokenLength * 2 ^ 24 ||| code * 2 ^ 16 ||| id =
      version * 2 ^ 30 + type * 2 ^ 28 + tokenLength * 2 ^ 24 + code * 2 ^ 16 + id := by
  rw [or_eq_add_of_dvd (k := 30) (a := version * 2 ^ 30) (by omega) (by omega),
    or_eq_add_of_dvd (k := 28) (b := tokenLength * 2 ^ 24) (by omega) (by omega),
    or_eq_add_of_dvd (k := 24) (b := code * 2 ^ 16) (by omega) (by omega),
    or_eq_add_of_dvd (k := 16) (b := id) (by omega) (by omega)]

/-- A shift that no bit falls out of multiplies. -/
theorem toNat_shiftLeft_of_lt {x : UInt32} {n : Nat} (hn : n < 32)
    (hx : x.toNat * 2 ^ n < 2 ^ 32) : (x <<< UInt32.ofNat n).toNat = x.toNat * 2 ^ n := by
  have hcount : (UInt32.ofNat n).toNat % 32 = n := by
    rw [UInt32.toNat_ofNat']
    omega
  rw [UInt32.toNat_shiftLeft, hcount, Nat.shiftLeft_eq, Nat.mod_eq_of_lt hx]

theorem toNat_shiftRight_of_lt {x : UInt32} {n : Nat} (hn : n < 32) :
    (x >>> UInt32.ofNat n).toNat = x.toNat / 2 ^ n := by
  have hcount : (UInt32.ofNat n).toNat % 32 = n := by
    rw [UInt32.toNat_ofNat']
    omega
  rw [UInt32.toNat_shiftRight, hcount, Nat.shiftRight_eq_div_pow]

/-- A mask of `k` ones leaves of a byte of the word the lowest `k` bits. -/
theorem toNat_shiftRight_and {x : UInt32} {mask : UInt8} {n : Nat} (k : Nat) (hn : n < 32)
    (hmask : mask.toNat = 2 ^ k - 1) :
    ((x >>> UInt32.ofNat n).toUInt8 &&& mask).toNat = x.toNat / 2 ^ n % 2 ^ 8 % 2 ^ k := by
  rw [UInt8.toNat_and, UInt32.toNat_toUInt8, toNat_shiftRight_of_lt hn, hmask,
    Nat.and_two_pow_sub_one_eq_mod]

/-- The word of given fields: each is cut, shifted to its place and joined to those
above it. -/
def Fields.joined (f : Fields) : UInt32 :=
  ((f.version.toUInt32 &&& 0b11) <<< 30) |||
    (UInt32.ofNat f.type.number <<< 28) |||
    ((f.tokenLength.toUInt32 &&& 0x0f) <<< 24) |||
    (f.code.raw.toUInt32 <<< 16) |||
    f.id.toUInt32

/-- The fields of a word: each is shifted down and cut to its width. -/
def parted (raw : UInt32) : Fields where
  version := (raw >>> 30).toUInt8 &&& 0b11
  type := .ofBits ((raw >>> 28).toUInt8 &&& 0b11).toNat
  tokenLength := (raw >>> 24).toUInt8 &&& 0x0f
  code := ⟨(raw >>> 16).toUInt8⟩
  id := raw.toUInt16

/-- Joining fields is adding them up at their places. -/
theorem raw_header (f : Fields) : f.header.raw = f.joined := by
  have ht := f.type.number_lt
  have hc := f.code.raw.toNat_lt
  have hi := f.id.toNat_lt
  have hcutVersion : (f.version.toUInt32 &&& 0b11).toNat = f.version.toNat % 4 := by
    rw [UInt32.toNat_and, UInt8.toNat_toUInt32]
    exact Nat.and_two_pow_sub_one_eq_mod _ 2
  have hcutLength : (f.tokenLength.toUInt32 &&& 0x0f).toNat = f.tokenLength.toNat % 16 := by
    rw [UInt32.toNat_and, UInt8.toNat_toUInt32]
    exact Nat.and_two_pow_sub_one_eq_mod _ 4
  have hnumber : (UInt32.ofNat f.type.number).toNat = f.type.number := by
    rw [UInt32.toNat_ofNat']
    omega
  have hraw : f.code.raw.toUInt32.toNat = f.code.raw.toNat := UInt8.toNat_toUInt32 _
  -- cut to its width, no field loses a bit on the way to its place
  have hversion : ((f.version.toUInt32 &&& 0b11) <<< 30).toNat = _ :=
    toNat_shiftLeft_of_lt (n := 30) (by decide) (by omega)
  have htype : (UInt32.ofNat f.type.number <<< 28).toNat = _ :=
    toNat_shiftLeft_of_lt (n := 28) (by decide) (by omega)
  have htokenLength : ((f.tokenLength.toUInt32 &&& 0x0f) <<< 24).toNat = _ :=
    toNat_shiftLeft_of_lt (n := 24) (by decide) (by omega)
  have hcode : (f.code.raw.toUInt32 <<< 16).toNat = _ :=
    toNat_shiftLeft_of_lt (n := 16) (by decide) (by omega)
  apply UInt32.toNat_inj.mp
  rw [Fields.header, toNat_ofFields, Fields.joined]
  simp only [UInt32.toNat_or, hversion, htype, htokenLength, hcode, hcutVersion, hcutLength,
    hnumber, hraw, UInt16.toNat_toUInt32]
  exact (or_places ht (Nat.mod_lt _ (by decide)) hc hi).symm

/-- Shifting the fields of a word down and cutting them is reading them. -/
theorem fields_eq_parted (h : Header) : h.fields = parted h.raw := by
  have hlt := h.raw.toNat_lt
  have hversion : h.version = (h.raw >>> 30).toUInt8 &&& 0b11 := by
    have hbits : ((h.raw >>> 30).toUInt8 &&& 0b11).toNat = _ :=
      toNat_shiftRight_and (n := 30) 2 (by decide) rfl
    apply UInt8.toNat_inj.mp
    rw [version, UInt8.toNat_ofNat', hbits]
    omega
  have htype : h.type = .ofBits ((h.raw >>> 28).toUInt8 &&& 0b11).toNat := by
    have hbits : ((h.raw >>> 28).toUInt8 &&& 0b11).toNat = _ :=
      toNat_shiftRight_and (n := 28) 2 (by decide) rfl
    have hnumber : ((h.raw >>> 28).toUInt8 &&& 0b11).toNat % 4 =
        h.raw.toNat / 268435456 % 4 := by omega
    rw [type, MessageType.ofBits, MessageType.ofBits, hnumber]
  have htokenLength : UInt8.ofNat h.tokenLength = (h.raw >>> 24).toUInt8 &&& 0x0f := by
    have hbits : ((h.raw >>> 24).toUInt8 &&& 0x0f).toNat = _ :=
      toNat_shiftRight_and (n := 24) 4 (by decide) rfl
    apply UInt8.toNat_inj.mp
    rw [tokenLength, UInt8.toNat_ofNat', hbits]
    omega
  have hcode : UInt8.ofNat (h.raw.toNat / 65536) = (h.raw >>> 16).toUInt8 := by
    have hshift : (h.raw >>> 16).toNat = h.raw.toNat / 65536 :=
      toNat_shiftRight_of_lt (n := 16) (by decide)
    apply UInt8.toNat_inj.mp
    rw [UInt8.toNat_ofNat', UInt32.toNat_toUInt8, hshift]
  have hid : h.id = h.raw.toUInt16 := by
    apply UInt16.toNat_inj.mp
    rw [id, UInt16.toNat_ofNat', UInt32.toNat_toUInt16]
  rw [fields, parted, hversion, htype, htokenLength, code, hcode, hid]

/-! ## The word as a whole -/

/-- The fields that fit are just those of the words. -/
theorem bijective_header :
    Function.Bijective fun f : {f : Fields // f.Fit} => f.1.header := by
  constructor
  · rintro ⟨f, hf⟩ ⟨g, hg⟩ h
    have hfields := congrArg fields h
    simp only [fields_header, Fields.cut_of_fit hf, Fields.cut_of_fit hg] at hfields
    exact Subtype.ext hfields
  · exact fun h => ⟨⟨h.fields, fit_fields h⟩, header_fields h⟩

/-- The word of a header is told by its fields, and no field by another one. Every
word is made again from the fields that are read from it. Whatever fields a word is
made of, they are read from it, version and token length cut to the width of their
places, so that one that is too wide changes no other field. Fields that fit and words
go together one by one, and it makes no difference whether a word is put together and
taken apart by shifts and masks. -/
theorem packing_isolates_fields :
    (∀ h : Header,
      ofFields h.version h.type (UInt8.ofNat h.tokenLength) h.code h.id = h) ∧
    (∀ (version : UInt8) (type : MessageType) (tokenLength : UInt8) (code : Code)
      (id : UInt16),
      (ofFields version type tokenLength code id).version.toNat = version.toNat % 4 ∧
      (ofFields version type tokenLength code id).type = type ∧
      (ofFields version type tokenLength code id).tokenLength =
        tokenLength.toNat % 16 ∧
      (ofFields version type tokenLength code id).code = code ∧
      (ofFields version type tokenLength code id).id = id) ∧
    (Function.Bijective fun f : {f : Fields // f.Fit} => f.1.header) ∧
    (∀ f : Fields, f.header.raw = f.joined) ∧
    ∀ h : Header, h.fields = parted h.raw := by
  refine ⟨header_fields, ?_, bijective_header, raw_header, fields_eq_parted⟩
  intro version type tokenLength code id
  refine ⟨?_, type_ofFields .., tokenLength_ofFields .., code_ofFields .., id_ofFields ..⟩
  rw [version_ofFields, UInt8.toNat_ofNat']
  omega

end Coap.Header
