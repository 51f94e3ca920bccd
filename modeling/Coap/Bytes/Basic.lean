/-!
# Byte strings

Datagrams, tokens, option values and payloads are byte strings. Integers
travel most significant byte first, so `Bytes.toNat` reads a byte string
as a number in base 256 with the first digit leading.

Words are taken apart and put together by division and multiplication
rather than by shifts: every law below is then linear arithmetic.

## Main results

* `join16_split`, `ofUInt16_join` — splitting a 16-bit word into its bytes
  and joining bytes to a word undo each other; `join32_split` and
  `ofUInt32_join` say the same of 32-bit words.
* `toNat_ofUInt16`, `toNat_ofUInt32` — the bytes of a word denote it.
-/

namespace Coap

/-- A byte string. -/
abbrev Bytes := List UInt8

namespace Bytes

/-! ## Words as bytes -/

/-- The two bytes of a 16-bit word, the upper one first. -/
def ofUInt16 (w : UInt16) : Bytes :=
  [UInt8.ofNat (w.toNat / 256), UInt8.ofNat w.toNat]

/-- The four bytes of a 32-bit word, the uppermost one first. -/
def ofUInt32 (w : UInt32) : Bytes :=
  [UInt8.ofNat (w.toNat / 16777216), UInt8.ofNat (w.toNat / 65536),
    UInt8.ofNat (w.toNat / 256), UInt8.ofNat w.toNat]

/-- The word with upper byte `a` and lower byte `b`. -/
def join16 (a b : UInt8) : UInt16 := UInt16.ofNat (256 * a.toNat + b.toNat)

/-- The word with the bytes `a`, `b`, `c`, `d` from the top down. -/
def join32 (a b c d : UInt8) : UInt32 :=
  UInt32.ofNat
    (16777216 * a.toNat + 65536 * b.toNat + 256 * c.toNat + d.toNat)

@[simp] theorem length_ofUInt16 (w : UInt16) : (ofUInt16 w).length = 2 := rfl

@[simp] theorem length_ofUInt32 (w : UInt32) : (ofUInt32 w).length = 4 := rfl

theorem toNat_join16 (a b : UInt8) :
    (join16 a b).toNat = 256 * a.toNat + b.toNat := by
  have ha := a.toNat_lt
  have hb := b.toNat_lt
  simp only [join16, UInt16.toNat_ofNat']
  omega

theorem toNat_join32 (a b c d : UInt8) :
    (join32 a b c d).toNat =
      16777216 * a.toNat + 65536 * b.toNat + 256 * c.toNat + d.toNat := by
  have ha := a.toNat_lt
  have hb := b.toNat_lt
  have hc := c.toNat_lt
  have hd := d.toNat_lt
  simp only [join32, UInt32.toNat_ofNat']
  omega

/-- Splitting a 16-bit word and joining its bytes gives it back. -/
theorem join16_split (w : UInt16) :
    join16 (UInt8.ofNat (w.toNat / 256)) (UInt8.ofNat w.toNat) = w := by
  apply UInt16.toNat_inj.mp
  have hw := w.toNat_lt
  simp only [toNat_join16, UInt8.toNat_ofNat']
  omega

/-- Joining two bytes and splitting the word gives them back. -/
theorem ofUInt16_join (a b : UInt8) : ofUInt16 (join16 a b) = [a, b] := by
  have ha := a.toNat_lt
  have hb := b.toNat_lt
  simp only [ofUInt16, toNat_join16, List.cons.injEq, and_true,
    ← UInt8.toNat_inj, UInt8.toNat_ofNat']
  omega

/-- Splitting a 32-bit word and joining its bytes gives it back. -/
theorem join32_split (w : UInt32) :
    join32 (UInt8.ofNat (w.toNat / 16777216)) (UInt8.ofNat (w.toNat / 65536))
      (UInt8.ofNat (w.toNat / 256)) (UInt8.ofNat w.toNat) = w := by
  apply UInt32.toNat_inj.mp
  have hw := w.toNat_lt
  simp only [toNat_join32, UInt8.toNat_ofNat']
  omega

/-- Joining four bytes and splitting the word gives them back. -/
theorem ofUInt32_join (a b c d : UInt8) :
    ofUInt32 (join32 a b c d) = [a, b, c, d] := by
  have ha := a.toNat_lt
  have hb := b.toNat_lt
  have hc := c.toNat_lt
  have hd := d.toNat_lt
  simp only [ofUInt32, toNat_join32, List.cons.injEq, and_true,
    ← UInt8.toNat_inj, UInt8.toNat_ofNat']
  omega

/-! ## The number a byte string denotes -/

/-- The number in base 256 whose digits are the bytes, first digit leading. -/
def toNat (b : Bytes) : Nat := b.foldl (fun n x => 256 * n + x.toNat) 0

@[simp] theorem toNat_nil : toNat [] = 0 := rfl

/-- A byte at the end is the last digit. -/
theorem toNat_append_singleton (b : Bytes) (x : UInt8) :
    toNat (b ++ [x]) = 256 * toNat b + x.toNat := by
  simp [toNat]

@[simp] theorem toNat_ofUInt16 (w : UInt16) : toNat (ofUInt16 w) = w.toNat := by
  have hw := w.toNat_lt
  simp only [toNat, ofUInt16, List.foldl, UInt8.toNat_ofNat']
  omega

@[simp] theorem toNat_ofUInt32 (w : UInt32) : toNat (ofUInt32 w) = w.toNat := by
  have hw := w.toNat_lt
  simp only [toNat, ofUInt32, List.foldl, UInt8.toNat_ofNat']
  omega

/-! ## Text -/

/-- The UTF-8 bytes of a text. -/
def ofText (s : String) : Bytes := s.toUTF8.data.toList

/-- The text with the given UTF-8 bytes, if they are valid UTF-8. -/
def toText? (b : Bytes) : Option String := String.fromUTF8? ⟨b.toArray⟩

/-- Bytes that are read as a text are the bytes of that text. -/
theorem ofText_of_toText? {b : Bytes} {s : String} (h : toText? b = some s) :
    ofText s = b := by
  unfold toText? String.fromUTF8? at h
  split at h
  · simp only [Option.some.injEq] at h
    subst h
    rfl
  · contradiction

/-- The two lower-case hexadecimal digits of a byte. -/
def hexDigits (x : UInt8) : List Char :=
  [Nat.digitChar (x.toNat / 16), Nat.digitChar (x.toNat % 16)]

/-- A byte string in lower-case hexadecimal, two digits for each byte. -/
def hex (b : Bytes) : String := String.ofList (b.flatMap hexDigits)

/-- A byte string as a bracketed list of decimal numbers. -/
def listing (b : Bytes) : String :=
  "[" ++ ", ".intercalate (b.map fun x => x.toNat.repr) ++ "]"

end Bytes

end Coap
