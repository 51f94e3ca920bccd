import Mathlib.Data.Nat.Digits.Defs
import Mathlib.Order.Bounds.Defs
import Coap.Option.List

/-!
# Values of options are read back

A text is the value of an option byte by byte, and an integer in the least of one,
two and four bytes that hold it. Reading an integer does not ask how many bytes
there are, as long as they fit into a word: the value is what the bytes denote.

The bytes are shifted into a word one after the other. As long as there are not more
than four of them, what the word denotes stays below the power of 256 that the bytes
so far leave room for, so no step pushes a bit out at the top.

## Main results

* `MessageOption.toText?_ofText` — a text is read back.
* `MessageOption.toUInt32?_eq` — up to four bytes are read as the number that they
  denote.
* `MessageOption.shiftIn_undone` — shifting in a byte can be undone.
* `MessageOption.toUInt32?_ofUInt32` — an integer is read back.
* `MessageOption.integers_kept_in_shortest_form` — what integers are read from, and
  that none is written wider than it has to be.
-/

namespace Coap

theorem Bytes.toText?_ofText (s : String) : toText? (ofText s) = some s := by
  have hvalid := s.isValidUTF8
  simp [toText?, ofText, String.fromUTF8?, String.fromUTF8, String.toUTF8, hvalid]

/-- The number that bytes denote has them as its digits. -/
theorem Bytes.toNat_eq_ofDigits (b : Bytes) :
    toNat b = Nat.ofDigits 256 (b.reverse.map UInt8.toNat) := by
  rw [toNat, List.foldl_eq_foldr_reverse, Nat.ofDigits_eq_foldr, List.foldr_map]
  simp only [Nat.cast_id, Nat.add_comm]

theorem Bytes.toNat_lt (b : Bytes) : toNat b < 256 ^ b.length := by
  have hdigits : ∀ digit ∈ b.reverse.map UInt8.toNat, digit < 256 := by
    intro digit hdigit
    obtain ⟨x, -, rfl⟩ := List.mem_map.mp hdigit
    exact x.toNat_lt
  have hlt := Nat.ofDigits_lt_base_pow_length (by decide) hdigits
  rwa [← toNat_eq_ofDigits, List.length_map, List.length_reverse] at hlt

namespace MessageOption

/-- A text is read back from an option. -/
theorem toText?_ofText (number : UInt16) (s : String) :
    (ofText number s).toText? = some s := Bytes.toText?_ofText s

/-! ## Reading integers -/

/-- The word after a byte has been shifted in behind the bits that it has. -/
def shiftIn (n : UInt32) (x : UInt8) : UInt32 := (n <<< 8) ||| x.toUInt32

/-- The word that bytes make when they are shifted in one after the other. -/
def shiftedIn (b : Bytes) : UInt32 := b.foldl shiftIn 0

theorem shiftedIn_append_singleton (b : Bytes) (x : UInt8) :
    shiftedIn (b ++ [x]) = shiftIn (shiftedIn b) x := by
  simp [shiftedIn]

theorem toUInt32?_eq_ite (o : MessageOption) :
    o.toUInt32? = if o.value.length ≤ 4 then some (shiftedIn o.value) else none := rfl

/-- A byte that is shifted in is the last digit. -/
theorem shiftIn_ofNat (n : Nat) (x : UInt8) :
    shiftIn (UInt32.ofNat n) x = UInt32.ofNat (256 * n + x.toNat) := by
  apply UInt32.toNat_inj.mp
  have hx := x.toNat_lt
  have hcut : n % 2 ^ 32 * 256 % 2 ^ 32 = (n % 2 ^ 24) * 2 ^ 8 := by omega
  have hor : ((n % 2 ^ 24) <<< 8) ||| x.toNat = (n % 2 ^ 24) <<< 8 + x.toNat :=
    (Nat.shiftLeft_add_eq_or_of_lt hx _).symm
  simp only [shiftIn, UInt32.toNat_or, UInt32.toNat_shiftLeft, UInt32.toNat_ofNat',
    UInt8.toNat_toUInt32]
  rw [show (8 : UInt32).toNat % 32 = 8 by decide, Nat.shiftLeft_eq,
    show (2 : Nat) ^ 8 = 256 by decide, hcut, ← Nat.shiftLeft_eq, hor, Nat.shiftLeft_eq]
  omega

/-- In a word, bytes make the lower bits of the number that they denote. -/
theorem shiftedIn_eq (b : Bytes) : shiftedIn b = UInt32.ofNat (Bytes.toNat b) :=
  List.foldl_hom UInt32.ofNat shiftIn_ofNat

/-- Up to four bytes make the number that they denote. -/
theorem toNat_shiftedIn {b : Bytes} (h : b.length ≤ 4) :
    (shiftedIn b).toNat = Bytes.toNat b := by
  rw [shiftedIn_eq]
  refine UInt32.toNat_ofNat_of_lt' (Nat.lt_of_lt_of_le (Bytes.toNat_lt b) ?_)
  exact Nat.pow_le_pow_right (by decide) h

/-- Up to four bytes are read as the number that they denote. -/
theorem toUInt32?_eq {o : MessageOption} (h : o.value.length ≤ 4) :
    o.toUInt32? = some (UInt32.ofNat (Bytes.toNat o.value)) := by
  rw [toUInt32?_eq_ite, if_pos h, shiftedIn_eq]

/-- As long as the upper byte is free, shifting in a byte loses nothing: both the word
before and the byte are there. -/
theorem shiftIn_undone {n : UInt32} (h : n.toNat < 256 ^ 3) (x : UInt8) :
    shiftIn n x >>> 8 = n ∧ (shiftIn n x).toUInt8 = x := by
  have hx := x.toNat_lt
  have hvalue : (shiftIn n x).toNat = 256 * n.toNat + x.toNat := by
    have hlt : 256 * n.toNat + x.toNat < 2 ^ 32 := by omega
    rw [← UInt32.ofNat_toNat (x := n), shiftIn_ofNat, UInt32.ofNat_toNat]
    exact UInt32.toNat_ofNat_of_lt' hlt
  constructor
  · apply UInt32.toNat_inj.mp
    rw [UInt32.toNat_shiftRight, hvalue, show (8 : UInt32).toNat % 32 = 8 by decide,
      Nat.shiftRight_eq_div_pow]
    omega
  · apply UInt8.toNat_inj.mp
    rw [UInt32.toNat_toUInt8, hvalue]
    omega

/-- With one more byte an integer is shifted up, and nothing of it is lost. -/
theorem exists_toUInt32?_append_singleton (number : UInt16) {front : Bytes} {x : UInt8}
    (h : (front ++ [x]).length ≤ 4) :
    ∃ n : UInt32, (MessageOption.mk number front).toUInt32? = some n ∧
      (MessageOption.mk number (front ++ [x])).toUInt32? = some (shiftIn n x) ∧
      shiftIn n x >>> 8 = n ∧ (shiftIn n x).toUInt8 = x := by
  have hfront : front.length ≤ 3 := by
    rw [List.length_append, List.length_singleton] at h
    omega
  have hfree : (shiftedIn front).toNat < 256 ^ 3 := by
    rw [toNat_shiftedIn (Nat.le_succ_of_le hfront)]
    refine Nat.lt_of_lt_of_le (Bytes.toNat_lt front) ?_
    exact Nat.pow_le_pow_right (by decide) hfront
  refine ⟨shiftedIn front, ?_, ?_, shiftIn_undone hfree x⟩
  · rw [toUInt32?_eq_ite, if_pos (Nat.le_succ_of_le hfront)]
  · rw [toUInt32?_eq_ite, if_pos h, shiftedIn_append_singleton]

/-! ## Writing integers -/

/-- How wide an integer is written. -/
theorem length_shortestBytes_cases (n : UInt32) :
    (n.toNat < 256 ∧ (shortestBytes n).length = 1) ∨
      (256 ≤ n.toNat ∧ n.toNat < 65536 ∧ (shortestBytes n).length = 2) ∨
      (65536 ≤ n.toNat ∧ (shortestBytes n).length = 4) := by
  unfold shortestBytes
  split
  · next hone => exact .inl ⟨hone, rfl⟩
  · next hone =>
    split
    · next htwo => exact .inr (.inl ⟨Nat.not_lt.mp hone, htwo, rfl⟩)
    · next htwo => exact .inr (.inr ⟨Nat.not_lt.mp htwo, rfl⟩)

theorem length_shortestBytes_le (n : UInt32) : (shortestBytes n).length ≤ 4 := by
  have hcases := length_shortestBytes_cases n
  omega

theorem toNat_shortestBytes (n : UInt32) : Bytes.toNat (shortestBytes n) = n.toNat := by
  unfold shortestBytes
  split
  · simp [Bytes.toNat]
    omega
  · split
    · rw [Bytes.toNat_ofUInt16, UInt16.toNat_ofNat']
      omega
    · exact Bytes.toNat_ofUInt32 n

/-- An integer is read back from an option. -/
theorem toUInt32?_ofUInt32 (number : UInt16) (n : UInt32) :
    (ofUInt32 number n).toUInt32? = some n := by
  rw [toUInt32?_eq (length_shortestBytes_le n)]
  simp [ofUInt32, toNat_shortestBytes]

/-- No width that holds a number is less than the one it is written in. -/
theorem length_shortestBytes_le_of_lt {n : UInt32} {k : Nat}
    (hwidth : k = 1 ∨ k = 2 ∨ k = 4) (hlt : n.toNat < 256 ^ k) :
    (shortestBytes n).length ≤ k := by
  have hcases := length_shortestBytes_cases n
  rcases hwidth with rfl | rfl | rfl
  · omega
  · omega
  · omega

/-- An integer is below the power of 256 that the bytes leave room for. -/
theorem toNat_lt_of_toUInt32? {o : MessageOption} {n : UInt32}
    (h : o.toUInt32? = some n) : n.toNat < 256 ^ o.value.length := by
  rw [toUInt32?_eq_ite] at h
  split at h
  · next hshort =>
    cases h
    rw [toNat_shiftedIn hshort]
    exact Bytes.toNat_lt o.value
  · cases h

/-- Just values of up to four bytes are integers, and each is the number whose digits
in base 256 are the bytes, the first one leading. On the way no bit gets lost: behind
every byte that is shifted in, the integer so far and the byte can be told from the word.
Whatever the number of the option, every integer is read back from it, and it is written
in the least of one, two and four bytes from which it can be read. -/
theorem integers_kept_in_shortest_form :
    (∀ o : MessageOption,
      o.toUInt32?.map UInt32.toNat =
        if o.value.length ≤ 4 then
          some (Nat.ofDigits 256 (o.value.reverse.map UInt8.toNat))
        else none) ∧
    (∀ (number : UInt16) (front : Bytes) (x : UInt8), (front ++ [x]).length ≤ 4 →
      ∃ n : UInt32, (MessageOption.mk number front).toUInt32? = some n ∧
        (MessageOption.mk number (front ++ [x])).toUInt32? =
          some ((n <<< 8) ||| x.toUInt32) ∧
        ((n <<< 8) ||| x.toUInt32) >>> 8 = n ∧
        ((n <<< 8) ||| x.toUInt32).toUInt8 = x) ∧
    ∀ (number : UInt16) (n : UInt32),
      (ofUInt32 number n).number = number ∧
      (ofUInt32 number n).toUInt32? = some n ∧
      IsLeast
        {k | (k = 1 ∨ k = 2 ∨ k = 4) ∧
          ∃ b : Bytes, b.length = k ∧ (MessageOption.mk number b).toUInt32? = some n}
        (ofUInt32 number n).value.length := by
  refine ⟨fun o => ?_, fun number _ _ => exists_toUInt32?_append_singleton number,
    fun number n => ⟨rfl, toUInt32?_ofUInt32 number n,
      ⟨?_, _, rfl, toUInt32?_ofUInt32 number n⟩, ?_⟩⟩
  · rw [toUInt32?_eq_ite]
    split
    · next hshort =>
      rw [Option.map_some, toNat_shiftedIn hshort, Bytes.toNat_eq_ofDigits]
    · rfl
  · have hcases := length_shortestBytes_cases n
    simp only [ofUInt32]
    omega
  · rintro k ⟨hwidth, b, rfl, hread⟩
    exact length_shortestBytes_le_of_lt hwidth (toNat_lt_of_toUInt32? hread)

end MessageOption

end Coap
