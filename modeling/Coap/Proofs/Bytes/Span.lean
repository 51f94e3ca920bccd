import Mathlib.Algebra.Group.Nat.Defs
import Coap.Bytes.Buffer

/-!
# Spans told in words

Offsets and lengths are 64-bit words, and the place where a span ends may be none: the
sum of two words wraps around. A sum has wrapped around exactly if it is below what was
added to (`checkedAdd?_eq_none_iff`). A check that looks for this before it compares
the end with what is available is the check on numbers, for any two words.

## Main results

* `check_eq` — the check in words is the check on numbers.
* `check_eq_ok_iff` — so a span is let through exactly if its exact end is available.
-/

namespace Coap

theorem Buffer.checkSpan_eq_ok_iff {offset count available : Nat} :
    checkSpan offset count available = .ok () ↔ offset + count ≤ available := by
  unfold checkSpan
  split
  · next h => exact iff_of_true rfl h
  · next h => exact iff_of_false (by simp) h

theorem Buffer.checkSpan_of_le {offset count available : Nat}
    (h : offset + count ≤ available) : checkSpan offset count available = .ok () :=
  checkSpan_eq_ok_iff.mpr h

theorem Buffer.checkSpan_of_lt {offset count available : Nat}
    (h : available < offset + count) :
    checkSpan offset count available =
      .error (.bounds offset count (available - offset)) :=
  if_neg (Nat.not_le.mpr h)

namespace Span

variable {offset count available : UInt64}

/-- The sum of two words, if it is one. -/
def checkedAdd? (a b : UInt64) : Option UInt64 :=
  let sum := a + b
  if sum < a then none else some sum

/-- Whether `count` bytes from `offset` on lie within `available` bytes. -/
def check (offset count available : UInt64) : Except CodecError Unit :=
  match checkedAdd? offset count with
  | some stop => if stop ≤ available then .ok () else .error refusal
  | none => .error refusal
where
  refusal : CodecError :=
    .bounds offset.toNat count.toNat (available.toNat - offset.toNat)

/-- A sum is none exactly if it takes more than 64 bits. -/
theorem checkedAdd?_eq_none_iff {a b : UInt64} :
    checkedAdd? a b = none ↔ 2 ^ 64 ≤ a.toNat + b.toNat := by
  have ha := a.toNat_lt
  have hb := b.toNat_lt
  have hwrapped : a + b < a ↔ 2 ^ 64 ≤ a.toNat + b.toNat := by
    rw [UInt64.lt_iff_toNat_lt, UInt64.toNat_add]
    omega
  rw [← hwrapped, checkedAdd?]
  split <;> simp_all

/-- A sum that is one is exact. -/
theorem toNat_of_checkedAdd? {a b sum : UInt64} (h : checkedAdd? a b = some sum) :
    sum.toNat = a.toNat + b.toNat := by
  have hlt : ¬2 ^ 64 ≤ a.toNat + b.toNat := by
    rw [← checkedAdd?_eq_none_iff, h]
    simp
  simp only [checkedAdd?] at h
  split at h
  · cases h
  · cases h
    rw [UInt64.toNat_add]
    omega

/-- The check in words is the check on numbers. -/
theorem check_eq (offset count available : UInt64) :
    check offset count available =
      Buffer.checkSpan offset.toNat count.toNat available.toNat := by
  have havailable := available.toNat_lt
  unfold check
  cases hsum : checkedAdd? offset count with
  | none =>
      have hlong := checkedAdd?_eq_none_iff.mp hsum
      exact (Buffer.checkSpan_of_lt (by omega)).symm
  | some stop =>
      have hstop := toNat_of_checkedAdd? hsum
      by_cases hle : stop ≤ available
      · have hnat := UInt64.le_iff_toNat_le.mp hle
        rw [Buffer.checkSpan_of_le (by omega)]
        exact if_pos hle
      · have hnat := mt UInt64.le_iff_toNat_le.mpr hle
        rw [Buffer.checkSpan_of_lt (by omega)]
        exact if_neg hle

/-- A span is let through exactly if its end, counted without wrapping around, is
available. -/
theorem check_eq_ok_iff :
    check offset count available = .ok () ↔
      offset.toNat + count.toNat ≤ available.toNat := by
  rw [check_eq, Buffer.checkSpan_eq_ok_iff]

end Span

end Coap
