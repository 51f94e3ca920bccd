/-!
# Rounding a quotient to the nearest integer

Quotients of natural numbers are rounded exactly: a half goes to the even
neighbour.

## Main results

* `roundDiv_within` — the rounded quotient is at most half a unit away.
* `roundDiv_even_of_tie` — a quotient half way between two integers is
  rounded to the even one.
-/

namespace Coap.Decimal

/-- The integer nearest to `num / den`, the even one of two. -/
def roundDiv (num den : Nat) : Nat :=
  let q := num / den
  let r := num % den
  if 2 * r < den then q
  else if den < 2 * r then q + 1
  else q + q % 2

theorem roundDiv_within (num den : Nat) (h : 0 < den) :
    2 * num ≤ 2 * (roundDiv num den * den) + den ∧
      2 * (roundDiv num den * den) ≤ 2 * num + den := by
  have hd := Nat.div_add_mod num den
  have hm := Nat.mod_lt num h
  have hc : den * (num / den) = num / den * den := Nat.mul_comm ..
  simp only [roundDiv]
  split
  · omega
  · split
    · rw [Nat.add_mul]; omega
    · rcases Nat.mod_two_eq_zero_or_one (num / den) with he | he <;>
        rw [he, Nat.add_mul] <;> omega

theorem roundDiv_even_of_tie {num den : Nat} (h : 2 * (num % den) = den) :
    roundDiv num den % 2 = 0 := by
  simp only [roundDiv, h]
  simp only [Nat.lt_irrefl, if_false]
  omega

end Coap.Decimal
