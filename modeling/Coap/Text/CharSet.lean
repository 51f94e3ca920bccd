/-!
# Sets of characters by their edges

A set of code points is written down as its edges: the ascending list of
code points at which membership changes, from outside to inside first. A
character is in the set if an odd number of edges are at or before it.

## Main results

* `contains_singleRange` — two edges are the range between them.
-/

namespace Coap

/-- A set of characters. -/
structure CharSet where
  /-- The code points at which membership changes, in ascending order. -/
  edges : List Nat

namespace CharSet

/-- The number of leading edges at or before a code point. -/
def crossed : List Nat → Nat → Nat
  | [], _ => 0
  | edge :: edges, n => if edge ≤ n then crossed edges n + 1 else 0

/-- Whether a character is in the set. -/
def contains (s : CharSet) (c : Char) : Bool := crossed s.edges c.toNat % 2 == 1

theorem contains_singleRange (a b : Nat) (c : Char) :
    (CharSet.mk [a, b]).contains c = true ↔ a ≤ c.toNat ∧ c.toNat < b := by
  by_cases ha : a ≤ c.toNat
  · by_cases hb : b ≤ c.toNat
    · simp [contains, crossed, ha, hb]
    · simp [contains, crossed, ha, hb, Nat.lt_of_not_le hb]
  · by_cases hb : b ≤ c.toNat <;> simp [contains, crossed, ha]

end CharSet

end Coap
