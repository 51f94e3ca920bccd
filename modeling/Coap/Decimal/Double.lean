/-!
# The exact value of a double

A finite double is `± m · 2^e` with a natural number `m` and an integer
`e`. Taking it apart makes everything that is computed from its exact value
arithmetic on natural numbers.

## Main results

* `decode_mantissa_lt` — the mantissa of a finite double has at most 53
  bits.
-/

namespace Coap.Decimal

/-- A double, taken apart. -/
inductive Double where
  /-- Not a number. -/
  | nan
  /-- An infinity. -/
  | infinite (negative : Bool)
  /-- The number `mantissa · 2 ^ exponent` with a sign. -/
  | finite (negative : Bool) (mantissa : Nat) (exponent : Int)
  deriving DecidableEq, Repr

namespace Double

/-- The double with the given sign, 11-bit exponent field and 52-bit
fraction field. -/
def ofFields (negative : Bool) (field fraction : Nat) : Double :=
  if field = 2047 then
    if fraction = 0 then infinite negative else nan
  else if field = 0 then finite negative fraction (-1074)
  else finite negative (fraction + 4503599627370496) (field - 1075)

/-- Take a double apart. -/
def decode (x : Float) : Double :=
  let bits := x.toBits.toNat
  ofFields (bits / 9223372036854775808 == 1) (bits / 4503599627370496 % 2048)
    (bits % 4503599627370496)

theorem decode_mantissa_lt {x : Float} {negative : Bool} {m : Nat} {e : Int}
    (h : decode x = finite negative m e) : m < 9007199254740992 := by
  simp only [decode, ofFields] at h
  split at h
  · split at h <;> contradiction
  · split at h <;> cases h <;> omega

end Double

end Coap.Decimal
