import Coap.Decimal.Double

/-!
# The shortest decimal that reads back

A double is written with the fewest significant digits that still read
back as the same double, and of the decimals with that many digits as the
nearest one. The reals that read back as `m · 2^e` reach half way to the
neighbouring doubles, the ends included if `m` is even; on a decimal grid
it is enough to look at the two points around the value.

Numbers are written in positional notation without an exponent, and whole
numbers without a point.

## Main results

* `pick_mem` — the decimal taken from a grid lies in the interval.
-/

namespace Coap.Decimal

/-! ## The interval of a double

Interval and value are counted in quarters of the last place, so that the
half ways are natural numbers. -/

/-- The reals that read back as a double: the value and both ends, in units
of `2 ^ exponent`. -/
structure Interval where
  low : Nat
  value : Nat
  high : Nat
  /-- Whether the ends belong to the interval. -/
  closed : Bool
  exponent : Int
  deriving Repr

/-- The interval of `m · 2 ^ e`. Below a power of two the neighbour is half
as far away. -/
def Interval.ofDouble (m : Nat) (e : Int) : Interval where
  low := if m = 4503599627370496 ∧ e ≠ -1074 then 4 * m - 1 else 4 * m - 2
  value := 4 * m
  high := 4 * m + 2
  closed := m % 2 == 0
  exponent := e - 2

/-- The numerator of `n · 2 ^ e / 10 ^ k`. -/
def scaleNum (n : Nat) (e k : Int) : Nat :=
  n * Nat.pow 2 e.toNat * Nat.pow 10 (-k).toNat

/-- The denominator of `n · 2 ^ e / 10 ^ k`. -/
def scaleDen (e k : Int) : Nat := Nat.pow 2 (-e).toNat * Nat.pow 10 k.toNat

/-- Whether `d · 10 ^ k` lies in the interval. -/
def Interval.contains (i : Interval) (k : Int) (d : Nat) : Bool :=
  let point := d * scaleDen i.exponent k
  let low := scaleNum i.low i.exponent k
  let high := scaleNum i.high i.exponent k
  if i.closed then low ≤ point && point ≤ high
  else low < point && point < high

/-- The point of the grid of multiples of `10 ^ k` that stands for the
interval: of the two around its value the one inside, the nearer one if
both are, the upper one if they are equally near. -/
def Interval.pick (i : Interval) (k : Int) : Option Nat :=
  let num := scaleNum i.value i.exponent k
  let den := scaleDen i.exponent k
  let d := num / den
  match i.contains k d, i.contains k (d + 1) with
  | true, true => if 2 * (num % den) < den then some d else some (d + 1)
  | true, false => some d
  | false, true => some (d + 1)
  | false, false => none

theorem Interval.pick_mem {i : Interval} {k : Int} {d : Nat}
    (h : i.pick k = some d) : i.contains k d = true := by
  simp only [Interval.pick] at h
  split at h
  · next h1 h2 =>
    split at h
    · cases h; exact h1
    · cases h; exact h2
  · next h1 _ => cases h; exact h1
  · next _ h2 => cases h; exact h2
  · contradiction

/-! ## The shortest decimal -/

/-- The place of the leading digit of `n · 2 ^ e`, looked for downwards. -/
def leadingPlace (n : Nat) (e : Int) : Nat → Int → Int
  | 0, k => k
  | steps + 1, k =>
      if scaleDen e k ≤ scaleNum n e k then k
      else leadingPlace n e steps (k - 1)

/-- The first grid with a point for the interval, from `10 ^ k` downwards. -/
def Interval.search (i : Interval) : Nat → Int → Nat × Int
  | 0, k => (i.value, k)
  | steps + 1, k =>
      match i.pick k with
      | some d => (d, k)
      | none => i.search steps (k - 1)

/-- Digits and place of the shortest decimal for `m · 2 ^ e`. No double
reaches 10³⁰⁹ or needs more than 17 digits, and none but zero is below
10⁻³²⁴. A nine that is rounded up is a one in the place before. -/
def shortest (m : Nat) (e : Int) : Nat × Int :=
  let i := Interval.ofDouble m e
  match i.search 18 (leadingPlace i.value i.exponent 640 309) with
  | (10, k) => (1, k + 1)
  | found => found

/-! ## Positional notation -/

/-- The number `d · 10 ^ k` written out. -/
def positional (d : Nat) (k : Int) : String :=
  let digits := Nat.toDigits 10 d
  if 0 ≤ k then String.ofList (digits ++ List.replicate k.toNat '0')
  else
    let places := (-k).toNat
    let padded := List.replicate (places + 1 - digits.length) '0' ++ digits
    String.ofList
      (padded.take (padded.length - places) ++ '.' ::
        padded.drop (padded.length - places))

/-- The shortest text of a double. -/
def text (x : Float) : String :=
  let sign (negative : Bool) := if negative then "-" else ""
  match Double.decode x with
  | .nan => "NaN"
  | .infinite negative => sign negative ++ "inf"
  | .finite negative 0 _ => sign negative ++ "0"
  | .finite negative m e =>
      let (d, k) := shortest m e
      sign negative ++ positional d k

end Coap.Decimal
