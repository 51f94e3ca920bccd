/-!
# Numbers in text

Readers for runs of digits in a base of at most 16, on lists of
characters. Only ASCII digits and letters count, in either case.

## Main results

* `continueNat?_append_singleton` — a digit at the end is the last digit.
-/

namespace Coap.Text

/-- The value of a digit, and 16 for a character that is none. -/
def digitValue (c : Char) : Nat :=
  if '0' ≤ c ∧ c ≤ '9' then c.toNat - 48
  else if 'a' ≤ c ∧ c ≤ 'f' then c.toNat - 87
  else if 'A' ≤ c ∧ c ≤ 'F' then c.toNat - 55
  else 16

/-- The value of a digit of the given base. -/
def digit? (base : Nat) (c : Char) : Option Nat :=
  if digitValue c < base then some (digitValue c) else none

/-- The number that a run of digits continues. -/
def continueNat? (base : Nat) (n : Nat) : List Char → Option Nat
  | [] => some n
  | c :: cs =>
      match digit? base c with
      | some d => continueNat? base (base * n + d) cs
      | none => none

/-- The number that a run of one digit or more stands for. -/
def readNat? (base : Nat) (cs : List Char) : Option Nat :=
  if cs.isEmpty then none else continueNat? base 0 cs

theorem digit?_lt {base d : Nat} {c : Char} (h : digit? base c = some d) :
    d < base := by
  unfold digit? at h
  split at h
  · next hlt => cases h; exact hlt
  · contradiction

theorem continueNat?_append_singleton (base n : Nat) (cs : List Char)
    (c : Char) :
    continueNat? base n (cs ++ [c]) =
      (continueNat? base n cs).bind fun m =>
        (digit? base c).map (base * m + ·) := by
  induction cs generalizing n with
  | nil =>
    simp only [List.nil_append, continueNat?, Option.bind_some]
    cases digit? base c <;> rfl
  | cons a cs ih =>
    simp only [List.cons_append, continueNat?]
    cases digit? base a with
    | none => rfl
    | some d => exact ih _

end Coap.Text
