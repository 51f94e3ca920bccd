import Mathlib.Data.Nat.Digits.Defs
import Coap.Text.Number

/-!
# Numerals are read back

Ports, the parts of an IPv4 address and the groups of an IPv6 address are written
by `Nat.toDigits` and read by `readNat?`. In every base that the readers know,
what is written of a number is read as that number.

The induction is on the number, as its last digit comes off the end of the
numeral; `continueNat?_append_singleton` takes the same digit off the reader.

## Main results

* `readNat?_toDigits` — the numeral of a number is read as the number.
* `digitValue_lt_of_readNat?` — what is read as a number consists of digits.
* `notMem_toDigits` — so no delimiter stands in a numeral.
* `readNat?_eq_some_iff` — in base 10, what is read is what is a numeral.
-/

namespace Coap.Text

theorem digitValue_digitChar {d : Nat} (h : d < 16) :
    digitValue (Nat.digitChar d) = d := by
  have hall : ∀ d : Fin 16, digitValue (Nat.digitChar d) = d := by decide
  exact hall ⟨d, h⟩

theorem digitValue_lt_of_continueNat? {base n m : Nat} {cs : List Char}
    (h : continueNat? base n cs = some m) {c : Char} (hc : c ∈ cs) :
    digitValue c < base := by
  induction cs generalizing n with
  | nil => cases hc
  | cons first rest ih =>
      by_cases hfirst : digitValue first < base
      · rw [continueNat?, digit?, if_pos hfirst] at h
        rcases List.mem_cons.mp hc with rfl | hrest
        · exact hfirst
        · exact ih h hrest
      · rw [continueNat?, digit?, if_neg hfirst] at h
        cases h

/-- What is read as a number consists of digits. -/
theorem digitValue_lt_of_readNat? {base n : Nat} {cs : List Char}
    (h : readNat? base cs = some n) {c : Char} (hc : c ∈ cs) :
    digitValue c < base := by
  unfold readNat? at h
  split at h
  · cases h
  · exact digitValue_lt_of_continueNat? h hc

section

variable {base : Nat} (hone : 1 < base) (hsixteen : base ≤ 16)

include hsixteen in
theorem digit?_digitChar {d : Nat} (h : d < base) :
    digit? base (Nat.digitChar d) = some d := by
  rw [digit?, digitValue_digitChar (Nat.lt_of_lt_of_le h hsixteen), if_pos h]

include hone hsixteen

theorem continueNat?_toDigits (n : Nat) :
    continueNat? base 0 (Nat.toDigits base n) = some n := by
  induction n using Nat.strong_induction_on with
  | h n ih =>
      rcases Nat.lt_or_ge n base with hlt | hge
      · rw [Nat.toDigits_of_lt_base hlt, continueNat?, digit?_digitChar hsixteen hlt]
        simp only [Nat.mul_zero, Nat.zero_add, continueNat?]
      · have hsmaller : n / base < n := Nat.div_lt_self (by omega) hone
        have hlast : n % base < base := Nat.mod_lt n (by omega)
        rw [Nat.toDigits_of_base_le hone hge, continueNat?_append_singleton,
          ih _ hsmaller, digit?_digitChar hsixteen hlast]
        exact congrArg some (Nat.div_add_mod n base)

/-- The numeral of a number is read as the number. -/
theorem readNat?_toDigits (n : Nat) :
    readNat? base (Nat.toDigits base n) = some n := by
  have hnonempty : (Nat.toDigits base n).isEmpty = false := by
    rw [List.isEmpty_eq_false_iff]
    exact Nat.toDigits_ne_nil
  rw [readNat?, hnonempty]
  exact continueNat?_toDigits hone hsixteen n

theorem digitValue_lt_of_mem_toDigits {n : Nat} {c : Char}
    (h : c ∈ Nat.toDigits base n) : digitValue c < base :=
  digitValue_lt_of_readNat? (readNat?_toDigits hone hsixteen n) h

theorem notMem_toDigits {c : Char} (hc : digitValue c = 16) (n : Nat) :
    c ∉ Nat.toDigits base n := fun hmem => by
  have hlt := digitValue_lt_of_mem_toDigits hone hsixteen hmem
  omega

/-- No numeral but that of 0 begins with 0. -/
theorem head?_toDigits_ne {n : Nat} (hpos : 0 < n) :
    (Nat.toDigits base n).head? ≠ some '0' := by
  induction n using Nat.strong_induction_on with
  | h n ih =>
      by_cases hlt : n < base
      · rw [Nat.toDigits_of_lt_base hlt]
        intro hhead
        have hdigit : Nat.digitChar n = '0' := by simpa using hhead
        have hvalue := digitValue_digitChar (Nat.lt_of_lt_of_le hlt hsixteen)
        rw [hdigit] at hvalue
        have hzero : digitValue '0' = 0 := by decide
        omega
      · have hge : base ≤ n := by omega
        have hfront := ih (n / base) (Nat.div_lt_self hpos hone)
          (Nat.div_pos hge (by omega))
        rw [Nat.toDigits_of_base_le hone hge]
        cases hdigits : Nat.toDigits base (n / base) with
        | nil => exact absurd hdigits Nat.toDigits_ne_nil
        | cons first others => simpa [hdigits] using hfront

end

/-! ## Decimal numerals -/

/-- A text is a decimal numeral of a number, whose leading digits may be 0. -/
structure Numeral (cs : List Char) (n : Nat) : Prop where
  ne_nil : cs ≠ []
  digits : ∀ c ∈ cs, '0' ≤ c ∧ c ≤ '9'
  value : Nat.ofDigits 10 (cs.reverse.map (·.toNat - 48)) = n

theorem digitValue_lt_ten_iff {c : Char} : digitValue c < 10 ↔ '0' ≤ c ∧ c ≤ '9' := by
  have hchar (a b : Char) : a ≤ b ↔ a.toNat ≤ b.toNat :=
    Char.le_def.trans UInt32.le_iff_toNat_le
  simp only [digitValue, hchar, Char.reduceToNat]
  split
  · omega
  · split
    · omega
    · split <;> omega

theorem digit?_ten_eq_some_iff {c : Char} {d : Nat} :
    digit? 10 c = some d ↔ ('0' ≤ c ∧ c ≤ '9') ∧ c.toNat - 48 = d := by
  rw [digit?, ← digitValue_lt_ten_iff]
  split
  · next hten =>
      rw [Option.some.injEq, and_iff_right hten, digitValue,
        if_pos (digitValue_lt_ten_iff.mp hten)]
  · next hten => exact iff_of_false (by simp) fun h => hten h.1

/-- The last digit is the first one of the numeral read backwards. -/
theorem continueNat?_reverse_eq_some_iff {digits : List Char} {n : Nat} :
    continueNat? 10 0 digits.reverse = some n ↔
      (∀ c ∈ digits, '0' ≤ c ∧ c ≤ '9') ∧
        Nat.ofDigits 10 (digits.map (·.toNat - 48)) = n := by
  induction digits generalizing n with
  | nil => simp [continueNat?]
  | cons c others ih =>
      rw [List.reverse_cons, continueNat?_append_singleton, List.map_cons, Nat.ofDigits_cons,
        List.forall_mem_cons]
      simp only [Option.bind_eq_some_iff, Option.map_eq_some_iff, ih, digit?_ten_eq_some_iff]
      constructor
      · rintro ⟨m, ⟨hothers, rfl⟩, d, ⟨hc, rfl⟩, rfl⟩
        exact ⟨⟨hc, hothers⟩, Nat.add_comm ..⟩
      · rintro ⟨⟨hc, hothers⟩, rfl⟩
        exact ⟨_, ⟨hothers, rfl⟩, _, ⟨hc, rfl⟩, Nat.add_comm ..⟩

/-- In base 10, what is read is what is a numeral. -/
theorem readNat?_eq_some_iff {cs : List Char} {n : Nat} :
    readNat? 10 cs = some n ↔ Numeral cs n := by
  have hdigits : continueNat? 10 0 cs.reverse.reverse = some n ↔ _ :=
    continueNat?_reverse_eq_some_iff
  simp only [List.reverse_reverse, List.mem_reverse] at hdigits
  unfold readNat?
  split
  · next hempty =>
      refine iff_of_false (by simp) fun h => h.ne_nil ?_
      simpa using hempty
  · next hempty =>
      rw [hdigits]
      constructor
      · rintro ⟨hall, hvalue⟩
        exact ⟨by simpa using hempty, hall, hvalue⟩
      · rintro ⟨-, hall, hvalue⟩
        exact ⟨hall, hvalue⟩

end Coap.Text
