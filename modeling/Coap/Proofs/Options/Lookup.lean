import Mathlib.Data.List.Sort
import Mathlib.Order.Bounds.Basic
import Coap.Proofs.Options.Order

/-!
# Looking options up

There are three ways to look up an option number: the first position from a start on,
the first option, and all options. Going on behind every position that is found, until
there is none, walks over the options of the number one by one.

Options are in order, so those of one number stand side by side: all lower numbers are
in front of them and all higher ones behind (`below_findAll_above`). The walk then has
no gaps, and how many options are in front tells where it begins.

## Main results

* `findFrom?_eq_some_iff`, `findFrom?_eq_none_iff` — what is found from a start on is
  the least position there.
* `map_positionsFrom` — the walk meets the options that a filter leaves.
* `positions_eq_range'` — the positions of the walk are a range.
* `lookups_agree` — the answers of all lookups, next to each other.
-/

namespace Coap.Options

variable {s : Options} {number : UInt16} {start i : Nat}

/-- The first option of a number is the head of all options of the number. -/
theorem find?_eq_head? (s : Options) (number : UInt16) :
    s.find? number = (s.findAll number).head? := by
  rw [findAll, List.head?_filter, List.find?_eq_bind_findIdx?_getElem?, find?, findFrom?]
  simp

/-! ## The first position from a start on -/

/-- At the position there is an option with the number. -/
def StandsAt (s : Options) (number : UInt16) (i : Nat) : Prop :=
  ∃ o, s.toList[i]? = some o ∧ o.number = number

theorem StandsAt.lt_length (h : s.StandsAt number i) : i < s.toList.length := by
  obtain ⟨o, ho, -⟩ := h
  exact (List.getElem?_eq_some_iff.mp ho).1

theorem standsAt_iff_getElem (hi : i < s.toList.length) :
    s.StandsAt number i ↔ s.toList[i].number = number := by
  simp [StandsAt, List.getElem?_eq_getElem hi]

theorem isLeast_of_findFrom? (h : s.findFrom? start number = some i) :
    IsLeast {j | start ≤ j ∧ s.StandsAt number j} i := by
  obtain ⟨k, hk, rfl⟩ := Option.map_eq_some_iff.mp h
  obtain ⟨hlt, hfound, hfirst⟩ := List.findIdx?_eq_some_iff_getElem.mp hk
  rw [List.length_drop] at hlt
  rw [List.getElem_drop, beq_iff_eq] at hfound
  refine ⟨⟨Nat.le_add_right .., (standsAt_iff_getElem (by omega)).mpr hfound⟩, ?_⟩
  rintro j ⟨hstart, hstands⟩
  obtain ⟨k', rfl⟩ := Nat.exists_eq_add_of_le hstart
  -- a position in front of the one that is found has been passed over
  by_contra hbefore
  have hpassed := hfirst k' (by omega)
  rw [List.getElem_drop, beq_iff_eq] at hpassed
  exact hpassed ((standsAt_iff_getElem hstands.lt_length).mp hstands)

theorem not_standsAt_of_findFrom? (h : s.findFrom? start number = none) {j : Nat}
    (hj : start ≤ j) : ¬s.StandsAt number j := by
  rintro ⟨o, ho, hnumber⟩
  obtain ⟨k, rfl⟩ := Nat.exists_eq_add_of_le hj
  rw [← List.getElem?_drop] at ho
  have hpassed := List.findIdx?_eq_none_iff.mp (Option.map_eq_none_iff.mp h) o
    (List.mem_of_getElem? ho)
  exact beq_eq_false_iff_ne.mp hpassed hnumber

/-- What is found from a start on is the least position there with such an option. -/
theorem findFrom?_eq_some_iff :
    s.findFrom? start number = some i ↔
      IsLeast {j | start ≤ j ∧ s.StandsAt number j} i := by
  refine ⟨isLeast_of_findFrom?, fun h => ?_⟩
  cases hfind : s.findFrom? start number with
  | none => exact absurd h.1.2 (not_standsAt_of_findFrom? hfind h.1.1)
  | some first => exact congrArg some ((isLeast_of_findFrom? hfind).unique h)

/-- Nothing is found from a start on if there is no such option. -/
theorem findFrom?_eq_none_iff :
    s.findFrom? start number = none ↔ ∀ j, start ≤ j → ¬s.StandsAt number j := by
  refine ⟨fun h _ => not_standsAt_of_findFrom? h, fun h => ?_⟩
  cases hfind : s.findFrom? start number with
  | none => rfl
  | some first =>
      obtain ⟨hstart, hstands⟩ := (isLeast_of_findFrom? hfind).1
      exact absurd hstands (h first hstart)

/-! ## Going on behind every position -/

/-- The positions that are found from a start on by asking again behind each of them,
until there are no more. -/
def positionsFrom (s : Options) (start : Nat) (number : UInt16) : List Nat :=
  match _h : s.findFrom? start number with
  | none => []
  | some i => i :: s.positionsFrom (i + 1) number
termination_by s.toList.length - start
decreasing_by
  obtain ⟨hstart, hstands⟩ := (isLeast_of_findFrom? _h).1
  have hlt := hstands.lt_length
  omega

/-- The positions that are found from the front on. -/
def positions (s : Options) (number : UInt16) : List Nat := s.positionsFrom 0 number

/-- The walk leaves no position out. -/
theorem mem_positionsFrom :
    i ∈ s.positionsFrom start number ↔ start ≤ i ∧ s.StandsAt number i := by
  fun_induction positionsFrom s start number with
  | case1 start h =>
      simpa using fun hstart => findFrom?_eq_none_iff.mp h i hstart
  | case2 start first h ih =>
      obtain ⟨hfirst, hleast⟩ := findFrom?_eq_some_iff.mp h
      rw [List.mem_cons, ih]
      constructor
      · rintro (rfl | ⟨hbehind, hstands⟩)
        · exact hfirst
        · exact ⟨Nat.le_trans hfirst.1 (Nat.le_of_succ_le hbehind), hstands⟩
      · rintro ⟨hstart, hstands⟩
        rcases Nat.eq_or_lt_of_le (hleast ⟨hstart, hstands⟩) with heq | hlt
        · exact .inl heq.symm
        · exact .inr ⟨hlt, hstands⟩

theorem mem_positions : i ∈ s.positions number ↔ s.StandsAt number i := by
  rw [positions, mem_positionsFrom]
  exact and_iff_right (Nat.zero_le i)

/-- The walk only goes forward. -/
theorem pairwise_positionsFrom : (s.positionsFrom start number).Pairwise (· < ·) := by
  fun_induction positionsFrom s start number with
  | case1 => exact .nil
  | case2 start first h ih =>
      exact List.pairwise_cons.mpr ⟨fun j hj => (mem_positionsFrom.mp hj).1, ih⟩

theorem pairwise_positions : (s.positions number).Pairwise (· < ·) :=
  pairwise_positionsFrom

theorem findFrom?_eq_head? :
    s.findFrom? start number = (s.positionsFrom start number).head? := by
  rw [positionsFrom]
  split
  · next h => exact h
  · next h => exact h

/-- A filter keeps what is found first and filters what is behind it. -/
theorem filter_of_findIdx? {α : Type} {p : α → Bool} {l : List α} {k : Nat}
    (h : l.findIdx? p = some k) :
    ∃ a, l[k]? = some a ∧ l.filter p = a :: (l.drop (k + 1)).filter p := by
  induction l generalizing k with
  | nil => cases h
  | cons a rest ih =>
      rw [List.findIdx?_cons] at h
      split at h
      · next hp =>
        cases h
        exact ⟨a, rfl, List.filter_cons_of_pos hp⟩
      · next hp =>
        obtain ⟨k, hk, rfl⟩ := Option.map_eq_some_iff.mp h
        rw [List.filter_cons_of_neg hp]
        exact ih hk

/-- The walk meets the options that a filter leaves. -/
theorem map_positionsFrom :
    (s.positionsFrom start number).map (s.toList[·]?) =
      ((s.toList.drop start).filter (·.number == number)).map some := by
  fun_induction positionsFrom s start number with
  | case1 start h =>
      have hnone := List.findIdx?_eq_none_iff.mp (Option.map_eq_none_iff.mp h)
      rw [List.filter_eq_nil_iff.mpr fun o ho => by simp [hnone o ho]]
      rfl
  | case2 start first h ih =>
      obtain ⟨k, hk, rfl⟩ := Option.map_eq_some_iff.mp h
      obtain ⟨o, ho, hfilter⟩ := filter_of_findIdx? hk
      rw [List.getElem?_drop] at ho
      rw [List.drop_drop] at hfilter
      rw [List.map_cons, ih, ho, hfilter, List.map_cons, Nat.add_assoc]

/-! ## The options of one number stand side by side -/

/-- The options with lower numbers. -/
def below (s : Options) (number : UInt16) : List MessageOption :=
  s.toList.filter (·.number < number)

/-- The options with higher numbers. -/
def above (s : Options) (number : UInt16) : List MessageOption :=
  s.toList.filter (number < ·.number)

theorem number_ne_of_mem_below {o : MessageOption} (h : o ∈ s.below number) :
    o.number ≠ number :=
  UInt16.ne_of_lt (of_decide_eq_true (List.mem_filter.mp h).2)

theorem number_eq_of_mem_findAll {o : MessageOption} (h : o ∈ s.findAll number) :
    o.number = number := beq_iff_eq.mp (List.mem_filter.mp h).2

theorem number_ne_of_mem_above {o : MessageOption} (h : o ∈ s.above number) :
    o.number ≠ number :=
  (UInt16.ne_of_lt (of_decide_eq_true (List.mem_filter.mp h).2)).symm

/-- A list in order is what is lower than a number, what has it, and what is higher. -/
theorem filter_append_filter {l : List MessageOption}
    (h : l.Pairwise fun a b => a.number ≤ b.number) (n : UInt16) :
    l.filter (·.number < n) ++ (l.filter (·.number == n) ++ l.filter (n < ·.number)) =
      l := by
  induction l with
  | nil => rfl
  | cons a rest ih =>
      obtain ⟨hbehind, hrest⟩ := List.pairwise_cons.mp h
      have ih := ih hrest
      by_cases hlow : a.number < n
      · simpa [hlow, UInt16.ne_of_lt hlow, UInt16.le_of_lt hlow] using ih
      · -- behind an option that is not lower there is none that is
        have hle : n ≤ a.number := UInt16.not_lt.mp hlow
        have hbelow : rest.filter (·.number < n) = [] :=
          List.filter_eq_nil_iff.mpr fun o ho => by
            simpa using UInt16.le_trans hle (hbehind o ho)
        rw [hbelow, List.nil_append] at ih
        by_cases heq : a.number = n
        · simpa [hbelow, heq] using ih
        · have hhigh : n < a.number := UInt16.lt_of_le_of_ne hle (Ne.symm heq)
          have hequal : rest.filter (·.number == n) = [] :=
            List.filter_eq_nil_iff.mpr fun o ho => by
              simpa using
                (UInt16.ne_of_lt (UInt16.lt_of_lt_of_le hhigh (hbehind o ho))).symm
          rw [hequal, List.nil_append] at ih
          simpa [hbelow, hequal, hlow, heq, hhigh] using ih

/-- All options with lower numbers stand in front of those of a number, and all with
higher numbers behind. -/
theorem below_findAll_above (s : Options) (number : UInt16) :
    s.below number ++ (s.findAll number ++ s.above number) = s.toList :=
  filter_append_filter s.ascending number

/-- The options of a number take the places behind all lower ones. -/
theorem standsAt_iff :
    s.StandsAt number i ↔ (s.below number).length ≤ i ∧
      i < (s.below number).length + (s.findAll number).length := by
  rw [StandsAt, ← below_findAll_above s number]
  rcases Nat.lt_or_ge i (s.below number).length with hbelow | hge
  · rw [List.getElem?_append_left hbelow]
    refine ⟨?_, by omega⟩
    rintro ⟨o, ho, hnumber⟩
    exact absurd hnumber (number_ne_of_mem_below (List.mem_of_getElem? ho))
  · rw [List.getElem?_append_right hge]
    obtain ⟨k, rfl⟩ := Nat.exists_eq_add_of_le hge
    rw [Nat.add_sub_cancel_left]
    rcases Nat.lt_or_ge k (s.findAll number).length with hequal | habove
    · rw [List.getElem?_append_left hequal, List.getElem?_eq_getElem hequal]
      refine ⟨by omega, fun _ => ⟨_, rfl, ?_⟩⟩
      exact number_eq_of_mem_findAll (List.getElem_mem hequal)
    · rw [List.getElem?_append_right habove]
      refine ⟨?_, by omega⟩
      rintro ⟨o, ho, hnumber⟩
      exact absurd hnumber (number_ne_of_mem_above (List.mem_of_getElem? ho))

/-- The positions of the walk are a range. -/
theorem positions_eq_range' :
    s.positions number =
      List.range' (s.below number).length (s.findAll number).length := by
  refine pairwise_positions.eq_of_mem_iff List.pairwise_lt_range' fun i => ?_
  rw [mem_positions, standsAt_iff, List.mem_range'_1]

/-! ## All lookups -/

/-- Asking for a number again behind every position that was found, until there is
none, goes forward over a range of positions: just those where an option has the
number. The options there are all options of the number, in order, and the first option
that is looked up is the first of them. What is found from any start on, within the
options or behind their end, is the least of these positions that is not below the
start, and nothing is found if all of them are below it. -/
theorem lookups_agree (s : Options) (number : UInt16) :
    (s.positions number).Pairwise (· < ·) ∧
    s.positions number =
      List.range' (s.below number).length (s.findAll number).length ∧
    (∀ i, i ∈ s.positions number ↔ s.StandsAt number i) ∧
    (s.positions number).map (s.toList[·]?) = (s.findAll number).map some ∧
    s.find? number = (s.positions number).head?.bind (s.toList[·]?) ∧
    s.find? number = (s.findAll number).head? ∧
    ∀ start,
      (∀ i, s.findFrom? start number = some i ↔
        IsLeast {j | j ∈ s.positions number ∧ start ≤ j} i) ∧
      (s.findFrom? start number = none ↔ ∀ j ∈ s.positions number, j < start) := by
  refine ⟨pairwise_positions, positions_eq_range', fun _ => mem_positions,
    map_positionsFrom, ?_, find?_eq_head? s number, fun start => ⟨fun i => ?_, ?_⟩⟩
  · rw [find?, findFrom?_eq_head?, positions]
  · simp only [findFrom?_eq_some_iff, mem_positions, and_comm]
  · simp only [findFrom?_eq_none_iff, mem_positions]
    refine forall_congr' fun j => ?_
    rw [← not_le, imp_not_comm]

end Coap.Options
