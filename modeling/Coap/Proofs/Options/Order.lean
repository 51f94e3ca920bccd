import Mathlib.Algebra.GroupWithZero.Nat
import Mathlib.Data.List.Pairwise
import Coap.Option.Outline

/-!
# The order of options

Options stand in order of their numbers, and those of one number as they were
given. Both together leave no choice: a list in order is told by the options
that it has of each number. So two ways of putting options together come to the
same if they give the same options of each number, and of each number merging
only appends.

Writing codes every option with the difference of its number to the number
before it. In a list in order this difference is never cut off.

## Main results

* `eq_of_findAll_eq` — options with the same options of each number are the same.
* `findAll_merge` — of each number, merging appends.
* `toList_ofList` — putting options in order is a stable sort.
* `order_and_merge_laws` — no difference is cut off, and making options is a
  homomorphism from lists to merging.
-/

namespace Coap.Options

variable {s t : Options} {l l' : List MessageOption} {o : MessageOption}
  {n previous : UInt16}

/-! ## Lists in order -/

theorem filter_number_cons (o : MessageOption) (l : List MessageOption)
    (n : UInt16) :
    (o :: l).filter (·.number == n) =
      if o.number = n then o :: l.filter (·.number == n)
      else l.filter (·.number == n) := by
  by_cases h : o.number = n
  · rw [if_pos h]
    exact List.filter_cons_of_pos (beq_iff_eq.mpr h)
  · rw [if_neg h]
    exact List.filter_cons_of_neg (mt beq_iff_eq.mp h)

theorem mem_of_filter_eq
    (h : ∀ n, l.filter (·.number == n) = l'.filter (·.number == n))
    (ho : o ∈ l) : o ∈ l' := by
  have hfound : o ∈ l.filter (·.number == o.number) :=
    List.mem_filter.mpr ⟨ho, beq_self_eq_true _⟩
  rw [h] at hfound
  exact (List.mem_filter.mp hfound).1

/-- A list in order is told by its options of each number. -/
theorem eq_of_filter_eq (hl : l.Pairwise fun a b => a.number ≤ b.number)
    (hl' : l'.Pairwise fun a b => a.number ≤ b.number)
    (h : ∀ n, l.filter (·.number == n) = l'.filter (·.number == n)) :
    l = l' := by
  induction l generalizing l' with
  | nil =>
      refine (List.eq_nil_iff_forall_not_mem.mpr fun o ho => ?_).symm
      exact List.not_mem_nil (mem_of_filter_eq (fun n => (h n).symm) ho)
  | cons a rest ih =>
      cases l' with
      | nil => exact absurd (mem_of_filter_eq h List.mem_cons_self) List.not_mem_nil
      | cons b rest' =>
          obtain ⟨ha, hrest⟩ := List.pairwise_cons.mp hl
          obtain ⟨hb, hrest'⟩ := List.pairwise_cons.mp hl'
          -- neither list has a number below that of the other's first option
          have hab : a.number ≤ b.number := by
            have hin := mem_of_filter_eq (fun n => (h n).symm) List.mem_cons_self
            rcases List.mem_cons.mp hin with heq | hin
            · exact heq ▸ UInt16.le_refl _
            · exact ha b hin
          have hba : b.number ≤ a.number := by
            have hin := mem_of_filter_eq h List.mem_cons_self
            rcases List.mem_cons.mp hin with heq | hin
            · exact heq ▸ UInt16.le_refl _
            · exact hb a hin
          have hnumber : b.number = a.number := UInt16.le_antisymm hba hab
          simp only [filter_number_cons, hnumber] at h
          have hfirst := h a.number
          rw [if_pos rfl, if_pos rfl] at hfirst
          obtain rfl : a = b := (List.cons.inj hfirst).1
          refine congrArg (a :: ·) (ih hrest hrest' fun n => ?_)
          have hn := h n
          split at hn
          · exact (List.cons.inj hn).2
          · exact hn

/-- Options are told by what is found of each number. -/
theorem eq_of_findAll_eq (h : ∀ n, s.findAll n = t.findAll n) : s = t := by
  have hlist := eq_of_filter_eq s.ascending t.ascending h
  cases s
  cases t
  cases hlist
  rfl

/-! ## Putting options in order -/

theorem perm_insertList (o : MessageOption) (l : List MessageOption) :
    (insertList o l).Perm (o :: l) := by
  induction l with
  | nil => exact .refl _
  | cons a rest ih =>
      rw [insertList]
      split
      · exact .refl _
      · exact (ih.cons a).trans (.swap o a rest)

theorem perm_ofList (l : List MessageOption) : (ofList l).toList.Perm l := by
  induction l with
  | nil => exact .refl _
  | cons o rest ih =>
      rw [ofList_cons, toList_insert]
      exact (perm_insertList o _).trans (ih.cons o)

/-- An option is inserted in front of all options of its number. -/
theorem filter_insertList (o : MessageOption) (l : List MessageOption) (n : UInt16) :
    (insertList o l).filter (·.number == n) =
      (o :: l).filter (·.number == n) := by
  induction l with
  | nil => rfl
  | cons a rest ih =>
      rw [insertList]
      split
      · rfl
      · next hgreater =>
          have hdiffer : a.number ≠ o.number := fun heq =>
            hgreater (heq ▸ UInt16.le_refl _)
          rw [filter_number_cons, ih, filter_number_cons, filter_number_cons o,
            filter_number_cons a]
          by_cases ho : o.number = n
          · rw [if_pos ho, if_pos ho, if_neg (ho ▸ hdiffer), if_neg (ho ▸ hdiffer)]
          · rw [if_neg ho, if_neg ho]

theorem findAll_ofList (l : List MessageOption) (n : UInt16) :
    (ofList l).findAll n = l.filter (·.number == n) := by
  induction l with
  | nil => rfl
  | cons o rest ih =>
      have hinsert := filter_insertList o (ofList rest).toList n
      rw [filter_number_cons] at hinsert ⊢
      rw [← ih]
      exact hinsert

@[simp] theorem findAll_empty (n : UInt16) : empty.findAll n = [] := rfl

/-- Of each number, merging appends. -/
theorem findAll_merge (s t : Options) (n : UInt16) :
    (s.merge t).findAll n = s.findAll n ++ t.findAll n := by
  rw [merge, findAll_ofList, List.filter_append]
  rfl

/-- A list in order is left as it is. -/
theorem toList_ofList_of_ascending
    (h : l.Pairwise fun a b => a.number ≤ b.number) : (ofList l).toList = l :=
  eq_of_filter_eq (ofList l).ascending h (findAll_ofList l)

/-- Putting options in order is the stable sort by their numbers. -/
theorem toList_ofList (l : List MessageOption) :
    (ofList l).toList = l.mergeSort fun a b => a.number ≤ b.number := by
  let le : MessageOption → MessageOption → Bool := fun a b => a.number ≤ b.number
  have htrans (a b c : MessageOption) (hab : le a b = true) (hbc : le b c = true) :
      le a c = true :=
    decide_eq_true (UInt16.le_trans (of_decide_eq_true hab) (of_decide_eq_true hbc))
  have htotal (a b : MessageOption) : (le a b || le b a) = true := by
    rcases UInt16.le_total a.number b.number with hle | hle
    · exact Bool.or_eq_true_iff.mpr (.inl (decide_eq_true hle))
    · exact Bool.or_eq_true_iff.mpr (.inr (decide_eq_true hle))
  have hsorted : (l.mergeSort le).Pairwise fun a b => a.number ≤ b.number :=
    (List.pairwise_mergeSort htrans htotal l).imp of_decide_eq_true
  refine eq_of_filter_eq (ofList l).ascending hsorted fun n => ?_
  have hgiven := findAll_ofList l n
  rw [findAll] at hgiven
  rw [hgiven]
  -- the options of one number are a sublist in order, so the sort keeps it
  have hkept : (l.filter (·.number == n)).Sublist (l.mergeSort le) := by
    refine List.sublist_mergeSort htrans htotal ?_ List.filter_sublist
    refine List.pairwise_of_forall_mem_list fun a ha b hb => ?_
    have hna := beq_iff_eq.mp (List.mem_filter.mp ha).2
    have hnb := beq_iff_eq.mp (List.mem_filter.mp hb).2
    exact decide_eq_true (hna.trans hnb.symm ▸ UInt16.le_refl _)
  have hwithin := hkept.filter (·.number == n)
  rw [List.filter_filter] at hwithin
  simp only [Bool.and_self] at hwithin
  refine hwithin.eq_of_length ?_
  exact (((List.mergeSort_perm l le).filter (·.number == n)).length_eq).symm

/-! ## Merging -/

/-- The size of options is told by the outlines that they are made of. -/
theorem encodedLength_ofList (l : List MessageOption) :
    (ofList l).encodedLength =
      OptionOutline.encodedLengthFrom 0
        (OptionOutline.inOrder (l.map MessageOption.outline)) := by
  have hmap : (ofList l).toList.map MessageOption.outline =
      OptionOutline.inOrder (l.map MessageOption.outline) := by
    rw [toList_ofList]
    exact List.map_mergeSort fun _ _ _ _ => rfl
  rw [← hmap, encodedLengthFrom_outlines, encodedLength]

theorem ofList_append (l l' : List MessageOption) :
    ofList (l ++ l') = (ofList l).merge (ofList l') := by
  refine eq_of_findAll_eq fun n => ?_
  rw [findAll_merge, findAll_ofList, findAll_ofList, findAll_ofList,
    List.filter_append]

theorem merge_assoc (s t u : Options) :
    (s.merge t).merge u = s.merge (t.merge u) := by
  refine eq_of_findAll_eq fun n => ?_
  simp only [findAll_merge, List.append_assoc]

theorem empty_merge (s : Options) : empty.merge s = s := by
  refine eq_of_findAll_eq fun n => ?_
  rw [findAll_merge, findAll_empty, List.nil_append]

theorem merge_empty (s : Options) : s.merge empty = s := by
  refine eq_of_findAll_eq fun n => ?_
  rw [findAll_merge, findAll_empty, List.append_nil]

/-- Merging appends exactly if the numbers of the second options are not below
those of the first. -/
theorem toList_merge_eq_append_iff :
    (s.merge t).toList = s.toList ++ t.toList ↔
      ∀ a ∈ s.toList, ∀ b ∈ t.toList, a.number ≤ b.number := by
  constructor
  · intro h
    have hascending := (s.merge t).ascending
    rw [h] at hascending
    exact (List.pairwise_append.mp hascending).2.2
  · intro h
    exact toList_ofList_of_ascending
      (List.pairwise_append.mpr ⟨s.ascending, t.ascending, h⟩)

/-! ## Differences on the wire -/

/-- Options, each with the number before it. -/
def preceded (previous : UInt16) :
    List MessageOption → List (UInt16 × MessageOption)
  | [] => []
  | o :: rest => (previous, o) :: preceded o.number rest

/-- Append options to a buffer, each coded with the number that comes with it.
The first one that cannot be written ends it. -/
def writeEach :
    List (UInt16 × MessageOption) → Buffer → Buffer × Except CodecError Unit
  | [], buf => (buf, .ok ())
  | (previous, o) :: rest, buf =>
      match o.encode previous with
      | .error e => (buf, .error e)
      | .ok bytes =>
          match buf.append? bytes with
          | none => (buf, .error (.bufferOverflow buf.length))
          | some buf => writeEach rest buf

/-- The number of bytes of each option, coded with the number that comes with
it. -/
def lengthEach (pairs : List (UInt16 × MessageOption)) :
    Except CodecError (List Nat) :=
  pairs.mapM fun p => p.2.encodedLength p.1

/-- Writing takes no other differences than those of neighbours. -/
theorem writeFrom_eq_writeEach (l : List MessageOption) (previous : UInt16)
    (buf : Buffer) : writeFrom previous l buf = writeEach (preceded previous l) buf := by
  induction l generalizing previous buf with
  | nil => rfl
  | cons o rest ih =>
      rw [writeFrom_cons, preceded, writeEach]
      cases o.encode previous with
      | error e => rfl
      | ok bytes =>
          cases hroom : buf.append? bytes with
          | none => simp [hroom]
          | some longer => simpa [hroom] using ih o.number longer

/-- Neither does telling the length. -/
theorem encodedLengthFrom_eq_sum (l : List MessageOption) (previous : UInt16) :
    encodedLengthFrom previous l =
      (lengthEach (preceded previous l)).map List.sum := by
  induction l generalizing previous with
  | nil => rfl
  | cons o rest ih =>
      rw [encodedLengthFrom, preceded, lengthEach, List.mapM_cons]
      cases o.encodedLength previous with
      | error e => rfl
      | ok first =>
          rw [ih, lengthEach]
          cases (preceded o.number rest).mapM fun p => p.2.encodedLength p.1 with
          | error e => rfl
          | ok others => rfl

/-- In a list in order, no number is below the one before it. -/
theorem le_of_mem_preceded (h : l.Pairwise fun a b => a.number ≤ b.number)
    (hfirst : ∀ o ∈ l, previous ≤ o.number) :
    ∀ p ∈ preceded previous l, p.1 ≤ p.2.number := by
  induction l generalizing previous with
  | nil => exact nofun
  | cons o rest ih =>
      obtain ⟨ho, hrest⟩ := List.pairwise_cons.mp h
      intro p hp
      rcases List.mem_cons.mp hp with rfl | hp
      · exact hfirst o List.mem_cons_self
      · exact ih hrest ho p hp

/-- The difference of a number to one that is not above it is what leads from
the one to the other. -/
theorem add_delta (h : previous ≤ o.number) :
    previous.toNat + (o.delta previous).toNat = o.number.toNat := by
  have hle := UInt16.le_iff_toNat_le.mp h
  have hlt := o.number.toNat_lt
  rw [MessageOption.delta, UInt32.toNat_ofNat']
  omega

/-- Options are in order, so no difference of numbers is cut off, wherever
writing them or telling their length takes one. Making options from a list is a
stable sort, and it carries appending to merging; merging is associative, with
no options as its identity; it appends the options of each number, and appends
the whole lists exactly if no number of the second is below one of the first. -/
theorem order_and_merge_laws :
    (∀ s : Options,
      (∀ p ∈ preceded 0 s.toList, p.1 ≤ p.2.number ∧
        p.1.toNat + (p.2.delta p.1).toNat = p.2.number.toNat) ∧
      (∀ buf, s.write buf = writeEach (preceded 0 s.toList) buf) ∧
      s.encodedLength = (lengthEach (preceded 0 s.toList)).map List.sum) ∧
    (∀ l : List MessageOption,
      (ofList l).toList = (l.mergeSort fun a b => a.number ≤ b.number) ∧
      (ofList l).toList.Perm l ∧
      ∀ n, (ofList l).findAll n = l.filter (·.number == n)) ∧
    (∀ l l', ofList (l ++ l') = (ofList l).merge (ofList l')) ∧
    (∀ s t u : Options, (s.merge t).merge u = s.merge (t.merge u)) ∧
    (∀ s : Options, empty.merge s = s ∧ s.merge empty = s) ∧
    (∀ (s t : Options) n, (s.merge t).findAll n = s.findAll n ++ t.findAll n) ∧
    ∀ s t : Options, (s.merge t).toList = s.toList ++ t.toList ↔
      ∀ a ∈ s.toList, ∀ b ∈ t.toList, a.number ≤ b.number := by
  refine ⟨fun s => ⟨?_, ?_, ?_⟩, ?_, ofList_append, merge_assoc, ?_, findAll_merge, ?_⟩
  · intro p hp
    have hle := le_of_mem_preceded s.ascending (fun _ _ => UInt16.zero_le) p hp
    exact ⟨hle, add_delta hle⟩
  · exact writeFrom_eq_writeEach s.toList 0
  · exact encodedLengthFrom_eq_sum s.toList 0
  · exact fun l => ⟨toList_ofList l, perm_ofList l, findAll_ofList l⟩
  · exact fun s => ⟨empty_merge s, merge_empty s⟩
  · exact fun s t => toList_merge_eq_append_iff

end Coap.Options
