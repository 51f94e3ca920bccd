/-!
# Text and delimiters

Texts are taken apart at delimiters and put together with delimiters in between.
`List.splitOn` and `List.intercalate` undo each other where no piece contains the
delimiter; here stands what else the readers need: which characters the pieces
and the joined text have, and where a text is cut that goes on with a delimiter.

## Main results

* `notMem_of_mem_splitOn` — no piece contains the delimiter.
* `mem_intercalate_singleton` — joining adds no character but the delimiter.
* `cutAt_iff` — there is one way to cut a text at the first character that stops it.
* `pieces_iff` — there is one way to take a text apart at every delimiter.
-/

namespace Coap

theorem notMem_of_mem_splitOn {separator : Char} {cs piece : List Char}
    (h : piece ∈ cs.splitOn separator) : separator ∉ piece := by
  induction cs generalizing piece with
  | nil =>
      rw [List.splitOn_nil, List.mem_singleton] at h
      simp [h]
  | cons c rest ih =>
      rw [List.splitOn_cons_eq_if_modifyHead] at h
      by_cases hc : c = separator
      · rw [if_pos (by simp [hc])] at h
        rcases List.mem_cons.mp h with rfl | hrest
        · simp
        · exact ih hrest
      · rw [if_neg (by simp [hc])] at h
        cases hsplit : rest.splitOn separator with
        | nil => exact absurd hsplit (List.splitOn_ne_nil separator rest)
        | cons first others =>
            rw [hsplit] at h ih
            rcases List.mem_cons.mp h with rfl | hothers
            · simp [Ne.symm hc, ih List.mem_cons_self]
            · exact ih (List.mem_cons_of_mem first hothers)

theorem mem_intercalate_singleton {separator c : Char} {pieces : List (List Char)}
    (h : c ∈ [separator].intercalate pieces) : c = separator ∨ ∃ p ∈ pieces, c ∈ p := by
  induction pieces with
  | nil => simp at h
  | cons first others ih =>
      cases others with
      | nil => exact .inr ⟨first, by simp, by simpa using h⟩
      | cons second more =>
          rw [List.intercalate_cons_cons] at h
          simp only [List.mem_append, List.mem_singleton] at h
          rcases h with (hfirst | hsep) | hrest
          · exact .inr ⟨first, by simp, hfirst⟩
          · exact .inl hsep
          · rcases ih hrest with hsep | ⟨p, hp, hc⟩
            · exact .inl hsep
            · exact .inr ⟨p, List.mem_cons_of_mem _ hp, hc⟩

/-- A text is cut where the first character stands that is not allowed. -/
theorem takeWhile_append_of_stop {p : Char → Bool} {front back : List Char}
    (hfront : ∀ c ∈ front, p c = true) (hback : back.head?.all (!p ·) = true) :
    (front ++ back).takeWhile p = front := by
  rw [List.takeWhile_append_of_pos hfront]
  cases back with
  | nil => simp
  | cons c rest => simp_all

theorem dropWhile_append_of_stop {p : Char → Bool} {front back : List Char}
    (hfront : ∀ c ∈ front, p c = true) (hback : back.head?.all (!p ·) = true) :
    (front ++ back).dropWhile p = back := by
  rw [List.dropWhile_append_of_pos hfront]
  cases back with
  | nil => simp
  | cons c rest => simp_all

/-- A text is cut in front of the first character that does not satisfy `p`. -/
structure CutAt (p : Char → Bool) (cs front back : List Char) : Prop where
  eq_append : cs = front ++ back
  front : ∀ c ∈ front, p c = true
  back : back.head?.all (!p ·) = true

/-- There is one way to cut a text at the first character that stops it. -/
theorem cutAt_iff {p : Char → Bool} {cs front back : List Char} :
    CutAt p cs front back ↔ cs.takeWhile p = front ∧ cs.dropWhile p = back := by
  constructor
  · rintro ⟨rfl, hfront, hback⟩
    exact ⟨takeWhile_append_of_stop hfront hback, dropWhile_append_of_stop hfront hback⟩
  · rintro ⟨rfl, rfl⟩
    refine ⟨List.takeWhile_append_dropWhile.symm, ?_, ?_⟩
    · exact List.all_eq_true.mp List.all_takeWhile
    · have hstop := List.head?_dropWhile_not p cs
      cases hback : (cs.dropWhile p).head? with
      | none => rfl
      | some c =>
          rw [hback] at hstop
          simpa using hstop

theorem exists_cutAt (p : Char → Bool) (cs : List Char) :
    ∃ front back, CutAt p cs front back :=
  ⟨_, _, cutAt_iff.mpr ⟨rfl, rfl⟩⟩

/-- A text that no stopping character stands in is not stopped. -/
theorem forall_of_notMem {p : Char → Bool} {cs : List Char}
    (h : ∀ c, p c = false → c ∉ cs) : ∀ c ∈ cs, p c = true := by
  intro c hc
  cases hp : p c with
  | true => rfl
  | false => exact absurd hc (h c hp)

theorem CutAt.notMem_front {p : Char → Bool} {cs front back : List Char}
    (h : CutAt p cs front back) {c : Char} (hc : p c = false) : c ∉ front := fun hmem => by
  rw [h.front c hmem] at hc
  contradiction

theorem CutAt.unique {p : Char → Bool} {cs front back front' back' : List Char}
    (h : CutAt p cs front back) (h' : CutAt p cs front' back') :
    front = front' ∧ back = back' := by
  rw [cutAt_iff] at h h'
  exact ⟨h.1.symm.trans h'.1, h.2.symm.trans h'.2⟩

/-- The pieces that a text is taken apart into, joined by a separator that stands in none
of them. -/
structure Pieces (separator : Char) (cs : List Char) (pieces : List (List Char)) :
    Prop where
  ne_nil : pieces ≠ []
  free : ∀ piece ∈ pieces, separator ∉ piece
  joined : [separator].intercalate pieces = cs

/-- There is one way to take a text apart at every delimiter. -/
theorem pieces_iff {separator : Char} {cs : List Char} {pieces : List (List Char)} :
    Pieces separator cs pieces ↔ cs.splitOn separator = pieces := by
  constructor
  · rintro ⟨hne, hfree, rfl⟩
    exact List.splitOn_intercalate separator hfree hne
  · rintro rfl
    exact ⟨List.splitOn_ne_nil separator cs, fun _ => notMem_of_mem_splitOn,
      List.intercalate_splitOn separator⟩

end Coap
