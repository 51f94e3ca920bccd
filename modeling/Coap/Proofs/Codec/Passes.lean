import Coap.Proofs.Codec.InPlace

/-!
# The two passes over options

Options are walked over twice, first on a copy of the place to count them, and
then to collect them. Both walks are loops over the same step, so whatever the
data, the second one comes to an end or a failure exactly where the first one
did; a failure is therefore always found on the copy, and the place itself has
not moved.

Where the walks end can be told from the grammar: the heads of options stand
behind some number of whole options, and the first such place that holds the
payload marker, or nothing, is the end. What stands in front of the options or
behind that place has no part in it.

## Main results

* `Options.read_eq_ok_iff_firstEnd` — options are read up to the first place
  for a head that holds none.
* `Options.collectFrom_error_iff_moved` — what is wrong with the unread rest
  is what is told at any place, with its offset moved.
* `Options.read_decided_by_rest` — everything that is read at a place, by the
  unread rest alone.
-/

namespace Coap

open Grammar

namespace Options

variable {rest text after : Bytes} {l : List MessageOption} {k p : Nat}

/-! ## Where options end -/

/-- After `k` bytes of the rest, which are a number of whole options, the head
of the next option would stand. -/
def HeadPlace (rest : Bytes) (k : Nat) : Prop :=
  ∃ l text after, OptionsForm 0 l text ∧ rest = text ++ after ∧ text.length = k

theorem HeadPlace.length_take (h : HeadPlace rest k) :
    (rest.take k).length = k := by
  obtain ⟨_, text, _, _, rfl, rfl⟩ := h
  rw [List.take_left]

/-- The first place for a head where the payload marker stands or the data
end. -/
structure FirstEnd (rest : Bytes) (k : Nat) : Prop where
  headPlace : HeadPlace rest k
  atEnd : AtEnd ⟨k, rest.drop k⟩
  first : ∀ j < k, HeadPlace rest j →
    ∃ head, rest[j]? = some head ∧ head ≠ payloadMarker

theorem reads_append (p : Nat) (text after : Bytes) :
    Cursor.Reads ⟨p, text ++ after⟩ text ⟨p + text.length, after⟩ := ⟨rfl, rfl⟩

/-- Options are read from the start of a rest if they end there. -/
theorem collectFrom_append (hform : OptionsForm 0 l text) {q : Nat}
    (hend : AtEnd ⟨q, after⟩) (p : Nat) :
    collectFrom 0 ⟨p, text ++ after⟩ = .ok (l, ⟨p + text.length, after⟩) :=
  collectFrom_of_optionsForm hform rfl (reads_append p text after) hend

theorem firstEnd_of_optionsForm (hform : OptionsForm 0 l text) {q : Nat}
    (hend : AtEnd ⟨q, after⟩) : FirstEnd (text ++ after) text.length where
  headPlace := ⟨l, text, after, hform, rfl, rfl⟩
  atEnd := by rwa [List.drop_left]
  first := by
    rintro j hj ⟨l', text', after', hform', heq, rfl⟩
    have hlength := congrArg List.length heq
    simp only [List.length_append] at hlength
    cases after' with
    | nil =>
        rw [List.length_nil] at hlength
        omega
    | cons head others =>
        refine ⟨head, ?_, fun hmarker => ?_⟩
        · rw [heq, List.getElem?_append_right (Nat.le_refl _), Nat.sub_self]
          rfl
        · have hread := collectFrom_append hform hend 0
          have hend' : AtEnd ⟨0, head :: others⟩ := .inr ⟨others, by rw [hmarker]⟩
          rw [heq, collectFrom_append hform' hend' 0] at hread
          simp only [Except.ok.injEq, Prod.mk.injEq, Cursor.mk.injEq] at hread
          omega

theorem read_eq_ok_iff_firstEnd {s : Options} {c : Cursor} :
    read ⟨p, rest⟩ = .ok (s, c) ↔
      ∃ k, FirstEnd rest k ∧ OptionsForm 0 s.toList (rest.take k) ∧
        c = ⟨p + k, rest.drop k⟩ := by
  rw [read_eq_ok_iff]
  constructor
  · rintro ⟨text, hform, hreads, hend⟩
    obtain ⟨q, after⟩ := c
    obtain ⟨hrest, hplace⟩ := hreads
    simp only at hrest hplace
    subst hrest hplace
    refine ⟨text.length, firstEnd_of_optionsForm hform hend, ?_, ?_⟩
    · rwa [List.take_left]
    · rw [List.drop_left]
  · rintro ⟨k, hfirst, hform, rfl⟩
    refine ⟨rest.take k, hform, ⟨(List.take_append_drop k rest).symm, ?_⟩, ?_⟩
    · rw [hfirst.headPlace.length_take]
    · exact hfirst.atEnd

/-! ## Counting from another place -/

theorem collectFrom_eq_ok_at {c : Cursor}
    (h : collectFrom 0 ⟨p, rest⟩ = .ok (l, c)) (q : Nat) :
    ∃ c', collectFrom 0 ⟨q, rest⟩ = .ok (l, c') := by
  obtain ⟨text, hform, hreads, hend⟩ := collectFrom_eq_ok_iff.mp h
  have hrest : rest = text ++ c.rest := hreads.rest
  rw [hrest]
  exact ⟨_, collectFrom_append hform hend q⟩

/-- What is wrong with a rest is told at any place, its offset moved by that
place. -/
theorem collectFrom_error_iff_moved {before : Bytes} {e : CodecError} :
    collectFrom 0 ⟨before.length, rest⟩ = .error e ↔
      ∃ e₀, collectFrom 0 (.ofBytes rest) = .error e₀ ∧
        e₀.Moved before.length e := by
  -- both cursors are walked along by the same reader in place
  have hplace := (InPlace.at_behind before rest).collectFrom_ends 0
  have hstart := (InPlace.at_start before rest).collectFrom_ends 0
  generalize InPlace.collectFrom (before ++ rest) 0 before.length = y at hplace hstart
  generalize collectFrom 0 ⟨before.length, rest⟩ = x at hplace ⊢
  generalize collectFrom 0 (.ofBytes rest) = x₀ at hstart ⊢
  cases hplace with
  | ok _ =>
      cases hstart with
      | ok _ => simp
  | error he =>
      cases hstart with
      | error he₀ =>
          cases he.eq_of_zero
          constructor
          · rintro ⟨⟩
            exact ⟨_, rfl, he₀⟩
          · rintro ⟨_, ⟨⟩, hmoved⟩
            rw [he₀.unique hmoved]

theorem count_eq (rest : Bytes) :
    count rest = (collectFrom 0 (.ofBytes rest)).map fun r => r.1.length :=
  countFrom_eq 0 _

theorem count_eq_error_iff {e : CodecError} :
    count rest = .error e ↔ collectFrom 0 (.ofBytes rest) = .error e := by
  rw [count_eq]
  cases collectFrom 0 (.ofBytes rest) <;> simp [Except.map]

/-- As many options are counted as are collected at any place. -/
theorem count_eq_ok_iff {n : Nat} (p : Nat) :
    count rest = .ok n ↔
      ∃ l c, collectFrom 0 ⟨p, rest⟩ = .ok (l, c) ∧ l.length = n := by
  rw [count_eq]
  constructor
  · intro h
    cases hc : collectFrom 0 (.ofBytes rest) with
    | error e =>
        rw [hc] at h
        contradiction
    | ok r =>
        rw [hc] at h
        cases h
        obtain ⟨c, hc⟩ := collectFrom_eq_ok_at hc p
        exact ⟨r.1, c, hc, rfl⟩
  · rintro ⟨l, c, hc, rfl⟩
    obtain ⟨c₀, hc₀⟩ := collectFrom_eq_ok_at hc 0
    rw [Cursor.ofBytes, hc₀]
    rfl

/-! ## Everything that is read -/

/-- All that reading options at the place behind `before` comes to, told by the
`rest` that is left there. -/
structure DecidedByRest (before rest : Bytes) : Prop where
  /-- In place, reading gives what the cursor gives, and a failure leaves the
  place as it was. -/
  inPlace :
    InPlace.read (before ++ rest) before.length =
      match read ⟨before.length, rest⟩ with
      | .ok (s, c) => (.ok s.toList, c.position)
      | .error e => (.error e, before.length)
  /-- The walk that collects finds as many options as were counted. -/
  secondPass : ∀ n, count rest = .ok n →
    ∃ l q, InPlace.collectFrom (before ++ rest) 0 before.length = (.ok l, q) ∧
      l.length = n
  /-- Options are read exactly if those of the rest can be counted, and as
  many. -/
  success : ∀ n, count rest = .ok n ↔
    ∃ s c, read ⟨before.length, rest⟩ = .ok (s, c) ∧ s.toList.length = n
  /-- A failure is that of counting the rest, with its offset moved. -/
  failure : ∀ e, read ⟨before.length, rest⟩ = .error e ↔
    ∃ e₀, count rest = .error e₀ ∧ e₀.Moved before.length e
  /-- The options are those up to the first place for a head that holds none,
  and the cursor is left there. -/
  stop : ∀ s c, read ⟨before.length, rest⟩ = .ok (s, c) ↔
    ∃ k, FirstEnd rest k ∧ OptionsForm 0 s.toList (rest.take k) ∧
      c = ⟨before.length + k, rest.drop k⟩
  /-- They are those of the rest alone, and the same at any other place and in
  front of any other end. -/
  alone : ∀ s c, read ⟨before.length, rest⟩ = .ok (s, c) →
    ∃ k, c = ⟨before.length + k, rest.drop k⟩ ∧
      read (.ofBytes rest) = .ok (s, ⟨k, rest.drop k⟩) ∧
      ∀ q after, AtEnd ⟨q, after⟩ →
        read ⟨q, rest.take k ++ after⟩ = .ok (s, ⟨q + k, after⟩)

/-- Whatever is in front of the place and whatever is left there, reading ends
as the rest alone decides, on the count of the first pass. -/
theorem read_decided_by_rest (before rest : Bytes) :
    DecidedByRest before rest where
  inPlace := (InPlace.at_behind before rest).read_eq
  secondPass n hcount := by
    obtain ⟨l, c, hc, hlength⟩ := (count_eq_ok_iff before.length).mp hcount
    have hends := (InPlace.at_behind before rest).collectFrom_ends 0
    rw [hc] at hends
    obtain ⟨q, hq, -⟩ := hends.of_ok
    exact ⟨l, q, hq, hlength⟩
  success n := by
    rw [count_eq_ok_iff before.length]
    constructor
    · rintro ⟨l, c, hc, hlength⟩
      exact ⟨⟨l, (ascending_collect hc).1⟩, c,
        read_eq_ok_iff_collectFrom.mpr hc, hlength⟩
    · rintro ⟨s, c, hread, hlength⟩
      exact ⟨s.toList, c, read_eq_ok_iff_collectFrom.mp hread, hlength⟩
  failure e := by
    rw [read_eq_error_iff, collectFrom_error_iff_moved]
    simp only [count_eq_error_iff]
  stop s c := read_eq_ok_iff_firstEnd
  alone s c hread := by
    obtain ⟨k, hfirst, hform, hc⟩ := read_eq_ok_iff_firstEnd.mp hread
    refine ⟨k, hc, ?_, fun q after hend => ?_⟩
    · exact read_eq_ok_iff_firstEnd.mpr ⟨k, hfirst, hform, by rw [Nat.zero_add]⟩
    · have htake := collectFrom_append hform hend q
      rw [hfirst.headPlace.length_take] at htake
      exact read_eq_ok_iff_collectFrom.mpr htake

end Options

end Coap
