import Coap.Proofs.Codec.Reading
import Coap.Proofs.Bytes.Stateful

/-!
# Reading options in place

A cursor holds the rest that is left to read, and a reader that fails gives
none back. Here the same readers walk over all of the data: a place in it is
moved along, and after a failure it stays where the failure was found. What
stands in front of the place is there to be looked at, and whether it has moved
can be asked of a reader that failed.

That a walk does what reading does is shown once, for cursors that count their
position from any place of the data: the walk ends like the reader, its place
and the offsets in its errors being further by the place that was counted from.
With a cursor that counts from the start of the data nothing is moved, and with
one that counts from the place where reading begins, everything is told by the
rest alone.

## Main results

* `InPlace.At.collectFrom_ends` — a walk over options ends like the reader of a
  cursor that counts from anywhere.
* `InPlace.countFrom_eq` — the walk that counts and the one that collects agree,
  on failures too.
* `InPlace.At.read_eq` — reading in place gives what the cursor gives, and has
  not moved where it fails.
-/

namespace Coap

/-! ## Walks over the data -/

/-- A reader that moves a place along, on failures too. -/
abbrev InPlace := ExceptT CodecError (StateM Nat)

namespace InPlace

variable {α β : Type}

/-- What a reader that stands at `p` reads, and where it stands then. -/
def readAt (x : InPlace α) (p : Nat) : Except CodecError α × Nat :=
  x.run.run p

theorem readAt_get_bind (f : Nat → InPlace α) (p : Nat) :
    (get >>= f).readAt p = (f p).readAt p := rfl

theorem readAt_bind_of_ok {x : InPlace α} {p q : Nat} {a : α}
    (h : x.readAt p = (.ok a, q)) (f : α → InPlace β) :
    (x >>= f).readAt p = (f a).readAt q :=
  Stateful.runFrom_bind_of_ok h f

theorem readAt_bind_of_error {x : InPlace α} {p q : Nat} {e : CodecError}
    (h : x.readAt p = (.error e, q)) (f : α → InPlace β) :
    (x >>= f).readAt p = (.error e, q) :=
  Stateful.runFrom_bind_of_error h f

variable (data : Bytes)

/-- Walk over the next `n` bytes, if they lie in the data. -/
def next (n : Nat) : InPlace Bytes := do
  let p ← get
  if p + n ≤ data.length then
    set (p + n)
    return (data.drop p).take n
  else
    throw (.bounds p n (data.length - p))

/-- Walk over one byte. -/
def nextUInt8 : InPlace UInt8 := do
  let raw ← next data 1
  return raw.getD 0 0

/-- Walk over a 16-bit word. -/
def nextUInt16 : InPlace UInt16 := do
  let raw ← next data 2
  return Bytes.join16 (raw.getD 0 0) (raw.getD 1 0)

/-- Walk over the extension that goes with a nibble. -/
def field (nibble : UInt8) (headOffset : Nat) : InPlace ExtendedField :=
  if nibble < 13 then return .inline nibble
  else if nibble = 13 then return .oneByte (← nextUInt8 data)
  else if nibble = 14 then return .twoBytes (← nextUInt16 data)
  else throw (.reservedNibble headOffset)

/-- Walk over the extensions of a head. The offset is that of the head. -/
def readHead (previous : UInt16) (offset : Nat) (head : UInt8) :
    InPlace Options.Head := do
  let delta ← field data (head / 16) offset
  let length ← field data (head % 16) offset
  if previous.toNat + delta.value < 65536 then
    return ⟨UInt16.ofNat (previous.toNat + delta.value), length.value⟩
  else
    throw (.optionNumberOverflow offset)

/-- Walk over the head of the option that follows one numbered `previous`, if
there is one. -/
def readHead? (previous : UInt16) : InPlace (Option Options.Head) := do
  let offset ← get
  match data[offset]? with
  | none => return none
  | some first =>
      if first = payloadMarker then return none
      else
        let head ← nextUInt8 data
        return some (← readHead data previous offset head)

/-- Walk over the option that follows one numbered `previous`, if there is
one. -/
def next? (previous : UInt16) : InPlace (Option MessageOption) := do
  match ← readHead? data previous with
  | none => return none
  | some head =>
      let value ← next data head.length
      return some ⟨head.number, value⟩

end InPlace

/-! ## Reading in the same steps

A cursor takes a word off its rest at once, and an option with its head. In
place a word is read as the bytes that it has, and an option after its head.
-/

namespace Cursor

theorem nextUInt8_eq_map_next (c : Cursor) :
    c.nextUInt8 = (c.next 1).map fun r => (r.1.getD 0 0, r.2) := by
  rcases c with ⟨p, rest⟩
  cases rest <;> rfl

theorem nextUInt16_eq_map_next (c : Cursor) :
    c.nextUInt16 =
      (c.next 2).map fun r => (Bytes.join16 (r.1.getD 0 0) (r.1.getD 1 0), r.2) := by
  rcases c with ⟨p, rest⟩
  rcases rest with _ | ⟨a, _ | ⟨b, rest⟩⟩ <;> rfl

end Cursor

namespace Options

/-- Read the head of the option that follows one numbered `previous`, if there
is one. -/
def readHead? (previous : UInt16) (c : Cursor) :
    Except CodecError (Option Head × Cursor) :=
  match c.rest with
  | [] => .ok (none, c)
  | first :: rest =>
      if first = payloadMarker then .ok (none, c)
      else
        (readHead previous c.position first ⟨c.position + 1, rest⟩).map
          fun r => (some r.1, r.2)

/-- The cursor where reading goes on: behind an option, or still where there is
none. -/
def goOn (c : Cursor) : Option (MessageOption × Cursor) →
    Option MessageOption × Cursor
  | none => (none, c)
  | some (o, c') => (some o, c')

/-- Read the value that a head announces. -/
def readValue? : Option Head × Cursor →
    Except CodecError (Option MessageOption × Cursor)
  | (none, c) => .ok (none, c)
  | (some h, c) =>
      (c.next h.length).map fun r => (some ⟨h.number, r.1⟩, r.2)

theorem next?_eq_readHead?_bind (previous : UInt16) (c : Cursor) :
    (next? previous c).map (goOn c) = readHead? previous c >>= readValue? := by
  obtain ⟨position, rest⟩ := c
  cases rest with
  | nil => rfl
  | cons first rest =>
      by_cases hm : first = payloadMarker
      · simp only [next?, readHead?, if_pos hm]
        rfl
      · simp only [next?, readHead?, if_neg hm]
        cases readHead previous position first ⟨position + 1, rest⟩ with
        | error e => rfl
        | ok r =>
            obtain ⟨h, c₁⟩ := r
            simp only [bind, Except.bind, Except.map, readValue?]
            cases c₁.next h.length <;> rfl

end Options

/-! ## Ending alike -/

/-- The same failure, found `d` bytes further on. -/
inductive CodecError.Moved (d : Nat) : CodecError → CodecError → Prop where
  | bounds (offset needed available : Nat) :
      Moved d (.bounds offset needed available)
        (.bounds (offset + d) needed available)
  | optionNumberOverflow (offset : Nat) :
      Moved d (.optionNumberOverflow offset) (.optionNumberOverflow (offset + d))
  | reservedNibble (offset : Nat) :
      Moved d (.reservedNibble offset) (.reservedNibble (offset + d))

namespace CodecError

theorem Moved.unique {d : Nat} {e e₁ e₂ : CodecError} (h₁ : Moved d e e₁)
    (h₂ : Moved d e e₂) : e₁ = e₂ := by
  cases h₁ <;> cases h₂ <;> rfl

theorem Moved.eq_of_zero {e e' : CodecError} (h : Moved 0 e e') : e' = e := by
  cases h <;> rfl

end CodecError

namespace InPlace

variable {α β : Type} {data : Bytes} {d p : Nat} {c : Cursor}

/-- The cursor has the rest from the place `p` on, and counts its position from
the place `d`. -/
structure At (data : Bytes) (d : Nat) (c : Cursor) (p : Nat) : Prop where
  rest : c.rest = data.drop p
  place : p = c.position + d
  inside : p ≤ data.length

/-- What a cursor gives is found in place: the same value, with the place where
the cursor is left, or the failure with its offset counted from the start. -/
inductive Ends (data : Bytes) (d : Nat) :
    Except CodecError (α × Cursor) → Except CodecError α × Nat → Prop where
  | ok {a : α} {c : Cursor} {p : Nat} (h : At data d c p) :
      Ends data d (.ok (a, c)) (.ok a, p)
  | error {e e' : CodecError} {p : Nat} (h : e.Moved d e') :
      Ends data d (.error e) (.error e', p)

theorem Ends.of_ok {a : α} {y : Except CodecError α × Nat}
    (h : Ends data d (.ok (a, c)) y) : ∃ q, y = (.ok a, q) ∧ At data d c q := by
  cases h with
  | ok hc => exact ⟨_, rfl, hc⟩

theorem Ends.of_error {e : CodecError} {y : Except CodecError α × Nat}
    (h : Ends data d (.error e) y) :
    ∃ e' q, y = (.error e', q) ∧ e.Moved d e' := by
  cases h with
  | error he => exact ⟨_, _, rfl, he⟩

theorem Ends.bind {x : Except CodecError (α × Cursor)} {X : InPlace α}
    {f : α × Cursor → Except CodecError (β × Cursor)} {F : α → InPlace β}
    (h : Ends data d x (X.readAt p))
    (hf : ∀ a c q, At data d c q → Ends data d (f (a, c)) ((F a).readAt q)) :
    Ends data d (x >>= f) ((X >>= F).readAt p) := by
  generalize hX : X.readAt p = y at h
  cases h with
  | ok hc =>
      rw [readAt_bind_of_ok hX]
      exact hf _ _ _ hc
  | error he =>
      rw [readAt_bind_of_error hX]
      exact .error he

theorem Ends.map {x : Except CodecError (α × Cursor)} {X : InPlace α}
    (h : Ends data d x (X.readAt p)) (g : α → β) :
    Ends data d (x.map fun r => (g r.1, r.2))
      ((X >>= fun a => pure (g a)).readAt p) := by
  have hbind := h.bind (f := fun r => .ok (g r.1, r.2))
    (F := fun a => pure (g a)) fun _ _ _ hq => .ok hq
  cases x <;> exact hbind

namespace At

theorem remaining (h : At data d c p) : data.length - p = c.remaining := by
  rw [Cursor.remaining, h.rest, List.length_drop]

/-- The byte in place is the next one of the cursor. -/
theorem getElem? (h : At data d c p) : data[p]? = c.rest.head? := by
  rw [h.rest, List.head?_drop]

/-- A cursor that goes on by `n` bytes stands in place again. -/
theorem forward (h : At data d c p) {n : Nat} (hn : n ≤ c.remaining) :
    At data d ⟨c.position + n, c.rest.drop n⟩ (p + n) where
  rest := by rw [h.rest, List.drop_drop]
  place := by rw [h.place]; exact Nat.add_right_comm ..
  inside := by
    have := h.remaining
    have := h.inside
    omega

theorem next_ends (h : At data d c p) (n : Nat) :
    Ends data d (c.next n) ((next data n).readAt p) := by
  have hremaining := h.remaining
  have hinside := h.inside
  rw [next, readAt_get_bind]
  by_cases hn : n ≤ c.remaining
  · rw [Cursor.next_of_le hn, if_pos (by omega), h.rest]
    exact .ok (h.rest ▸ h.forward hn)
  · rw [Cursor.next_of_lt (by omega), if_neg (by omega), hremaining, h.place]
    exact .error (.bounds ..)

theorem nextUInt8_ends (h : At data d c p) :
    Ends data d c.nextUInt8 ((nextUInt8 data).readAt p) := by
  rw [Cursor.nextUInt8_eq_map_next]
  exact (h.next_ends 1).map fun raw => raw.getD 0 0

theorem nextUInt16_ends (h : At data d c p) :
    Ends data d c.nextUInt16 ((nextUInt16 data).readAt p) := by
  rw [Cursor.nextUInt16_eq_map_next]
  exact (h.next_ends 2).map fun raw => Bytes.join16 (raw.getD 0 0) (raw.getD 1 0)

theorem field_ends (h : At data d c p) (nibble : UInt8) (offset : Nat) :
    Ends data d (ExtendedField.decode nibble offset c)
      ((field data nibble (offset + d)).readAt p) := by
  unfold ExtendedField.decode field
  split
  · exact .ok h
  · split
    · exact h.nextUInt8_ends.map ExtendedField.oneByte
    · split
      · exact h.nextUInt16_ends.map ExtendedField.twoBytes
      · exact .error (.reservedNibble offset)

theorem readHead_ends (h : At data d c p) (previous : UInt16) (offset : Nat)
    (head : UInt8) :
    Ends data d (Options.readHead previous offset head c)
      ((readHead data previous (offset + d) head).readAt p) := by
  refine (h.field_ends (head / 16) offset).bind fun delta c₁ p₁ h₁ => ?_
  refine (h₁.field_ends (head % 16) offset).bind fun length c₂ p₂ h₂ => ?_
  dsimp only
  split
  · exact .ok h₂
  · exact .error (.optionNumberOverflow offset)

theorem readHead?_ends (h : At data d c p) (previous : UInt16) :
    Ends data d (Options.readHead? previous c)
      ((readHead? data previous).readAt p) := by
  rw [readHead?, readAt_get_bind, h.getElem?]
  unfold Options.readHead?
  cases hc : c.rest with
  | nil => exact .ok h
  | cons first rest =>
      by_cases hm : first = payloadMarker
      · simp only [List.head?_cons, if_pos hm]
        exact .ok h
      · simp only [List.head?_cons, if_neg hm]
        have hfirst := h.nextUInt8_ends
        rw [Cursor.nextUInt8, hc] at hfirst
        obtain ⟨q, hq, h₁⟩ := hfirst.of_ok
        rw [readAt_bind_of_ok hq, h.place]
        exact (h₁.readHead_ends previous c.position first).map some

theorem next?_ends (h : At data d c p) (previous : UInt16) :
    Ends data d ((Options.next? previous c).map (Options.goOn c))
      ((next? data previous).readAt p) := by
  rw [Options.next?_eq_readHead?_bind]
  refine (h.readHead?_ends previous).bind fun head c₁ p₁ h₁ => ?_
  cases head with
  | none => exact .ok h₁
  | some head =>
      exact (h₁.next_ends head.length).map fun value =>
        some (MessageOption.mk head.number value)

/-! ### Each way an option is looked for -/

variable {previous : UInt16}

theorem next?_of_error (h : At data d c p) {e : CodecError}
    (hn : Options.next? previous c = .error e) :
    ∃ e' q, (next? data previous).readAt p = (.error e', q) ∧ e.Moved d e' := by
  have hends := h.next?_ends previous
  rw [hn] at hends
  exact hends.of_error

theorem next?_of_none (h : At data d c p)
    (hn : Options.next? previous c = .ok none) :
    (next? data previous).readAt p = (.ok none, p) := by
  have hends := h.next?_ends previous
  rw [hn] at hends
  obtain ⟨q, hq, hc⟩ := hends.of_ok
  rw [hq, h.place, hc.place]

theorem next?_of_some (h : At data d c p) {o : MessageOption} {c' : Cursor}
    (hn : Options.next? previous c = .ok (some (o, c'))) :
    ∃ q, (next? data previous).readAt p = (.ok (some o), q) ∧ At data d c' q := by
  have hends := h.next?_ends previous
  rw [hn] at hends
  exact hends.of_ok

end At

/-- The cursor behind `before`, counting from the start of the data. -/
theorem at_behind (before rest : Bytes) :
    At (before ++ rest) 0 ⟨before.length, rest⟩ before.length where
  rest := List.drop_left.symm
  place := rfl
  inside := by simp

/-- The cursor behind `before`, counting from there. -/
theorem at_start (before rest : Bytes) :
    At (before ++ rest) before.length (.ofBytes rest) before.length where
  rest := List.drop_left.symm
  place := (Nat.zero_add _).symm
  inside := by simp

/-! ## Walking over all options -/

/-- Behind an option less of the data is left. -/
theorem next?_advances {previous : UInt16} {o : MessageOption} {q : Nat}
    (h : (next? data previous).readAt p = (.ok (some o), q)) :
    data.length - q < data.length - p := by
  by_cases hp : p ≤ data.length
  · have hat : At data 0 ⟨p, data.drop p⟩ p := ⟨rfl, rfl, hp⟩
    cases hn : Options.next? previous ⟨p, data.drop p⟩ with
    | error e =>
        obtain ⟨e', q', he, -⟩ := hat.next?_of_error hn
        rw [h] at he
        cases he
    | ok r =>
        cases r with
        | none =>
            rw [hat.next?_of_none hn] at h
            cases h
        | some r =>
            obtain ⟨o', c'⟩ := r
            obtain ⟨q', hq, hat'⟩ := hat.next?_of_some hn
            rw [h] at hq
            cases hq
            rw [hat.remaining, hat'.remaining]
            exact (Options.next?_spec hn).2
  · have hnone : data[p]? = none := List.getElem?_eq_none (by omega)
    have hend : (next? data previous).readAt p = (.ok none, p) := by
      rw [next?, readHead?, bind_assoc, readAt_get_bind, hnone]
      rfl
    rw [hend] at h
    cases h

/-- Count the options that follow one numbered `previous`. The place is a copy,
and is not told. -/
def countFrom (data : Bytes) (previous : UInt16) (p : Nat) :
    Except CodecError Nat :=
  match _h : (next? data previous).readAt p with
  | (.error e, _) => .error e
  | (.ok none, _) => .ok 0
  | (.ok (some o), q) => (countFrom data o.number q).map (· + 1)
termination_by data.length - p
decreasing_by exact next?_advances _h

/-- Collect the options that follow one numbered `previous`. -/
def collectFrom (data : Bytes) (previous : UInt16) (p : Nat) :
    Except CodecError (List MessageOption) × Nat :=
  match _h : (next? data previous).readAt p with
  | (.error e, q) => (.error e, q)
  | (.ok none, q) => (.ok [], q)
  | (.ok (some o), q) =>
      let r := collectFrom data o.number q
      (r.1.map (o :: ·), r.2)
termination_by data.length - p
decreasing_by exact next?_advances _h

/-- Read the options at a place, counting them on a copy of it first. -/
def read (data : Bytes) (p : Nat) : Except CodecError (List MessageOption) × Nat :=
  match countFrom data 0 p with
  | .error e => (.error e, p)
  | .ok _ => collectFrom data 0 p

variable {previous : UInt16}

theorem collectFrom_of_error {e : CodecError} {q : Nat}
    (h : (next? data previous).readAt p = (.error e, q)) :
    collectFrom data previous p = (.error e, q) := by
  rw [collectFrom]
  split
  · next hx => rw [h] at hx; cases hx; rfl
  · next hx => rw [h] at hx; cases hx
  · next hx => rw [h] at hx; cases hx

theorem collectFrom_of_none {q : Nat}
    (h : (next? data previous).readAt p = (.ok none, q)) :
    collectFrom data previous p = (.ok [], q) := by
  rw [collectFrom]
  split
  · next hx => rw [h] at hx; cases hx
  · next hx => rw [h] at hx; cases hx; rfl
  · next hx => rw [h] at hx; cases hx

theorem collectFrom_of_some {o : MessageOption} {q : Nat}
    (h : (next? data previous).readAt p = (.ok (some o), q)) :
    collectFrom data previous p =
      ((collectFrom data o.number q).1.map (o :: ·),
        (collectFrom data o.number q).2) := by
  rw [collectFrom]
  split
  · next hx => rw [h] at hx; cases hx
  · next hx => rw [h] at hx; cases hx
  · next hx => rw [h] at hx; cases hx; rfl

/-- A walk over options ends like the reader of a cursor that counts from
anywhere. -/
theorem At.collectFrom_ends (h : At data d c p) (previous : UInt16) :
    Ends data d (Options.collectFrom previous c) (collectFrom data previous p) := by
  fun_induction Options.collectFrom previous c generalizing p with
  | case1 previous c e hn =>
      obtain ⟨e', q, hq, he⟩ := h.next?_of_error hn
      rw [collectFrom_of_error hq]
      exact .error he
  | case2 previous c hn =>
      rw [collectFrom_of_none (h.next?_of_none hn)]
      exact .ok h
  | case3 previous c o c₁ hn ih =>
      obtain ⟨q, hq, h₁⟩ := h.next?_of_some hn
      have hrest := ih h₁
      rw [collectFrom_of_some hq]
      generalize collectFrom data o.number q = y at hrest ⊢
      generalize Options.collectFrom o.number c₁ = x at hrest ⊢
      cases hrest with
      | ok hc => exact .ok hc
      | error he => exact .error he

/-- The walk that counts fails where the walk that collects fails, and counts
what the other one collects. -/
theorem countFrom_eq (data : Bytes) (previous : UInt16) (p : Nat) :
    countFrom data previous p = (collectFrom data previous p).1.map List.length := by
  fun_induction countFrom data previous p with
  | case1 previous p e q hn => rw [collectFrom_of_error hn]; rfl
  | case2 previous p q hn => rw [collectFrom_of_none hn]; rfl
  | case3 previous p o q hn ih =>
      rw [ih, collectFrom_of_some hn]
      cases (collectFrom data o.number q).1 <;> rfl

/-- Reading options in place gives what the cursor gives; where that fails, the
place has not moved. -/
theorem At.read_eq (h : At data 0 c p) :
    read data p =
      match Options.read c with
      | .ok (s, c') => (.ok s.toList, c'.position)
      | .error e => (.error e, p) := by
  have hends := h.collectFrom_ends 0
  rw [read, countFrom_eq]
  cases hc : Options.collectFrom 0 c with
  | error e =>
      rw [hc] at hends
      obtain ⟨e', q, hq, he⟩ := hends.of_error
      rw [hq, he.eq_of_zero, Options.read_of_collectFrom_error hc]
      rfl
  | ok r =>
      rw [hc] at hends
      obtain ⟨q, hq, hc'⟩ := hends.of_ok
      have hread : Options.read c =
          .ok (⟨r.1, (Options.ascending_collect hc).1⟩, r.2) :=
        Options.read_eq_ok_iff_collectFrom.mpr hc
      rw [hq, hread, hc'.place]
      rfl

end InPlace

end Coap
