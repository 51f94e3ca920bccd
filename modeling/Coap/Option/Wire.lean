import Coap.Bytes.Buffer
import Coap.Option.List

/-!
# Options on the wire

Options are written one behind the other, each with the difference of its
number to the number before it. The byte 0xFF in the place of an option's
head, or the end of the data, ends them; that byte is left for the reader
of what follows.

Reading goes over the data twice: the first pass counts the options and
checks their framing, the second one collects them. A failure is found in
the first pass, before the cursor has moved.

## Main results

* `ascending_collect` — the options that are read stand in ascending order
  of their numbers, none below the number reading started from.
-/

namespace Coap

/-- The byte between options and payload. -/
def payloadMarker : UInt8 := 0xFF

namespace Options

/-! ## Writing -/

/-- The number of bytes of options that follow one numbered `previous`. -/
def encodedLengthFrom (previous : UInt16) :
    List MessageOption → Except CodecError Nat
  | [] => .ok 0
  | o :: rest => do
      let first ← o.encodedLength previous
      let others ← encodedLengthFrom o.number rest
      return first + others

/-- The number of bytes of all options. -/
def encodedLength (s : Options) : Except CodecError Nat :=
  encodedLengthFrom 0 s.toList

/-- Append options that follow one numbered `previous` to a buffer. The room
for an option is checked before its first part is put. The first one that
cannot be written ends it; those before it stay. -/
def writeFrom (previous : UInt16) :
    List MessageOption → Buffer → Buffer × Except CodecError Unit
  | [], buf => (buf, .ok ())
  | o :: rest, buf =>
      match o.fields previous with
      | .error e => (buf, .error e)
      | .ok (delta, length) =>
          if buf.room < MessageOption.required delta length o.value then
            (buf, .error (.bufferOverflow buf.length))
          else
            writeFrom o.number rest
              ((MessageOption.parts delta length o.value).foldl Buffer.put buf)

/-- The parts of an option are put exactly where its bytes can be appended
whole. -/
theorem writeFrom_cons (previous : UInt16) (o : MessageOption)
    (rest : List MessageOption) (buf : Buffer) :
    writeFrom previous (o :: rest) buf =
      match o.encode previous with
      | .error e => (buf, .error e)
      | .ok bytes =>
          match buf.append? bytes with
          | none => (buf, .error (.bufferOverflow buf.length))
          | some buf => writeFrom o.number rest buf := by
  rw [writeFrom, MessageOption.encode_eq_map_fields]
  cases o.fields previous with
  | error e => rfl
  | ok f =>
      obtain ⟨delta, length⟩ := f
      simp only [Except.map, ← MessageOption.length_assemble]
      cases happend : buf.append? (MessageOption.assemble delta length o.value) with
      | none => rw [if_pos (Buffer.append?_eq_none.mp happend)]
      | some buf' =>
          have hroom := Nat.not_lt.mpr (Buffer.length_le_room happend)
          rw [← MessageOption.flatten_parts, ← Buffer.foldlM_append?] at happend
          rw [if_neg hroom, Buffer.foldl_put_of_foldlM happend]

/-- Append all options to a buffer. -/
def write (s : Options) (buf : Buffer) : Buffer × Except CodecError Unit :=
  writeFrom 0 s.toList buf

/-! ## Reading one option -/

/-- The number and the length of the value that a head announces. -/
structure Head where
  /-- The number of the option. -/
  number : UInt16
  /-- The number of bytes in its value. -/
  length : Nat
  deriving DecidableEq, Repr

/-- Read the extensions of a head. The offset is that of the head. -/
def readHead (previous : UInt16) (offset : Nat) (head : UInt8) (c : Cursor) :
    Except CodecError (Head × Cursor) := do
  let (delta, c) ← ExtendedField.decode (head / 16) offset c
  let (length, c) ← ExtendedField.decode (head % 16) offset c
  if previous.toNat + delta.value < 65536 then
    return (⟨UInt16.ofNat (previous.toNat + delta.value), length.value⟩, c)
  else
    throw (.optionNumberOverflow offset)

/-- Read the option that follows one numbered `previous`, if there is
one. -/
def next? (previous : UInt16) (c : Cursor) :
    Except CodecError (Option (MessageOption × Cursor)) :=
  match c.rest with
  | [] => .ok none
  | head :: rest =>
      if head = payloadMarker then .ok none
      else
        match readHead previous c.position head ⟨c.position + 1, rest⟩ with
        | .error e => .error e
        | .ok (h, c) =>
            match c.next h.length with
            | .error e => .error e
            | .ok (value, c) => .ok (some (⟨h.number, value⟩, c))

theorem readHead_spec {previous : UInt16} {offset : Nat} {head : UInt8}
    {c c' : Cursor} {h : Head}
    (hr : readHead previous offset head c = .ok (h, c')) :
    previous ≤ h.number ∧ c'.rest.length ≤ c.rest.length := by
  unfold readHead at hr
  cases hd : ExtendedField.decode (head / 16) offset c with
  | error e => simp [hd, bind, Except.bind] at hr
  | ok d =>
    cases hl : ExtendedField.decode (head % 16) offset d.2 with
    | error e => simp [hd, hl, bind, Except.bind] at hr
    | ok l =>
      simp only [hd, hl, bind, Except.bind, pure, Except.pure] at hr
      have h1 := ExtendedField.length_decode hd
      have h2 := ExtendedField.length_decode hl
      split at hr
      · next hlt =>
        simp only [Except.ok.injEq, Prod.mk.injEq] at hr
        refine ⟨?_, by rw [← hr.2]; omega⟩
        rw [← hr.1, UInt16.le_iff_toNat_le, UInt16.toNat_ofNat']
        omega
      · contradiction

/-- An option that is read does not go back in number, and leaves less to
read. -/
theorem next?_spec {previous : UInt16} {c c' : Cursor} {o : MessageOption}
    (h : next? previous c = .ok (some (o, c'))) :
    previous ≤ o.number ∧ c'.rest.length < c.rest.length := by
  unfold next? at h
  split at h
  · simp at h
  · next head rest hc =>
    split at h
    · simp at h
    · split at h
      · contradiction
      · next hd c₁ hr =>
        split at h
        · contradiction
        · next value c₂ hv =>
          have hs := readHead_spec hr
          have hl := Cursor.length_next hv
          simp only [Except.ok.injEq, Option.some.injEq, Prod.mk.injEq] at h
          obtain ⟨rfl, rfl⟩ := h
          refine ⟨hs.1, ?_⟩
          rw [hc, List.length_cons]
          have := hs.2
          simp only at this
          omega

/-! ## Reading all options -/

/-- Count the options that follow one numbered `previous`. -/
def countFrom (previous : UInt16) (c : Cursor) : Except CodecError Nat :=
  match _h : next? previous c with
  | .error e => .error e
  | .ok none => .ok 0
  | .ok (some (o, c')) => (countFrom o.number c').map (· + 1)
termination_by c.rest.length
decreasing_by exact (next?_spec _h).2

/-- Collect the options that follow one numbered `previous`. -/
def collectFrom (previous : UInt16) (c : Cursor) :
    Except CodecError (List MessageOption × Cursor) :=
  match _h : next? previous c with
  | .error e => .error e
  | .ok none => .ok ([], c)
  | .ok (some (o, c')) =>
      (collectFrom o.number c').map fun (rest, c) => (o :: rest, c)
termination_by c.rest.length
decreasing_by exact (next?_spec _h).2

/-- The number of options at the start of the data. -/
def count (data : Bytes) : Except CodecError Nat :=
  countFrom 0 (Cursor.ofBytes data)

theorem ascending_collect {previous : UInt16} {c c' : Cursor}
    {l : List MessageOption} (h : collectFrom previous c = .ok (l, c')) :
    (l.Pairwise fun a b => a.number ≤ b.number) ∧
      ∀ o ∈ l, previous ≤ o.number := by
  fun_induction collectFrom previous c generalizing l c' with
  | case1 => contradiction
  | case2 => cases h; simp
  | case3 previous c o c₁ hn ih =>
    cases hc : collectFrom o.number c₁ with
    | error e => simp [hc, Except.map] at h
    | ok r =>
      obtain ⟨l₁, c₂⟩ := r
      simp only [hc, Except.map, Except.ok.injEq, Prod.mk.injEq] at h
      obtain ⟨rfl, rfl⟩ := h
      obtain ⟨hsorted, hle⟩ := ih hc
      have ho := (next?_spec hn).1
      refine ⟨List.pairwise_cons.mpr ⟨hle, hsorted⟩, fun x hx => ?_⟩
      rcases List.mem_cons.mp hx with rfl | hx
      · exact ho
      · exact UInt16.le_trans ho (hle x hx)

/-- Read the options at a cursor, counting them first, and stop in front of
the payload marker or at the end. -/
def read (c : Cursor) : Except CodecError (Options × Cursor) :=
  match countFrom 0 c with
  | .error e => .error e
  | .ok _ =>
      match h : collectFrom 0 c with
      | .error e => .error e
      | .ok (l, c') => .ok (⟨l, (ascending_collect h).1⟩, c')

end Options

end Coap
