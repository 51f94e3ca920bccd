import Coap.Proofs.Bytes.Span
import Coap.Proofs.Codec.InPlace

/-!
# Reads neither lose nor repeat bytes

A read takes its bytes off the rest, or takes nothing and leaves the cursor where it
is. So whatever is read after one another, and whatever of it fails, what has been
taken and what is left are the data cut at the position.

Each read is told apart by one number, how many bytes it asks for: it succeeds exactly
if as many are left. `carryOut_of_le` and `carryOut_of_lt` say what it does in the two
cases, and all else is said of any read by them.

A cursor that keeps all of the data and a place in it, in 64-bit words, has to ask
before each read whether the place plus the number of bytes lies in the data, and that
sum may be none. `Walk` is that cursor; it answers as the other one does, and its place
never wraps around.

## Main results

* `carryOut_of_le`, `carryOut_of_lt` — what one read does.
* `reads_after` — what a sequence of reads has taken, and what it has left.
* `Walk.Stands.answers_eq` — a place kept as a word reads the same.
* `reads_lose_nothing` — all of it, for any data and any sequence of reads.
-/

namespace Coap

namespace Cursor

/-! ## One read -/

/-- A read, or a look at what comes next. -/
inductive Read where
  | uInt8
  | uInt16
  | uInt32
  | slice (n : UInt64)
  | peek
  | rest

/-- What a read gives. -/
inductive Answer where
  | uInt8 (a : UInt8)
  | uInt16 (w : UInt16)
  | uInt32 (w : UInt32)
  | slice (taken : Bytes)
  | peek (next : Option UInt8)
  | rest (unread : Bytes)

/-- How many bytes a read asks for. -/
def Read.size : Read → Nat
  | .uInt8 => 1
  | .uInt16 => 2
  | .uInt32 => 4
  | .slice n => n.toNat
  | .peek => 0
  | .rest => 0

/-- The bytes that were taken for an answer. -/
def Answer.taken : Answer → Bytes
  | .uInt8 a => [a]
  | .uInt16 w => Bytes.ofUInt16 w
  | .uInt32 w => Bytes.ofUInt32 w
  | .slice taken => taken
  | .peek _ => []
  | .rest _ => []

/-- The bytes that a read has taken, none if it failed. -/
def taken : Except CodecError Answer → Bytes
  | .ok a => a.taken
  | .error _ => []

/-- What a read gives, and where the cursor is left: where it was, if the read fails. -/
def answering {α : Type} (c : Cursor) (f : α → Answer) :
    Except CodecError (α × Cursor) → Except CodecError Answer × Cursor
  | .ok (a, c') => (.ok (f a), c')
  | .error e => (.error e, c)

/-- Carry a read out. -/
def carryOut (c : Cursor) : Read → Except CodecError Answer × Cursor
  | .uInt8 => c.answering .uInt8 c.nextUInt8
  | .uInt16 => c.answering .uInt16 c.nextUInt16
  | .uInt32 => c.answering .uInt32 c.nextUInt32
  | .slice n => c.answering .slice (c.next n.toNat)
  | .peek => (.ok (.peek c.peek?), c)
  | .rest => (.ok (.rest c.rest), c)

/-- What a read makes of the bytes that it takes off those that are left. -/
def Read.answer (unread : Bytes) : Read → Bytes → Answer
  | .uInt8, raw => .uInt8 (raw.getD 0 0)
  | .uInt16, raw => .uInt16 (Bytes.join16 (raw.getD 0 0) (raw.getD 1 0))
  | .uInt32, raw =>
      .uInt32 (Bytes.join32 (raw.getD 0 0) (raw.getD 1 0) (raw.getD 2 0) (raw.getD 3 0))
  | .slice _, raw => .slice raw
  | .peek, _ => .peek unread.head?
  | .rest, _ => .rest unread

theorem nextUInt32_eq_map_next (c : Cursor) :
    c.nextUInt32 =
      (c.next 4).map fun r =>
        (Bytes.join32 (r.1.getD 0 0) (r.1.getD 1 0) (r.1.getD 2 0) (r.1.getD 3 0), r.2) := by
  rcases c with ⟨p, rest⟩
  rcases rest with _ | ⟨a, _ | ⟨b, _ | ⟨x, _ | ⟨y, rest⟩⟩⟩⟩ <;> rfl

/-- Every read is a read of as many bytes as it asks for, a look is one of none. -/
theorem carryOut_eq (c : Cursor) (r : Read) :
    c.carryOut r = c.answering (r.answer c.rest) (c.next r.size) := by
  have hlook : c.next 0 = .ok ([], c) := next_of_le (Nat.zero_le _)
  cases r with
  | uInt8 =>
      rw [carryOut, nextUInt8_eq_map_next, Read.size]
      cases c.next 1 <;> rfl
  | uInt16 =>
      rw [carryOut, nextUInt16_eq_map_next, Read.size]
      cases c.next 2 <;> rfl
  | uInt32 =>
      rw [carryOut, nextUInt32_eq_map_next, Read.size]
      cases c.next 4 <;> rfl
  | slice n => rfl
  | peek =>
      rw [Read.size, hlook]
      rfl
  | rest =>
      rw [Read.size, hlook]
      rfl

/-- The bytes of an answer are those that it was made of. -/
theorem taken_answer {unread : Bytes} {r : Read} (h : r.size ≤ unread.length) :
    (r.answer unread (unread.take r.size)).taken = unread.take r.size := by
  cases r with
  | uInt8 =>
      rcases unread with _ | ⟨a, unread⟩
      · simp [Read.size] at h
      · rfl
  | uInt16 =>
      rcases unread with _ | ⟨a, _ | ⟨b, unread⟩⟩
      · simp [Read.size] at h
      · simp [Read.size] at h
      · exact Bytes.ofUInt16_join a b
  | uInt32 =>
      rcases unread with _ | ⟨a, _ | ⟨b, _ | ⟨x, _ | ⟨y, unread⟩⟩⟩⟩
      · simp [Read.size] at h
      · simp [Read.size] at h
      · simp [Read.size] at h
      · simp [Read.size] at h
      · exact Bytes.ofUInt32_join a b x y
  | slice n => rfl
  | peek => rfl
  | rest => rfl

/-- A read that as many bytes are left for as it asks for takes just these. -/
theorem carryOut_of_le {c : Cursor} {r : Read} (h : r.size ≤ c.remaining) :
    c.carryOut r =
      (.ok (r.answer c.rest (c.rest.take r.size)),
        ⟨c.position + r.size, c.rest.drop r.size⟩) := by
  rw [carryOut_eq, next_of_le h]
  rfl

/-- A read that asks for more bytes than are left takes none. -/
theorem carryOut_of_lt {c : Cursor} {r : Read} (h : c.remaining < r.size) :
    c.carryOut r = (.error (.bounds c.position r.size c.remaining), c) := by
  rw [carryOut_eq, next_of_lt h]
  rfl

/-- A read goes over the bytes that it takes. -/
theorem reads_carryOut (c : Cursor) (r : Read) :
    c.Reads (taken (c.carryOut r).1) (c.carryOut r).2 := by
  rcases Nat.lt_or_ge c.remaining r.size with hlt | hge
  · rw [carryOut_of_lt hlt]
    exact Reads.nil c
  · have hlength : (c.rest.take r.size).length = r.size := by
      rw [List.length_take]
      exact Nat.min_eq_left hge
    rw [carryOut_of_le hge, taken, taken_answer hge]
    exact ⟨(List.take_append_drop ..).symm, by rw [hlength]⟩

/-! ## One read after the other -/

/-- What reads give, one after the other. -/
def answers (c : Cursor) : List Read → List (Except CodecError Answer)
  | [] => []
  | r :: others => (c.carryOut r).1 :: (c.carryOut r).2.answers others

/-- Where reads leave the cursor. -/
def after (c : Cursor) : List Read → Cursor
  | [] => c
  | r :: others => (c.carryOut r).2.after others

/-- A sequence of reads goes over the bytes that they take. -/
theorem reads_after (c : Cursor) (reads : List Read) :
    c.Reads ((c.answers reads).flatMap taken) (c.after reads) := by
  induction reads generalizing c with
  | nil => exact Reads.nil c
  | cons r others ih => exact (c.reads_carryOut r).append (ih _)

/-! ## A place told in a word -/

namespace Walk

/-- Walk over the next `n` bytes, if they lie in the data. -/
def nextSlice (data : Bytes) (place n : UInt64) : Except CodecError Bytes × UInt64 :=
  match Span.check place n (UInt64.ofNat data.length) with
  | .ok () => (.ok ((data.drop place.toNat).take n.toNat), place + n)
  | .error e => (.error e, place)

/-- Carry a read out in place. -/
def carryOut (data : Bytes) (place : UInt64) :
    Read → Except CodecError Answer × UInt64
  | .uInt8 =>
      let (raw, place) := nextSlice data place 1
      (raw.map fun raw => .uInt8 (raw.getD 0 0), place)
  | .uInt16 =>
      let (raw, place) := nextSlice data place 2
      (raw.map fun raw => .uInt16 (Bytes.join16 (raw.getD 0 0) (raw.getD 1 0)), place)
  | .uInt32 =>
      let (raw, place) := nextSlice data place 4
      (raw.map fun raw => .uInt32 (Bytes.join32 (raw.getD 0 0) (raw.getD 1 0)
        (raw.getD 2 0) (raw.getD 3 0)), place)
  | .slice n =>
      let (raw, place) := nextSlice data place n
      (raw.map .slice, place)
  | .peek => (.ok (.peek data[place.toNat]?), place)
  | .rest => (.ok (.rest (data.drop place.toNat)), place)

/-- What reads give in place, one after the other. -/
def answers (data : Bytes) (place : UInt64) : List Read → List (Except CodecError Answer)
  | [] => []
  | r :: others =>
      (carryOut data place r).1 :: answers data (carryOut data place r).2 others

/-- Where reads leave the place. -/
def after (data : Bytes) (place : UInt64) : List Read → UInt64
  | [] => place
  | r :: others => after data (carryOut data place r).2 others

/-- The place of a cursor in the data that it reads. -/
structure Stands (data : Bytes) (c : Cursor) (place : UInt64) : Prop where
  position : c.position = place.toNat
  rest : c.rest = data.drop place.toNat
  inside : place.toNat ≤ data.length

variable {data : Bytes} {c : Cursor} {place n : UInt64}

theorem Stands.remaining (h : Stands data c place) :
    c.remaining = data.length - place.toNat := by
  rw [Cursor.remaining, h.rest, List.length_drop]

section

variable (hdata : data.length < 2 ^ 64)

include hdata

theorem check_eq_checkSpan (place n : UInt64) :
    Span.check place n (UInt64.ofNat data.length) =
      Buffer.checkSpan place.toNat n.toNat data.length := by
  rw [Span.check_eq, UInt64.toNat_ofNat', Nat.mod_eq_of_lt hdata]

/-- The bytes that are left are walked over, and the place does not wrap around. -/
theorem Stands.nextSlice_of_le (h : Stands data c place) (hn : n.toNat ≤ c.remaining) :
    nextSlice data place n = (.ok (c.rest.take n.toNat), place + n) ∧
      Stands data ⟨c.position + n.toNat, c.rest.drop n.toNat⟩ (place + n) := by
  have hremaining := h.remaining
  have hinside := h.inside
  have hsum : (place + n).toNat = place.toNat + n.toNat := by
    rw [UInt64.toNat_add]
    omega
  constructor
  · rw [nextSlice, check_eq_checkSpan hdata, Buffer.checkSpan_of_le (by omega), h.rest]
  · refine ⟨?_, ?_, ?_⟩
    · rw [hsum, h.position]
    · rw [hsum, h.rest, List.drop_drop]
    · omega

/-- More bytes than are left are not, and the place stays. -/
theorem Stands.nextSlice_of_lt (h : Stands data c place) (hn : c.remaining < n.toNat) :
    nextSlice data place n =
      (.error (.bounds c.position n.toNat c.remaining), place) := by
  have hremaining := h.remaining
  have hinside := h.inside
  rw [nextSlice, check_eq_checkSpan hdata, Buffer.checkSpan_of_lt (by omega), hremaining,
    h.position]

/-- A slice of as many bytes as a read asks for ends like the read. -/
theorem Stands.slice_alike (h : Stands data c place) {r : Read} (hn : n.toNat = r.size) :
    (nextSlice data place n).1.map (r.answer c.rest) = (c.carryOut r).1 ∧
      Stands data (c.carryOut r).2 (nextSlice data place n).2 := by
  rcases Nat.lt_or_ge c.remaining r.size with hlt | hge
  · rw [carryOut_of_lt hlt, h.nextSlice_of_lt hdata (hn ▸ hlt), hn]
    exact ⟨rfl, h⟩
  · obtain ⟨hslice, hstands⟩ := h.nextSlice_of_le hdata (hn ▸ hge)
    rw [carryOut_of_le hge, hslice, ← hn]
    exact ⟨rfl, hstands⟩

/-- A read in place gives what the cursor gives, and they go on together. -/
theorem Stands.carryOut_alike (h : Stands data c place) (r : Read) :
    (carryOut data place r).1 = (c.carryOut r).1 ∧
      Stands data (c.carryOut r).2 (carryOut data place r).2 := by
  cases r with
  | uInt8 => exact h.slice_alike hdata (n := 1) (r := .uInt8) rfl
  | uInt16 => exact h.slice_alike hdata (n := 2) (r := .uInt16) rfl
  | uInt32 => exact h.slice_alike hdata (n := 4) (r := .uInt32) rfl
  | slice n => exact h.slice_alike hdata (n := n) (r := .slice n) rfl
  | peek =>
      refine ⟨?_, h⟩
      rw [carryOut, Cursor.carryOut, peek?, h.rest, List.head?_drop]
  | rest =>
      refine ⟨?_, h⟩
      rw [carryOut, Cursor.carryOut, h.rest]

theorem Stands.answers_eq (h : Stands data c place) (reads : List Read) :
    answers data place reads = c.answers reads ∧
      Stands data (c.after reads) (after data place reads) := by
  induction reads generalizing c place with
  | nil => exact ⟨rfl, h⟩
  | cons r others ih =>
      obtain ⟨hanswer, hstands⟩ := h.carryOut_alike hdata r
      obtain ⟨hanswers, hafter⟩ := ih hstands
      rw [answers, Cursor.answers, hanswer, hanswers]
      exact ⟨rfl, hafter⟩

end

theorem stands_start (data : Bytes) : Stands data (.ofBytes data) 0 where
  position := rfl
  rest := rfl
  inside := Nat.zero_le _

end Walk

/-! ## Any sequence of reads -/

/-- Reads that gave these answers have left the cursor behind just what they took. -/
structure LosesNothing (data : Bytes) (answers : List (Except CodecError Answer))
    (c : Cursor) : Prop where
  position_le : c.position ≤ data.length
  /-- What was taken are the data up to the position. -/
  taken_eq : answers.flatMap taken = data.take c.position
  /-- What is left are the data behind it. -/
  rest_eq : c.rest = data.drop c.position
  /-- What is looked at is the byte there. -/
  peek?_eq : c.peek? = data[c.position]?
  /-- A read that as many bytes are left for as it asks for takes these. -/
  takes : ∀ r : Read, r.size ≤ data.length - c.position →
    ∃ a, c.carryOut r = (.ok a, ⟨c.position + r.size, c.rest.drop r.size⟩) ∧
      a.taken = c.rest.take r.size
  /-- Any other fails, tells where and why, and leaves the cursor as it is. -/
  fails : ∀ r : Read, data.length - c.position < r.size →
    c.carryOut r =
      (.error (.bounds c.position r.size (data.length - c.position)), c)

theorem Reads.losesNothing {data : Bytes} {answers : List (Except CodecError Answer)}
    {c : Cursor} (h : (ofBytes data).Reads (answers.flatMap taken) c) :
    LosesNothing data answers c := by
  have hdata : data = answers.flatMap taken ++ c.rest := h.rest
  have hposition : c.position = (answers.flatMap taken).length := by
    rw [h.position, ofBytes, Nat.zero_add]
  have htaken : data.take c.position = answers.flatMap taken := by
    rw [hdata, List.take_left' hposition.symm]
  have hrest : data.drop c.position = c.rest := by
    rw [hdata, List.drop_left' hposition.symm]
  have hremaining : c.remaining = data.length - c.position := by
    rw [remaining, ← hrest, List.length_drop]
  refine
    { position_le := ?_
      taken_eq := htaken.symm
      rest_eq := hrest.symm
      peek?_eq := ?_
      takes := ?_
      fails := ?_ }
  · rw [hdata, List.length_append, hposition]
    exact Nat.le_add_right ..
  · rw [peek?, ← hrest, List.head?_drop]
  · intro r hr
    rw [← hremaining] at hr
    exact ⟨_, carryOut_of_le hr, taken_answer hr⟩
  · intro r hr
    rw [← hremaining] at hr ⊢
    exact carryOut_of_lt hr

/-- A place told in a word keeps up with the cursor. -/
structure Walk.KeepsUp (data : Bytes) (reads : List Read) (c : Cursor) (place : UInt64) :
    Prop where
  answers_eq : Walk.answers data 0 reads = (ofBytes data).answers reads
  /-- The place has not wrapped around. -/
  place_eq : place.toNat = c.position
  /-- Nor does the check of the next read: it asks for the exact sum. -/
  check_iff : ∀ n : UInt64, Span.check place n (UInt64.ofNat data.length) = .ok () ↔
    c.position + n.toNat ≤ data.length
  /-- A read that fails does not move the place. -/
  stays : ∀ r : Read, data.length - c.position < r.size →
    Walk.carryOut data place r =
      (.error (.bounds c.position r.size (data.length - c.position)), place)

/-- For any data and any reads from their start, the bytes that the successful reads
have taken are the data up to the position, and what is left are the data behind it.
The next read succeeds exactly if as many bytes are left as it asks for; otherwise it
tells the position, what it asked for and what is left, and takes nothing. A cursor
that keeps its position as a 64-bit word, and asks in words whether a read lies within
the data, gives the same answers from the same positions and never wraps around. -/
theorem reads_lose_nothing (data : Bytes) (reads : List Read) :
    LosesNothing data ((ofBytes data).answers reads) ((ofBytes data).after reads) ∧
      (data.length < 2 ^ 64 →
        Walk.KeepsUp data reads ((ofBytes data).after reads) (Walk.after data 0 reads)) := by
  have hloses := ((ofBytes data).reads_after reads).losesNothing
  refine ⟨hloses, fun hdata => ?_⟩
  obtain ⟨hanswers, hstands⟩ := (Walk.stands_start data).answers_eq hdata reads
  refine
    { answers_eq := hanswers
      place_eq := hstands.position.symm
      check_iff := ?_
      stays := ?_ }
  · intro n
    rw [Span.check_eq_ok_iff, UInt64.toNat_ofNat_of_lt' hdata, hstands.position]
  · intro r hr
    obtain ⟨hanswer, hstays⟩ := hstands.carryOut_alike hdata r
    rw [hloses.fails r hr] at hanswer hstays
    have hplace : (Walk.carryOut data (Walk.after data 0 reads) r).2 =
        Walk.after data 0 reads :=
      UInt64.toNat_inj.mp (hstays.position.symm.trans hstands.position)
    exact Prod.ext hanswer hplace

end Cursor

end Coap
