import Coap.CodecError

/-!
# Reading bytes one field at a time

A `Cursor` is the unread rest of a byte string together with the number
of bytes read before it. A read takes its bytes off the rest; one that
asks for more than is left fails and names the position, so nothing a
decoder does depends on the bytes already behind it except for the
offsets in its errors.

## Main results

* `next_append` — a read of `n` bytes takes exactly the first `n`.
* `next_of_lt` — a read fails if fewer than `n` bytes are left.
* `length_next` — a read leaves a shorter rest by the bytes it took, which
  is why decoders that read at least one byte in each step end.
-/

namespace Coap

/-- A place in a byte string: how far reading has come and what is left. -/
structure Cursor where
  /-- The number of bytes read so far. -/
  position : Nat
  /-- The bytes not read yet. -/
  rest : Bytes
  deriving DecidableEq, Repr

namespace Cursor

/-- The cursor at the start of a byte string. -/
def ofBytes (data : Bytes) : Cursor := ⟨0, data⟩

/-- The number of bytes not read yet. -/
def remaining (c : Cursor) : Nat := c.rest.length

/-- The next byte, without reading it. -/
def peek? (c : Cursor) : Option UInt8 := c.rest.head?

/-! ## Reads -/

/-- Read the next `n` bytes. -/
def next (n : Nat) (c : Cursor) : Except CodecError (Bytes × Cursor) :=
  let taken := c.rest.take n
  if taken.length = n then
    .ok (taken, ⟨c.position + n, c.rest.drop n⟩)
  else
    .error (.bounds c.position n c.remaining)

/-- Read one byte. -/
def nextUInt8 (c : Cursor) : Except CodecError (UInt8 × Cursor) :=
  match c.rest with
  | a :: rest => .ok (a, ⟨c.position + 1, rest⟩)
  | [] => .error (.bounds c.position 1 0)

/-- Read a 16-bit word. -/
def nextUInt16 (c : Cursor) : Except CodecError (UInt16 × Cursor) :=
  match c.rest with
  | a :: b :: rest => .ok (Bytes.join16 a b, ⟨c.position + 2, rest⟩)
  | _ => .error (.bounds c.position 2 c.remaining)

/-- Read a 32-bit word. -/
def nextUInt32 (c : Cursor) : Except CodecError (UInt32 × Cursor) :=
  match c.rest with
  | a :: b :: c' :: d :: rest =>
      .ok (Bytes.join32 a b c' d, ⟨c.position + 4, rest⟩)
  | _ => .error (.bounds c.position 4 c.remaining)

/-! ## What a read takes -/

theorem next_of_le {n : Nat} {c : Cursor} (h : n ≤ c.remaining) :
    c.next n = .ok (c.rest.take n, ⟨c.position + n, c.rest.drop n⟩) := by
  simp only [remaining] at h
  simp [next, Nat.min_eq_left h]

theorem next_of_lt {n : Nat} {c : Cursor} (h : c.remaining < n) :
    c.next n = .error (.bounds c.position n c.remaining) := by
  simp only [remaining] at h
  have : min n c.rest.length ≠ n := by omega
  simp [next, this]

/-- A read of exactly the bytes in front takes them and stops behind them. -/
theorem next_append (taken rest : Bytes) (p : Nat) :
    (Cursor.mk p (taken ++ rest)).next taken.length =
      .ok (taken, ⟨p + taken.length, rest⟩) := by
  rw [next_of_le (by simp [remaining])]
  simp

/-- A successful read splits what was left. -/
theorem rest_of_next {n : Nat} {c c' : Cursor} {taken : Bytes}
    (h : c.next n = .ok (taken, c')) :
    c.rest = taken ++ c'.rest ∧ taken.length = n ∧
      c'.position = c.position + n := by
  rcases Nat.lt_or_ge c.remaining n with hlt | hge
  · rw [next_of_lt hlt] at h
    contradiction
  · rw [next_of_le hge] at h
    cases h
    simp only [remaining] at hge
    simp [Nat.min_eq_left hge]

/-- A read leaves less than before by the bytes it took. -/
theorem length_next {n : Nat} {c c' : Cursor} {taken : Bytes}
    (h : c.next n = .ok (taken, c')) :
    c'.rest.length + n = c.rest.length := by
  obtain ⟨hrest, hlen, _⟩ := rest_of_next h
  rw [hrest, List.length_append, hlen, Nat.add_comm]

theorem length_nextUInt8 {c c' : Cursor} {a : UInt8}
    (h : c.nextUInt8 = .ok (a, c')) : c'.rest.length + 1 = c.rest.length := by
  unfold nextUInt8 at h
  split at h
  · next hc => cases h; simp [hc]
  · contradiction

theorem length_nextUInt16 {c c' : Cursor} {w : UInt16}
    (h : c.nextUInt16 = .ok (w, c')) : c'.rest.length + 2 = c.rest.length := by
  unfold nextUInt16 at h
  split at h
  · next hc => cases h; simp [hc]
  · contradiction

end Cursor

end Coap
