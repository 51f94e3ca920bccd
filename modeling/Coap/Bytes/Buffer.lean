import Coap.Bytes.Cursor

/-!
# Buffers of fixed capacity

A `Buffer` is a region of bytes whose size never changes and a mark: the
bytes in front of the mark are the buffer's contents, those behind it are
left over from earlier contents and come into view again when the mark is
moved. Writers append at the mark; an operation that would leave the
region is refused and changes nothing.

## Main results

* `capacity_append?`, `contents_append?` — appending keeps the capacity and
  extends the contents by exactly the bytes written.
* `append?_eq_none` — appending is refused exactly if the room is too small.
* `foldlM_append?` — bytes appended in parts are appended whole, and there is
  room for each part exactly if there is room for all.
* `contents_fill` — what a datagram leaves in view depends on how much of the
  region it was received into, but not on the bytes that were there before.
-/

namespace Coap

/-- A region of bytes, of which the first `length` are the contents. -/
structure Buffer where
  /-- All bytes, in view or not. -/
  region : Bytes
  /-- The number of bytes in view. -/
  length : Nat
  length_le : length ≤ region.length

namespace Buffer

/-! ## Views -/

/-- The bytes in view. -/
def contents (b : Buffer) : Bytes := b.region.take b.length

/-- The number of bytes that can be in view. -/
def capacity (b : Buffer) : Nat := b.region.length

/-- The number of bytes that can still be appended. -/
def room (b : Buffer) : Nat := b.capacity - b.length

@[simp] theorem length_contents (b : Buffer) :
    b.contents.length = b.length := by
  simp [contents, Nat.min_eq_left b.length_le]

/-- Buffers are compared by what is in view. -/
instance : BEq Buffer := ⟨fun a b => a.contents == b.contents⟩

/-- A cursor at the start of the contents. -/
def cursor (b : Buffer) : Cursor := Cursor.ofBytes b.contents

/-! ## Making buffers -/

/-- An empty buffer over a region of zeros. -/
def new (capacity : Nat) : Buffer := ⟨List.replicate capacity 0, 0, by simp⟩

/-- A buffer that the given bytes fill. -/
def ofBytes (data : Bytes) : Buffer := ⟨data, data.length, Nat.le_refl _⟩

@[simp] theorem contents_new (n : Nat) : (new n).contents = [] := by
  simp [contents, new]

@[simp] theorem capacity_new (n : Nat) : (new n).capacity = n := by
  simp [capacity, new]

@[simp] theorem contents_ofBytes (data : Bytes) :
    (ofBytes data).contents = data := by
  simp [contents, ofBytes]

/-! ## Moving the mark -/

/-- Bring the whole region into view. -/
def maximize (b : Buffer) : Buffer := ⟨b.region, b.capacity, Nat.le_refl _⟩

/-- Take everything out of view. -/
def clear (b : Buffer) : Buffer := ⟨b.region, 0, Nat.zero_le _⟩

/-- Move the mark behind the first `n` bytes of the region. -/
def truncate? (b : Buffer) (n : Nat) : Option Buffer :=
  if h : n ≤ b.capacity then some ⟨b.region, n, h⟩ else none

@[simp] theorem contents_clear (b : Buffer) : b.clear.contents = [] := by
  simp [contents, clear]

@[simp] theorem capacity_clear (b : Buffer) : b.clear.capacity = b.capacity :=
  rfl

@[simp] theorem room_clear (b : Buffer) : b.clear.room = b.capacity := by
  simp [room, clear, capacity]

/-! ## Writing -/

/-- The region with `data` written over the bytes from `offset` on. What
would stick out of the region is cut off. -/
def overwrite (region : Bytes) (offset : Nat) (data : Bytes) : Bytes :=
  (region.take offset ++ data ++ region.drop (offset + data.length)).take
    region.length

@[simp] theorem length_overwrite (region : Bytes) (offset : Nat)
    (data : Bytes) :
    (overwrite region offset data).length = region.length := by
  simp only [overwrite, List.length_take, List.length_append, List.length_drop]
  omega

/-- Data that fits is written whole. -/
theorem overwrite_of_le {region : Bytes} {offset : Nat} {data : Bytes}
    (h : offset + data.length ≤ region.length) :
    overwrite region offset data =
      region.take offset ++ data ++ region.drop (offset + data.length) := by
  rw [overwrite, List.take_of_length_le]
  simp only [List.length_append, List.length_take, List.length_drop]
  omega

theorem overwrite_nil {region : Bytes} {offset : Nat} (h : offset ≤ region.length) :
    overwrite region offset [] = region := by
  rw [overwrite_of_le (by simpa using h)]
  simp

/-- Append bytes to the contents, if there is room for them. -/
def append? (b : Buffer) (data : Bytes) : Option Buffer :=
  if h : b.length + data.length ≤ b.region.length then
    some
      { region := overwrite b.region b.length data
        length := b.length + data.length
        length_le := by rw [length_overwrite]; exact h }
  else none

/-- Write one byte of the contents. -/
def set? (b : Buffer) (index : Nat) (value : UInt8) : Option Buffer :=
  if index < b.length then
    some
      { region := b.region.set index value
        length := b.length
        length_le := by rw [List.length_set]; exact b.length_le }
  else none

theorem append?_eq_none {b : Buffer} {data : Bytes} :
    b.append? data = none ↔ b.room < data.length := by
  have := b.length_le
  unfold append? room capacity
  split <;> simp <;> omega

theorem length_le_room {b b' : Buffer} {data : Bytes}
    (h : b.append? data = some b') : data.length ≤ b.room := by
  refine Nat.le_of_not_lt fun hlt => ?_
  rw [append?_eq_none.mpr hlt] at h
  contradiction

theorem contents_append? {b b' : Buffer} {data : Bytes}
    (h : b.append? data = some b') : b'.contents = b.contents ++ data := by
  unfold append? at h
  split at h
  · cases h
    have hl : (b.region.take b.length).length = b.length := by
      simp [Nat.min_eq_left b.length_le]
    simp only [contents]
    rw [overwrite_of_le (by omega), List.append_assoc]
    rw [List.take_append, hl, List.take_of_length_le (by omega),
      Nat.add_sub_cancel_left, List.take_left']
    rfl
  · contradiction

theorem capacity_append? {b b' : Buffer} {data : Bytes}
    (h : b.append? data = some b') : b'.capacity = b.capacity := by
  unfold append? at h
  split at h
  · cases h; exact length_overwrite ..
  · contradiction

theorem length_append? {b b' : Buffer} {data : Bytes}
    (h : b.append? data = some b') : b'.length = b.length + data.length := by
  have hl := congrArg List.length (contents_append? h)
  simpa only [length_contents, List.length_append] using hl

theorem room_append? {b b' : Buffer} {data : Bytes}
    (h : b.append? data = some b') : b'.room = b.room - data.length := by
  simp only [room, capacity_append? h, length_append? h]
  omega

theorem overwrite_append {region x y : Bytes} {offset : Nat}
    (h : offset + (x ++ y).length ≤ region.length) :
    overwrite region offset (x ++ y) =
      overwrite (overwrite region offset x) (offset + x.length) y := by
  rw [List.length_append] at h
  have hx : overwrite region offset x =
      region.take offset ++ x ++ region.drop (offset + x.length) :=
    overwrite_of_le (by omega)
  have hfront : (region.take offset ++ x).length = offset + x.length := by
    rw [List.length_append, List.length_take]
    omega
  have htake : (overwrite region offset x).take (offset + x.length) =
      region.take offset ++ x := by
    rw [hx, List.take_left' hfront]
  have hdrop : (overwrite region offset x).drop (offset + x.length + y.length) =
      region.drop (offset + x.length + y.length) := by
    rw [hx, ← List.drop_drop, List.drop_left' hfront, List.drop_drop]
  rw [overwrite_of_le (by rw [List.length_append]; exact h),
    overwrite_of_le (by rw [length_overwrite]; omega), htake, hdrop,
    List.length_append, ← Nat.add_assoc]
  simp only [List.append_assoc]

/-- Bytes that are appended in two parts are appended whole. -/
theorem append?_append (b : Buffer) (x y : Bytes) :
    b.append? (x ++ y) = (b.append? x).bind (·.append? y) := by
  by_cases h : b.length + (x ++ y).length ≤ b.region.length
  · have h' := h
    rw [List.length_append] at h'
    have hx : b.length + x.length ≤ b.region.length := by omega
    have hy : b.length + x.length + y.length ≤
        (overwrite b.region b.length x).length := by
      rw [length_overwrite]
      omega
    simp only [append?, dif_pos h, dif_pos hx, Option.bind_some, dif_pos hy,
      overwrite_append h]
    simp only [List.length_append, Nat.add_assoc]
  · have hnone : b.append? (x ++ y) = none := dif_neg h
    rw [hnone]
    rw [List.length_append] at h
    by_cases hx : b.length + x.length ≤ b.region.length
    · have hy : ¬b.length + x.length + y.length ≤
          (overwrite b.region b.length x).length := by
        rw [length_overwrite]
        omega
      simp only [append?, dif_pos hx, Option.bind_some, dif_neg hy]
    · simp only [append?, dif_neg hx, Option.bind_none]

theorem append?_nil (b : Buffer) : b.append? [] = some b := by
  rcases b with ⟨region, length, hle⟩
  simp [append?, hle, overwrite_nil hle]

/-- Parts that are appended one behind the other are appended whole. -/
theorem foldlM_append? (parts : List Bytes) (b : Buffer) :
    parts.foldlM append? b = b.append? parts.flatten := by
  induction parts generalizing b with
  | nil => exact (append?_nil b).symm
  | cons part rest ih =>
      rw [List.foldlM_cons, List.flatten_cons, append?_append]
      exact congrArg (b.append? part).bind (funext ih)

/-- Bytes appended to a buffer that has been found to have room for them. -/
def put (b : Buffer) (data : Bytes) : Buffer := (b.append? data).getD b

theorem put_of_append? {b b' : Buffer} {data : Bytes}
    (h : b.append? data = some b') : b.put data = b' := by
  rw [put, h]
  rfl

/-- Parts that there is room for are put one behind the other. -/
theorem foldl_put_of_foldlM {parts : List Bytes} {b b' : Buffer}
    (h : parts.foldlM append? b = some b') : parts.foldl put b = b' := by
  induction parts generalizing b with
  | nil => exact Option.some.inj h
  | cons part rest ih =>
      obtain ⟨b₁, hb₁, h⟩ := Option.bind_eq_some_iff.mp h
      rw [List.foldl_cons, put_of_append? hb₁]
      exact ih h

theorem length_take_exposed_le (b : Buffer) (exposed : Nat) (data : Bytes) :
    (data.take (min exposed b.capacity)).length ≤ b.region.length := by
  rw [List.length_take]
  exact Nat.le_trans (Nat.min_le_left ..) (Nat.min_le_right ..)

/-- The buffer after a datagram was received into the first `exposed` bytes of
its region: they hold as much of the datagram as there is room for in them, and
just that is in view. -/
def fill (b : Buffer) (exposed : Nat) (data : Bytes) : Buffer where
  region := overwrite b.region 0 (data.take (min exposed b.capacity))
  length := (data.take (min exposed b.capacity)).length
  length_le := by
    rw [length_overwrite]
    exact length_take_exposed_le b exposed data

@[simp] theorem contents_fill (b : Buffer) (exposed : Nat) (data : Bytes) :
    (b.fill exposed data).contents = data.take (min exposed b.capacity) := by
  have hle : 0 + (data.take (min exposed b.capacity)).length ≤ b.region.length := by
    rw [Nat.zero_add]
    exact length_take_exposed_le b exposed data
  simp only [contents, fill]
  rw [overwrite_of_le hle, List.take_zero, List.nil_append, List.take_left']
  rfl

@[simp] theorem capacity_fill (b : Buffer) (exposed : Nat) (data : Bytes) :
    (b.fill exposed data).capacity = b.capacity :=
  length_overwrite ..

/-! ## Copying spans -/

/-- Whether `count` bytes from `offset` on lie within `available` bytes. -/
def checkSpan (offset count available : Nat) : Except CodecError Unit :=
  if offset + count ≤ available then .ok ()
  else .error (.bounds offset count (available - offset))

/-- A new buffer, filled by a span of the contents. -/
def copy (b : Buffer) (offset count : Nat) : Except CodecError Buffer := do
  checkSpan offset count b.length
  return ofBytes ((b.contents.drop offset).take count)

/-- Write a span of `source` over a span of the contents, which it leaves
alone unless both spans are in range. -/
def copyFrom (b : Buffer) (destOffset : Nat) (source : Bytes)
    (sourceOffset count : Nat) : Except CodecError Buffer := do
  checkSpan sourceOffset count source.length
  checkSpan destOffset count b.length
  let span := (source.drop sourceOffset).take count
  return {
    region := overwrite b.region destOffset span
    length := b.length
    length_le := by rw [length_overwrite]; exact b.length_le }

end Buffer

end Coap
