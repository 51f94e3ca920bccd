import Coap.Proofs.Bytes.Region
import Coap.Proofs.Bytes.Stateful

/-!
# Storing in place

A buffer that is written in place has its region as cells, its mark as a 64-bit word, and
no second copy to fall back to: a byte that was stored before an operation is refused
stays stored. The operations here check first, in words whose sums and differences may
wrap around, and then store one byte after the other, at every one of which they could
still leave the region.

That they come to what the operations on buffers come to, on the same cells, says both
that no store leaves the region once the checks are passed and that nothing is stored
until they are.

## Main results

* `Storing.runFrom_storeAll` — bytes that are stored one after the other are a span that
  is written.
* `Storing.runFrom_carryOut` — an operation in place comes to what the operation on the
  buffer comes to, and leaves its cells or, if it is refused, those that it found.
* `Buffer.fixed_array_with_mark` — a buffer is a fixed array with a mark.
-/

namespace Coap

open Buffer (Operation Refusal overwrite)

/-- The cells of a region and the place of the mark in it. -/
structure Cells where
  region : Bytes
  mark : UInt64

namespace Cells

/-- The number of cells. -/
def capacity (s : Cells) : UInt64 := UInt64.ofNat s.region.length

/-- The cells with a span of them written. -/
def write (s : Cells) (offset : Nat) (data : Bytes) : Cells :=
  { s with region := overwrite s.region offset data }

theorem capacity_write (s : Cells) (offset : Nat) (data : Bytes) :
    (s.write offset data).capacity = s.capacity :=
  congrArg UInt64.ofNat (Buffer.length_overwrite ..)

end Cells

def Buffer.cells (b : Buffer) : Cells := ⟨b.region, UInt64.ofNat b.length⟩

/-- Work on cells that may be refused halfway. -/
abbrev Storing := Stateful Refusal Cells

namespace Storing

open Stateful

/-! ## Operations in place -/

/-- Store a byte in a cell. -/
def store (place : UInt64) (value : UInt8) : Storing Unit := do
  let s ← get
  require (place.toNat < s.region.length) .fault
  set { s with region := s.region.set place.toNat value }

/-- Store bytes one after the other. -/
def storeAll (place : UInt64) : Bytes → Storing Unit
  | [] => return ()
  | value :: others => do
      store place value
      storeAll (place + 1) others

/-- Move the mark. -/
def moveTo (mark : UInt64) : Storing Unit := do
  let s ← get
  require (mark ≤ s.capacity) .fault
  set { s with mark }

/-- Store bytes from the mark on, if there is room for them, and move it behind them. -/
def put (data : Bytes) : Storing Unit := do
  let s ← get
  require (UInt64.ofNat data.length ≤ s.capacity - s.mark) .fault
  storeAll s.mark data
  moveTo (s.mark + UInt64.ofNat data.length)

/-- Store one of the bytes in view. -/
def setByte (index : UInt64) (value : UInt8) : Storing Unit := do
  let s ← get
  require (index < s.mark) .fault
  store index value

/-- Go on only if a span is available. -/
def span (offset count available : UInt64) : Storing Unit :=
  accept ((Span.check offset count available).mapError .error)

/-- Store a span of `source` over a span of what is in view. -/
def copyInto (destOffset : UInt64) (source : Bytes) (sourceOffset count : UInt64) :
    Storing Unit := do
  let s ← get
  span sourceOffset count (UInt64.ofNat source.length)
  span destOffset count s.mark
  storeAll destOffset ((source.drop sourceOffset.toNat).take count.toNat)

/-- Take a copy of a span of what is in view. -/
def copyOut (offset count : UInt64) : Storing Buffer := do
  let s ← get
  span offset count s.mark
  return Buffer.ofBytes (((s.region.take s.mark.toNat).drop offset.toNat).take count.toNat)

/-- Carry out an operation. -/
def carryOut : Operation → Storing Unit
  | .put piece => put piece.bytes
  | .set index value => setByte index value
  | .truncate n => moveTo n
  | .clear => moveTo 0
  | .maximize => do moveTo (← get).capacity
  | .copyFrom destOffset source sourceOffset count =>
      copyInto destOffset source sourceOffset count

/-! ## Stores one after the other -/

variable {s : Cells} {place : UInt64}

theorem runFrom_store (h : place.toNat < s.region.length) (value : UInt8) :
    (store place value).runFrom s = (.ok (), s.write place.toNat [value]) := by
  rw [Cells.write, Buffer.overwrite_singleton h]
  exact runFrom_bind_of_ok (runFrom_require_of h) _

/-- Bytes that are stored one after the other are a span that is written. -/
theorem runFrom_storeAll {data : Bytes} (hwords : s.region.length < 2 ^ 64)
    (h : place.toNat + data.length ≤ s.region.length) :
    (storeAll place data).runFrom s = (.ok (), s.write place.toNat data) := by
  induction data generalizing s place with
  | nil =>
      have hkept : s.write place.toNat [] = s :=
        congrArg (Cells.mk · s.mark) (Buffer.overwrite_nil h)
      rw [hkept]
      rfl
  | cons value others ih =>
      have hspan : place.toNat + (others.length + 1) ≤ s.region.length := h
      -- there is a cell at the place, so the place behind it is still a word
      have hnext : (place + 1).toNat = place.toNat + 1 := by
        rw [UInt64.toNat_add, UInt64.toNat_one]
        omega
      have hlength : (s.write place.toNat [value]).region.length = s.region.length :=
        Buffer.length_overwrite ..
      have hwhole : (s.write place.toNat [value]).write (place.toNat + 1) others =
          s.write place.toNat (value :: others) :=
        congrArg (Cells.mk · s.mark) (Buffer.overwrite_append (x := [value]) h).symm
      rw [storeAll, runFrom_bind_of_ok (runFrom_store (by omega) value),
        ih (by omega) (by omega), hnext, hwhole]

theorem runFrom_moveTo {mark : UInt64} (h : mark ≤ s.capacity) :
    (moveTo mark).runFrom s = (.ok (), { s with mark }) :=
  runFrom_bind_of_ok (runFrom_require_of h) _

variable {offset count available : UInt64} {n : Nat}

theorem runFrom_span_of_le (hn : available.toNat = n) (h : offset.toNat + count.toNat ≤ n) :
    (span offset count available).runFrom s = (.ok (), s) := by
  subst hn
  rw [span, Span.check_eq, Buffer.checkSpan_of_le h, runFrom_accept]
  rfl

theorem runFrom_span_of_lt (hn : available.toNat = n) (h : n < offset.toNat + count.toNat) :
    (span offset count available).runFrom s =
      (.error (.error (.bounds offset.toNat count.toNat (n - offset.toNat))), s) := by
  subst hn
  rw [span, Span.check_eq, Buffer.checkSpan_of_lt h, runFrom_accept]
  rfl

/-! ## Ending as on the buffer -/

/-- What work in place comes to and leaves if it does what an operation on a buffer
does. -/
def ended (b : Buffer) : Except Refusal Buffer → Except Refusal Unit × Cells
  | .ok b' => (.ok (), b'.cells)
  | .error e => (.error e, b.cells)

/-- The bytes that an operation is given are counted in a word. -/
def InWords : Operation → Prop
  | .put piece => piece.bytes.length < 2 ^ 64
  | .copyFrom _ source _ _ => source.length < 2 ^ 64
  | _ => True

variable {b : Buffer} {op : Operation}

theorem toNat_mark (h : b.capacity < 2 ^ 64) : b.cells.mark.toNat = b.length :=
  UInt64.toNat_ofNat_of_lt' (Nat.lt_of_le_of_lt b.length_le h)

theorem toNat_capacity (h : b.capacity < 2 ^ 64) :
    b.cells.capacity.toNat = b.capacity :=
  UInt64.toNat_ofNat_of_lt' h

/-- The room behind the mark does not wrap around. -/
theorem le_room_iff {data : Bytes} (h : b.capacity < 2 ^ 64)
    (hdata : data.length < 2 ^ 64) :
    UInt64.ofNat data.length ≤ b.cells.capacity - b.cells.mark ↔
      b.length + data.length ≤ b.capacity := by
  have hlength : b.length ≤ b.capacity := b.length_le
  have hmark : b.cells.mark ≤ b.cells.capacity := by
    rw [UInt64.le_iff_toNat_le, toNat_mark h, toNat_capacity h]
    exact hlength
  rw [UInt64.le_iff_toNat_le, UInt64.toNat_sub_of_le _ _ hmark, toNat_mark h,
    toNat_capacity h, UInt64.toNat_ofNat_of_lt' hdata]
  omega

theorem le_capacity_iff {n : UInt64} (h : b.capacity < 2 ^ 64) :
    n ≤ b.cells.capacity ↔ n.toNat ≤ b.capacity := by
  rw [UInt64.le_iff_toNat_le, toNat_capacity h]

theorem lt_mark_iff {n : UInt64} (h : b.capacity < 2 ^ 64) :
    n < b.cells.mark ↔ n.toNat < b.length := by
  rw [UInt64.lt_iff_toNat_lt, toNat_mark h]

theorem runFrom_put {data : Bytes} (h : b.capacity < 2 ^ 64) (hdata : data.length < 2 ^ 64)
    (hroom : b.length + data.length ≤ b.capacity) :
    (put data).runFrom b.cells =
      (.ok (), ⟨overwrite b.region b.length data, UInt64.ofNat (b.length + data.length)⟩) := by
  have hmark := toNat_mark h
  have hinside : b.cells.mark.toNat + data.length ≤ b.cells.region.length := by
    rw [hmark]
    exact hroom
  have hsum : b.cells.mark + UInt64.ofNat data.length =
      UInt64.ofNat (b.length + data.length) := (UInt64.ofNat_add ..).symm
  have hend : b.cells.mark + UInt64.ofNat data.length ≤
      (b.cells.write b.length data).capacity := by
    rw [hsum, Cells.capacity_write, le_capacity_iff h,
      UInt64.toNat_ofNat_of_lt' (Nat.lt_of_le_of_lt hroom h)]
    exact hroom
  rw [put, runFrom_get_bind,
    runFrom_bind_of_ok (runFrom_require_of ((le_room_iff h hdata).mpr hroom)),
    runFrom_bind_of_ok (runFrom_storeAll (s := b.cells) h hinside), hmark,
    runFrom_moveTo hend, hsum]
  rfl

/-- An operation that is allowed stores its span and moves the mark. -/
theorem runFrom_carryOut_of_allows (h : b.capacity < 2 ^ 64) (hcount : InWords op)
    (hallows : b.Allows op) :
    (carryOut op).runFrom b.cells =
      (.ok (), ⟨overwrite b.region (b.written op).1 (b.written op).2,
        UInt64.ofNat (b.marked op)⟩) := by
  have hkept : overwrite b.region 0 [] = b.region := Buffer.overwrite_nil (Nat.zero_le _)
  cases op with
  | put piece => exact runFrom_put h hcount hallows
  | set index value =>
      have hcell : index.toNat < b.cells.region.length :=
        Nat.lt_of_lt_of_le hallows b.length_le
      rw [carryOut, setByte, runFrom_get_bind,
        runFrom_bind_of_ok (runFrom_require_of ((lt_mark_iff h).mpr hallows)),
        runFrom_store hcell]
      rfl
  | truncate n =>
      rw [carryOut, runFrom_moveTo ((le_capacity_iff h).mpr hallows), Buffer.written,
        Buffer.marked, hkept, UInt64.ofNat_toNat]
      rfl
  | clear =>
      rw [carryOut, runFrom_moveTo ((le_capacity_iff h).mpr (Nat.zero_le _)),
        Buffer.written, hkept]
      rfl
  | maximize =>
      rw [carryOut, runFrom_get_bind, runFrom_moveTo (UInt64.le_refl _), Buffer.written,
        hkept]
      rfl
  | copyFrom destOffset source sourceOffset count =>
      have hinside : destOffset.toNat +
          ((source.drop sourceOffset.toNat).take count.toNat).length ≤
            b.cells.region.length := Buffer.written_inside hallows
      have hsource : (UInt64.ofNat source.length).toNat = source.length :=
        UInt64.toNat_ofNat_of_lt' hcount
      rw [carryOut, copyInto, runFrom_get_bind,
        runFrom_bind_of_ok (runFrom_span_of_le hsource hallows.1),
        runFrom_bind_of_ok (runFrom_span_of_le (toNat_mark h) hallows.2),
        runFrom_storeAll (s := b.cells) h hinside]
      rfl

/-- An operation that is not allowed is refused before anything is stored. -/
theorem runFrom_carryOut_of_not_allows (h : b.capacity < 2 ^ 64) (hcount : InWords op)
    (hrefused : ¬b.Allows op) :
    (carryOut op).runFrom b.cells = (.error (b.refusal op), b.cells) := by
  cases op with
  | put piece =>
      rw [carryOut, put, runFrom_get_bind, runFrom_bind_of_error
        (runFrom_require_of_not (mt (le_room_iff h hcount).mp hrefused))]
      rfl
  | set index value =>
      rw [carryOut, setByte, runFrom_get_bind, runFrom_bind_of_error
        (runFrom_require_of_not (mt (lt_mark_iff h).mp hrefused))]
      rfl
  | truncate n =>
      rw [carryOut, moveTo, runFrom_get_bind, runFrom_bind_of_error
        (runFrom_require_of_not (mt (le_capacity_iff h).mp hrefused))]
      rfl
  | clear => exact absurd trivial hrefused
  | maximize => exact absurd trivial hrefused
  | copyFrom destOffset source sourceOffset count =>
      have hsource : (UInt64.ofNat source.length).toNat = source.length :=
        UInt64.toNat_ofNat_of_lt' hcount
      rw [carryOut, copyInto, runFrom_get_bind, Buffer.refusal]
      by_cases hle : sourceOffset.toNat + count.toNat ≤ source.length
      · have hlt : b.length < destOffset.toNat + count.toNat :=
          Nat.not_le.mp fun hdest => hrefused ⟨hle, hdest⟩
        rw [if_pos hle, runFrom_bind_of_ok (runFrom_span_of_le hsource hle),
          runFrom_bind_of_error (runFrom_span_of_lt (toNat_mark h) hlt)]
      · have hlt : source.length < sourceOffset.toNat + count.toNat := Nat.not_le.mp hle
        rw [if_neg hle, runFrom_bind_of_error (runFrom_span_of_lt hsource hlt)]

/-- An operation in place comes to what the operation on the buffer comes to. -/
theorem runFrom_carryOut (h : b.capacity < 2 ^ 64) (hcount : InWords op) :
    (carryOut op).runFrom b.cells = ended b (b.outcome op) := by
  by_cases hallows : b.Allows op
  · obtain ⟨b', houtcome, hregion, hlength⟩ := Buffer.outcome_of_allows hallows
    rw [runFrom_carryOut_of_allows h hcount hallows, houtcome, ended, Buffer.cells, hregion,
      hlength]
  · rw [runFrom_carryOut_of_not_allows h hcount hallows,
      Buffer.outcome_of_not_allows hallows]
    rfl

theorem runFrom_copyOut (h : b.capacity < 2 ^ 64) (offset count : UInt64) :
    (copyOut offset count).runFrom b.cells =
      ((b.copy offset.toNat count.toNat).mapError .error, b.cells) := by
  have hmark := toNat_mark h
  rw [copyOut, runFrom_get_bind]
  rcases Nat.lt_or_ge b.length (offset.toNat + count.toNat) with hlt | hle
  · rw [runFrom_bind_of_error (runFrom_span_of_lt hmark hlt), Buffer.copy_of_lt hlt]
    rfl
  · rw [runFrom_bind_of_ok (runFrom_span_of_le hmark hle), hmark, Buffer.copy_of_le hle]
    rfl

/-! ## Runs -/

/-- The cells that operations leave one after the other, whatever of them is refused. -/
def carryOutAll (s : Cells) : List Operation → Cells
  | [] => s
  | op :: others => carryOutAll ((carryOut op).runFrom s).2 others

theorem cells_after (h : b.capacity < 2 ^ 64) (hcount : InWords op) :
    ((carryOut op).runFrom b.cells).2 = (b.after op).cells := by
  rw [runFrom_carryOut h hcount, Buffer.after]
  cases b.outcome op <;> rfl

theorem carryOutAll_cells {ops : List Operation} (h : b.capacity < 2 ^ 64)
    (hcount : ∀ op ∈ ops, InWords op) : carryOutAll b.cells ops = (b.run ops).cells := by
  induction ops generalizing b with
  | nil => rfl
  | cons op others ih =>
      rw [List.forall_mem_cons] at hcount
      rw [carryOutAll, cells_after h hcount.1, ih (by rwa [b.capacity_after]) hcount.2]
      rfl

end Storing

namespace Buffer

/-- In place every operation comes to what it comes to on the buffer, and one that is
refused leaves all cells and the mark as they were. -/
structure StoresInPlace (b : Buffer) : Prop where
  carryOut {op : Operation} (hcount : Storing.InWords op) :
    (Storing.carryOut op).runFrom b.cells = Storing.ended b (b.outcome op)
  copyOut (offset count : UInt64) :
    (Storing.copyOut offset count).runFrom b.cells =
      ((b.copy offset.toNat count.toNat).mapError .error, b.cells)
  cells_of_refused {op : Operation} {e : Refusal} {s : Cells} (hcount : Storing.InWords op)
    (h : (Storing.carryOut op).runFrom b.cells = (.error e, s)) : s = b.cells

theorem storesInPlace {b : Buffer} (h : b.capacity < 2 ^ 64) : b.StoresInPlace where
  carryOut := Storing.runFrom_carryOut h
  copyOut := Storing.runFrom_copyOut h
  cells_of_refused {op} _ _ hcount hrefused := by
    rw [Storing.runFrom_carryOut h hcount] at hrefused
    cases houtcome : b.outcome op with
    | ok b' =>
        rw [houtcome] at hrefused
        cases hrefused
    | error e =>
        rw [houtcome] at hrefused
        cases hrefused
        rfl

/-- A buffer is a fixed array with a mark: after any operations its size is the same,
every byte of its region is the last one that was written there by an operation that
succeeded, spans are copied exactly if they are in range, and in place all of this is
done with words and without a store that a refusal would leave behind. -/
theorem fixed_array_with_mark (b : Buffer) (ops : List Operation) :
    b.FixedArray ops ∧ (b.run ops).CopiesSpans ∧
      (b.capacity < 2 ^ 64 → (∀ op ∈ ops, Storing.InWords op) →
        Storing.carryOutAll b.cells ops = (b.run ops).cells ∧ (b.run ops).StoresInPlace) :=
  ⟨b.fixedArray ops, (b.run ops).copiesSpans, fun h hcount =>
    ⟨Storing.carryOutAll_cells h hcount, storesInPlace (by rwa [b.capacity_run])⟩⟩

end Buffer

end Coap
