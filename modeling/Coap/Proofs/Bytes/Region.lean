import Coap.Proofs.Bytes.Span

/-!
# The bytes of a region

A buffer is a fixed array with a mark. Every operation on it writes one span of the
region at most and moves the mark, or is refused. `outcome_of_allows` says this of all
operations at once: when one succeeds, which bytes it writes and where, and where the
mark is then.

Bytes behind the mark are out of view and stay where they are. So the byte at an index
is the one that was last written there by an operation that succeeded, however often the
mark has been moved to and fro since.

## Main results

* `getElem?_overwrite` — what stands at each index after a span was written.
* `outcome_of_allows`, `outcome_of_not_allows` — what an operation comes to.
* `getElem?_region_run` — after any sequence of operations each index has what was last
  written there.
-/

namespace Coap.Buffer

/-! ## Writing a span -/

theorem getElem?_overwrite {region data : Bytes} {offset : Nat}
    (h : offset + data.length ≤ region.length) (i : Nat) :
    (overwrite region offset data)[i]? =
      if offset ≤ i ∧ i < offset + data.length then data[i - offset]?
      else region[i]? := by
  have hfront : (region.take offset).length = offset := by
    rw [List.length_take]
    omega
  rw [overwrite_of_le h, List.append_assoc]
  rcases Nat.lt_or_ge i offset with hbefore | hbehind
  · rw [if_neg (by omega), List.getElem?_append_left (by omega),
      List.getElem?_take_of_lt hbefore]
  · rw [List.getElem?_append_right (by omega), hfront]
    rcases Nat.lt_or_ge i (offset + data.length) with hin | hafter
    · rw [if_pos ⟨hbehind, hin⟩, List.getElem?_append_left (by omega)]
    · rw [if_neg (by omega), List.getElem?_append_right (by omega), List.getElem?_drop]
      congr 1
      omega

/-- One byte is written by setting it. -/
theorem overwrite_singleton {region : Bytes} {i : Nat} (h : i < region.length)
    (v : UInt8) : overwrite region i [v] = region.set i v := by
  apply List.ext_getElem?
  intro j
  rw [getElem?_overwrite (show i + [v].length ≤ region.length from h), List.length_singleton]
  by_cases hj : j = i
  · subst hj
    rw [if_pos (by omega), List.getElem?_set_self h, Nat.sub_self]
    rfl
  · rw [if_neg (by omega), List.getElem?_set_ne (Ne.symm hj)]

/-! ## Copying spans -/

section

variable {b : Buffer} {destOffset sourceOffset count : Nat} {source : Bytes}

theorem copy_of_le {offset : Nat} (h : offset + count ≤ b.length) :
    b.copy offset count = .ok (ofBytes ((b.contents.drop offset).take count)) := by
  rw [copy, checkSpan_of_le h]
  rfl

theorem copy_of_lt {offset : Nat} (h : b.length < offset + count) :
    b.copy offset count = .error (.bounds offset count (b.length - offset)) := by
  rw [copy, checkSpan_of_lt h]
  rfl

/-- A span that lies in the source and in view is written, and the mark stays. -/
theorem copyFrom_of_le (hsource : sourceOffset + count ≤ source.length)
    (hdest : destOffset + count ≤ b.length) :
    ∃ b', b.copyFrom destOffset source sourceOffset count = .ok b' ∧
      b'.region = overwrite b.region destOffset ((source.drop sourceOffset).take count) ∧
      b'.length = b.length := by
  rw [copyFrom, checkSpan_of_le hsource, checkSpan_of_le hdest]
  exact ⟨_, rfl, rfl, rfl⟩

theorem copyFrom_of_source_lt (h : source.length < sourceOffset + count) :
    b.copyFrom destOffset source sourceOffset count =
      .error (.bounds sourceOffset count (source.length - sourceOffset)) := by
  rw [copyFrom, checkSpan_of_lt h]
  rfl

theorem copyFrom_of_dest_lt (hsource : sourceOffset + count ≤ source.length)
    (h : b.length < destOffset + count) :
    b.copyFrom destOffset source sourceOffset count =
      .error (.bounds destOffset count (b.length - destOffset)) := by
  rw [copyFrom, checkSpan_of_le hsource, checkSpan_of_lt h]
  rfl

/-- A span is written only if it lies in the source and in view. -/
theorem le_of_copyFrom {b' : Buffer}
    (h : b.copyFrom destOffset source sourceOffset count = .ok b') :
    sourceOffset + count ≤ source.length ∧ destOffset + count ≤ b.length := by
  rcases Nat.lt_or_ge source.length (sourceOffset + count) with hsource | hsource
  · rw [copyFrom_of_source_lt hsource] at h
    contradiction
  · rcases Nat.lt_or_ge b.length (destOffset + count) with hdest | hdest
    · rw [copyFrom_of_dest_lt hsource hdest] at h
      contradiction
    · exact ⟨hsource, hdest⟩

theorem region_length_of_copyFrom {b' : Buffer}
    (h : b.copyFrom destOffset source sourceOffset count = .ok b') :
    b'.region = overwrite b.region destOffset ((source.drop sourceOffset).take count) ∧
      b'.length = b.length := by
  obtain ⟨hsource, hdest⟩ := le_of_copyFrom h
  obtain ⟨b₁, hb₁, hregion, hlength⟩ := copyFrom_of_le hsource hdest
  obtain rfl : b₁ = b' := Except.ok.inj (hb₁.symm.trans h)
  exact ⟨hregion, hlength⟩

end

/-! ## Operations -/

/-- What is put at the mark. -/
inductive Piece where
  | uInt8 (a : UInt8)
  | uInt16 (w : UInt16)
  | uInt32 (w : UInt32)
  | slice (data : Bytes)

/-- The bytes of a piece, those of a word most significant byte first. -/
def Piece.bytes : Piece → Bytes
  | .uInt8 a => [a]
  | .uInt16 w => Bytes.ofUInt16 w
  | .uInt32 w => Bytes.ofUInt32 w
  | .slice data => data

/-- An operation on a buffer. -/
inductive Operation where
  | put (piece : Piece)
  /-- Write one of the bytes in view. -/
  | set (index : UInt64) (value : UInt8)
  | truncate (n : UInt64)
  | clear
  | maximize
  | copyFrom (destOffset : UInt64) (source : Bytes) (sourceOffset count : UInt64)

/-- How an operation is refused. -/
inductive Refusal where
  /-- It would leave the region, and nothing goes on behind it. -/
  | fault
  | error (e : CodecError)

/-- What an operation that must not leave the region comes to. -/
def orFault : Option Buffer → Except Refusal Buffer
  | some b => .ok b
  | none => .error .fault

/-- What an operation comes to. -/
def outcome (b : Buffer) : Operation → Except Refusal Buffer
  | .put piece => orFault (b.append? piece.bytes)
  | .set index value => orFault (b.set? index.toNat value)
  | .truncate n => orFault (b.truncate? n.toNat)
  | .clear => .ok b.clear
  | .maximize => .ok b.maximize
  | .copyFrom destOffset source sourceOffset count =>
      (b.copyFrom destOffset.toNat source sourceOffset.toNat count.toNat).mapError .error

/-- When an operation is carried out. -/
def Allows (b : Buffer) : Operation → Prop
  | .put piece => b.length + piece.bytes.length ≤ b.capacity
  | .set index _ => index.toNat < b.length
  | .truncate n => n.toNat ≤ b.capacity
  | .clear => True
  | .maximize => True
  | .copyFrom destOffset source sourceOffset count =>
      sourceOffset.toNat + count.toNat ≤ source.length ∧
        destOffset.toNat + count.toNat ≤ b.length

/-- Where an operation writes, and what. -/
def written (b : Buffer) : Operation → Nat × Bytes
  | .put piece => (b.length, piece.bytes)
  | .set index value => (index.toNat, [value])
  | .truncate _ => (0, [])
  | .clear => (0, [])
  | .maximize => (0, [])
  | .copyFrom destOffset source sourceOffset count =>
      (destOffset.toNat, (source.drop sourceOffset.toNat).take count.toNat)

/-- Where an operation leaves the mark. -/
def marked (b : Buffer) : Operation → Nat
  | .put piece => b.length + piece.bytes.length
  | .set _ _ => b.length
  | .truncate n => n.toNat
  | .clear => 0
  | .maximize => b.capacity
  | .copyFrom _ _ _ _ => b.length

/-- How an operation is refused that is not allowed. -/
def refusal (b : Buffer) : Operation → Refusal
  | .copyFrom destOffset source sourceOffset count =>
      if sourceOffset.toNat + count.toNat ≤ source.length then
        .error (.bounds destOffset.toNat count.toNat (b.length - destOffset.toNat))
      else
        .error (.bounds sourceOffset.toNat count.toNat
          (source.length - sourceOffset.toNat))
  | _ => .fault

/-- An operation that is allowed writes one span and moves the mark. -/
theorem outcome_of_allows {b : Buffer} {op : Operation} (h : b.Allows op) :
    ∃ b', b.outcome op = .ok b' ∧
      b'.region = overwrite b.region (b.written op).1 (b.written op).2 ∧
      b'.length = b.marked op := by
  have hmoved : b.region = overwrite b.region 0 [] := (overwrite_nil (Nat.zero_le _)).symm
  cases op with
  | put piece =>
      have hroom : b.length + piece.bytes.length ≤ b.region.length := h
      exact ⟨_, congrArg orFault (dif_pos hroom), rfl, rfl⟩
  | set index value =>
      have hview : index.toNat < b.length := h
      have hregion : index.toNat < b.region.length := Nat.lt_of_lt_of_le h b.length_le
      exact ⟨_, congrArg orFault (if_pos hview), (overwrite_singleton hregion value).symm,
        rfl⟩
  | truncate n =>
      have hcapacity : n.toNat ≤ b.capacity := h
      exact ⟨_, congrArg orFault (dif_pos hcapacity), hmoved, rfl⟩
  | clear => exact ⟨b.clear, rfl, hmoved, rfl⟩
  | maximize => exact ⟨b.maximize, rfl, hmoved, rfl⟩
  | copyFrom destOffset source sourceOffset count =>
      obtain ⟨b', hcopied, hregion, hlength⟩ := copyFrom_of_le h.1 h.2
      exact ⟨b', congrArg (Except.mapError Refusal.error) hcopied, hregion, hlength⟩

theorem outcome_of_not_allows {b : Buffer} {op : Operation} (h : ¬b.Allows op) :
    b.outcome op = .error (b.refusal op) := by
  cases op with
  | put piece => exact congrArg orFault (dif_neg h)
  | set index value => exact congrArg orFault (if_neg h)
  | truncate n => exact congrArg orFault (dif_neg h)
  | clear => exact absurd trivial h
  | maximize => exact absurd trivial h
  | copyFrom destOffset source sourceOffset count =>
      rw [outcome, refusal]
      by_cases hsource : sourceOffset.toNat + count.toNat ≤ source.length
      · have hdest : b.length < destOffset.toNat + count.toNat :=
          Nat.not_le.mp fun hle => h ⟨hsource, hle⟩
        rw [copyFrom_of_dest_lt hsource hdest, if_pos hsource]
        rfl
      · rw [copyFrom_of_source_lt (Nat.not_le.mp hsource), if_neg hsource]
        rfl

/-- An operation is carried out. -/
def Succeeds (b : Buffer) (op : Operation) : Prop := ∃ b', b.outcome op = .ok b'

theorem succeeds_iff_allows {b : Buffer} {op : Operation} :
    b.Succeeds op ↔ b.Allows op := by
  constructor
  · rintro ⟨b', hb'⟩
    by_cases h : b.Allows op
    · exact h
    · rw [outcome_of_not_allows h] at hb'
      contradiction
  · intro h
    obtain ⟨b', hb', -, -⟩ := outcome_of_allows h
    exact ⟨b', hb'⟩

/-- The buffer after an operation: as it was, if the operation is refused. -/
def after (b : Buffer) (op : Operation) : Buffer :=
  match b.outcome op with
  | .ok b' => b'
  | .error _ => b

/-- The buffer after a sequence of operations, whatever of it is refused. -/
def run (b : Buffer) : List Operation → Buffer
  | [] => b
  | op :: others => (b.after op).run others

theorem after_of_not_allows {b : Buffer} {op : Operation} (h : ¬b.Allows op) :
    b.after op = b := by
  rw [after, outcome_of_not_allows h]

theorem region_after_of_allows {b : Buffer} {op : Operation} (h : b.Allows op) :
    (b.after op).region = overwrite b.region (b.written op).1 (b.written op).2 := by
  obtain ⟨b', houtcome, hregion, -⟩ := outcome_of_allows h
  rw [after, houtcome]
  exact hregion

/-- What is written lies in the region. -/
theorem written_inside {b : Buffer} {op : Operation} (h : b.Allows op) :
    (b.written op).1 + (b.written op).2.length ≤ b.region.length := by
  have hmark := b.length_le
  cases op with
  | put piece => exact h
  | set index value => exact Nat.lt_of_lt_of_le h hmark
  | truncate n => exact Nat.zero_le _
  | clear => exact Nat.zero_le _
  | maximize => exact Nat.zero_le _
  | copyFrom destOffset source sourceOffset count =>
      have hdest := h.2
      simp only [written, List.length_take, List.length_drop]
      omega

/-! ## What was last written -/

/-- An operation succeeds and writes a byte at an index. -/
structure Writes (b : Buffer) (op : Operation) (i : Nat) (v : UInt8) : Prop where
  succeeds : b.Succeeds op
  place_le : (b.written op).1 ≤ i
  byte : (b.written op).2[i - (b.written op).1]? = some v

/-- None of a sequence of operations writes at an index. -/
inductive Untouched (i : Nat) : Buffer → List Operation → Prop where
  | nil (b : Buffer) : Untouched i b []
  | cons {b : Buffer} {op : Operation} {others : List Operation}
      (hfirst : ∀ v, ¬b.Writes op i v) (hothers : Untouched i (b.after op) others) :
      Untouched i b (op :: others)

/-- A byte is the last one that a sequence of operations writes at an index. -/
inductive LastWritten (i : Nat) (v : UInt8) : Buffer → List Operation → Prop where
  | first {b : Buffer} {op : Operation} {others : List Operation}
      (hfirst : b.Writes op i v) (hothers : Untouched i (b.after op) others) :
      LastWritten i v b (op :: others)
  | later {b : Buffer} {op : Operation} {others : List Operation}
      (hothers : LastWritten i v (b.after op) others) : LastWritten i v b (op :: others)

theorem getElem?_after_of_writes {b : Buffer} {op : Operation} {i : Nat} {v : UInt8}
    (h : b.Writes op i v) : (b.after op).region[i]? = some v := by
  obtain ⟨hlt, -⟩ := List.getElem?_eq_some_iff.mp h.byte
  have hplace := h.place_le
  have hallows := succeeds_iff_allows.mp h.succeeds
  rw [region_after_of_allows hallows, getElem?_overwrite (written_inside hallows),
    if_pos ⟨hplace, by omega⟩, h.byte]

theorem getElem?_after_of_not_writes {b : Buffer} {op : Operation} {i : Nat}
    (h : ∀ v, ¬b.Writes op i v) : (b.after op).region[i]? = b.region[i]? := by
  by_cases hallows : b.Allows op
  · rw [region_after_of_allows hallows, getElem?_overwrite (written_inside hallows), if_neg]
    rintro ⟨hplace, hlt⟩
    have hbyte := List.getElem?_eq_getElem
      (show i - (b.written op).1 < (b.written op).2.length by omega)
    exact h _ ⟨succeeds_iff_allows.mpr hallows, hplace, hbyte⟩
  · rw [after_of_not_allows hallows]

theorem getElem?_run_of_untouched {b : Buffer} {ops : List Operation} {i : Nat}
    (h : Untouched i b ops) : (b.run ops).region[i]? = b.region[i]? := by
  induction h with
  | nil b => rfl
  | cons hfirst hothers ih => exact ih.trans (getElem?_after_of_not_writes hfirst)

theorem getElem?_run_of_lastWritten {b : Buffer} {ops : List Operation} {i : Nat}
    {v : UInt8} (h : LastWritten i v b ops) : (b.run ops).region[i]? = some v := by
  induction h with
  | first hfirst hothers =>
      exact (getElem?_run_of_untouched hothers).trans (getElem?_after_of_writes hfirst)
  | later hothers ih => exact ih

/-- An index is left alone, or there is a byte that is last written there. -/
theorem untouched_or_lastWritten (i : Nat) (b : Buffer) (ops : List Operation) :
    Untouched i b ops ∨ ∃ v, LastWritten i v b ops := by
  induction ops generalizing b with
  | nil => exact .inl (.nil b)
  | cons op others ih =>
      -- what the later operations write covers what the first one does
      rcases ih (b.after op) with huntouched | ⟨v, hlast⟩
      · by_cases hfirst : ∃ v, b.Writes op i v
        · obtain ⟨v, hwrites⟩ := hfirst
          exact .inr ⟨v, .first hwrites huntouched⟩
        · exact .inl (.cons (not_exists.mp hfirst) huntouched)
      · exact .inr ⟨v, .later hlast⟩

/-- After any sequence of operations each index has what was last written there. -/
theorem getElem?_region_run {b : Buffer} {ops : List Operation} {i : Nat} {v : UInt8} :
    (b.run ops).region[i]? = some v ↔
      LastWritten i v b ops ∨ Untouched i b ops ∧ b.region[i]? = some v := by
  constructor
  · intro h
    rcases untouched_or_lastWritten i b ops with huntouched | ⟨w, hlast⟩
    · exact .inr ⟨huntouched, (getElem?_run_of_untouched huntouched).symm.trans h⟩
    · have hw := getElem?_run_of_lastWritten hlast
      rw [h, Option.some.injEq] at hw
      exact .inl (hw ▸ hlast)
  · rintro (hlast | ⟨huntouched, hbefore⟩)
    · exact getElem?_run_of_lastWritten hlast
    · exact (getElem?_run_of_untouched huntouched).trans hbefore

theorem capacity_after (b : Buffer) (op : Operation) :
    (b.after op).capacity = b.capacity := by
  by_cases h : b.Allows op
  · rw [capacity, region_after_of_allows h, length_overwrite]
    rfl
  · rw [after_of_not_allows h]

theorem capacity_run (b : Buffer) (ops : List Operation) :
    (b.run ops).capacity = b.capacity := by
  induction ops generalizing b with
  | nil => rfl
  | cons op others ih => exact (ih (b.after op)).trans (b.capacity_after op)

/-- What a buffer is after a sequence of operations: no larger than it was, and every byte
of its region the last one that was written there. All of the region is shown when the
mark is at its end. -/
structure FixedArray (b : Buffer) (ops : List Operation) : Prop where
  capacity_eq : (b.run ops).capacity = b.capacity
  length_le : (b.run ops).length ≤ b.capacity
  shown_iff (i : Nat) (v : UInt8) :
    (b.run ops).maximize.contents[i]? = some v ↔
      LastWritten i v b ops ∨ Untouched i b ops ∧ b.maximize.contents[i]? = some v
  succeeds_iff (op : Operation) : (b.run ops).Succeeds op ↔ (b.run ops).Allows op

theorem contents_maximize (b : Buffer) : b.maximize.contents = b.region :=
  List.take_length

theorem fixedArray (b : Buffer) (ops : List Operation) : FixedArray b ops where
  capacity_eq := b.capacity_run ops
  length_le := by
    rw [← b.capacity_run ops]
    exact (b.run ops).length_le
  shown_iff i v := by
    rw [contents_maximize, contents_maximize]
    exact getElem?_region_run
  succeeds_iff _ := succeeds_iff_allows

/-- Spans are copied exactly if they are in range, and nothing but the span that is
copied to is changed. -/
structure CopiesSpans (b : Buffer) : Prop where
  copy_iff (offset count : Nat) (c : Buffer) :
    b.copy offset count = .ok c ↔
      offset + count ≤ b.length ∧ c = ofBytes ((b.contents.drop offset).take count)
  copyFrom_iff (destOffset : Nat) (source : Bytes) (sourceOffset count : Nat) :
    (∃ b', b.copyFrom destOffset source sourceOffset count = .ok b') ↔
      sourceOffset + count ≤ source.length ∧ destOffset + count ≤ b.length
  length_of_copyFrom {destOffset : Nat} {source : Bytes} {sourceOffset count : Nat}
    {b' : Buffer} (h : b.copyFrom destOffset source sourceOffset count = .ok b') :
    b'.length = b.length
  region_of_copyFrom {destOffset : Nat} {source : Bytes} {sourceOffset count : Nat}
    {b' : Buffer} (h : b.copyFrom destOffset source sourceOffset count = .ok b')
    (i : Nat) :
    b'.region[i]? =
      if destOffset ≤ i ∧ i < destOffset + count then
        source[sourceOffset + (i - destOffset)]?
      else b.region[i]?

theorem copiesSpans (b : Buffer) : b.CopiesSpans where
  copy_iff offset count c := by
    rcases Nat.lt_or_ge b.length (offset + count) with hlt | hle
    · rw [copy_of_lt hlt]
      exact iff_of_false (by simp) fun h => absurd h.1 (by omega)
    · rw [copy_of_le hle, Except.ok.injEq, eq_comm]
      exact (and_iff_right hle).symm
  copyFrom_iff destOffset source sourceOffset count := by
    constructor
    · rintro ⟨b', h⟩
      exact le_of_copyFrom h
    · rintro ⟨hsource, hdest⟩
      obtain ⟨b', h, -, -⟩ := copyFrom_of_le hsource hdest
      exact ⟨b', h⟩
  length_of_copyFrom h := (region_length_of_copyFrom h).2
  region_of_copyFrom {destOffset source sourceOffset count} _ h i := by
    have hview := b.length_le
    obtain ⟨hsource, hdest⟩ := le_of_copyFrom h
    have hcount : ((source.drop sourceOffset).take count).length = count := by
      rw [List.length_take, List.length_drop]
      omega
    rw [(region_length_of_copyFrom h).1, getElem?_overwrite (by omega), hcount]
    split
    · next hin => rw [List.getElem?_take_of_lt (by omega), List.getElem?_drop]
    · rfl

end Coap.Buffer
