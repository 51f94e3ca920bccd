import Coap.Message.Wire
import Coap.Proofs.Codec.Grammar

/-!
# Reading is parsing the grammar

Each reader succeeds exactly on the bytes that the grammar has for its
result and takes just those bytes off the cursor. The statements are
equivalences, so a reader made of others is taken apart by rewriting with
theirs.

## Main results

* `collectFrom_eq_ok_iff` — the options that are read are those of the
  grammar, up to the payload marker or the end.
* `countFrom_eq` — the pass that counts the options agrees with the pass
  that collects them.
* `Options.read_eq_ok_iff` — options are read exactly where a form of them
  ends at the payload marker or at the end.
-/

namespace Coap

/-- Two steps succeed if the first does and the second does on its value. -/
theorem bind_eq_ok_iff {ε α β : Type} {x : Except ε α} {f : α → Except ε β}
    {b : β} : (x >>= f) = .ok b ↔ ∃ a, x = .ok a ∧ f a = .ok b := by
  cases x with
  | error e => simp [bind, Except.bind]
  | ok a => simp [bind, Except.bind]

/-- Two steps fail if the first does, or the second on its value. -/
theorem bind_eq_error_iff {ε α β : Type} {x : Except ε α} {f : α → Except ε β}
    {e : ε} :
    (x >>= f) = .error e ↔ x = .error e ∨ ∃ a, x = .ok a ∧ f a = .error e := by
  cases x with
  | error e => simp [bind, Except.bind]
  | ok a => simp [bind, Except.bind]

/-! ## What is taken off a cursor -/

/-- Reading went from the cursor `c` over the bytes `text` to `c'`. -/
structure Cursor.Reads (c : Cursor) (text : Bytes) (c' : Cursor) : Prop where
  rest : c.rest = text ++ c'.rest
  position : c'.position = c.position + text.length

namespace Cursor

theorem Reads.nil (c : Cursor) : c.Reads [] c := ⟨rfl, rfl⟩

theorem Reads.append {c c' c'' : Cursor} {s t : Bytes} (h : c.Reads s c')
    (h' : c'.Reads t c'') : c.Reads (s ++ t) c'' := by
  refine ⟨?_, ?_⟩
  · rw [h.rest, h'.rest, List.append_assoc]
  · rw [h'.position, h.position, List.length_append, Nat.add_assoc]

/-- Bytes in two parts are read one part after the other. -/
theorem Reads.split {c c'' : Cursor} {s t : Bytes} (h : c.Reads (s ++ t) c'') :
    ∃ c', c.Reads s c' ∧ c'.Reads t c'' := by
  refine ⟨⟨c.position + s.length, t ++ c''.rest⟩, ⟨?_, rfl⟩, ⟨rfl, ?_⟩⟩
  · rw [h.rest, List.append_assoc]
  · rw [h.position, List.length_append, Nat.add_assoc]

theorem reads_nil_iff {c c' : Cursor} : c.Reads [] c' ↔ c' = c := by
  constructor
  · intro h
    have hrest := h.rest
    have hposition := h.position
    rcases c with ⟨p, r⟩
    rcases c' with ⟨p', r'⟩
    simp only [List.nil_append, List.length_nil, Nat.add_zero] at hrest hposition
    rw [hrest, hposition]
  · rintro rfl
    exact Reads.nil _

theorem next_eq_ok_iff {n : Nat} {c c' : Cursor} {taken : Bytes} :
    c.next n = .ok (taken, c') ↔ taken.length = n ∧ c.Reads taken c' := by
  constructor
  · intro h
    obtain ⟨hrest, hlength, hposition⟩ := rest_of_next h
    exact ⟨hlength, hrest, by rw [hposition, hlength]⟩
  · rintro ⟨rfl, hrest, hposition⟩
    rcases c with ⟨p, r⟩
    rcases c' with ⟨p', r'⟩
    simp only at hrest hposition
    rw [hrest, next_append, hposition]

theorem nextUInt8_eq_ok_iff {c c' : Cursor} {a : UInt8} :
    c.nextUInt8 = .ok (a, c') ↔ c.Reads [a] c' := by
  rcases c with ⟨p, r⟩
  rcases c' with ⟨p', r'⟩
  constructor
  · intro h
    unfold nextUInt8 at h
    split at h
    · next hc => cases h; exact ⟨hc, rfl⟩
    · contradiction
  · rintro ⟨hrest, hposition⟩
    simp only [List.cons_append, List.nil_append, List.length_singleton] at hrest hposition
    rw [hrest, hposition]
    rfl

theorem nextUInt16_eq_ok_iff {c c' : Cursor} {w : UInt16} :
    c.nextUInt16 = .ok (w, c') ↔
      ∃ a b, w = Bytes.join16 a b ∧ c.Reads [a, b] c' := by
  rcases c with ⟨p, r⟩
  rcases c' with ⟨p', r'⟩
  constructor
  · intro h
    unfold nextUInt16 at h
    split at h
    · next a b rest hc => cases h; exact ⟨a, b, rfl, hc, rfl⟩
    · contradiction
  · rintro ⟨a, b, rfl, hrest, hposition⟩
    simp only [List.cons_append, List.nil_append] at hrest hposition
    rw [hrest, hposition]
    rfl

theorem nextUInt32_eq_ok_iff {c c' : Cursor} {w : UInt32} :
    c.nextUInt32 = .ok (w, c') ↔
      ∃ a b x y, w = Bytes.join32 a b x y ∧ c.Reads [a, b, x, y] c' := by
  rcases c with ⟨p, r⟩
  rcases c' with ⟨p', r'⟩
  constructor
  · intro h
    unfold nextUInt32 at h
    split at h
    · next a b x y rest hc => cases h; exact ⟨a, b, x, y, rfl, hc, rfl⟩
    · contradiction
  · rintro ⟨a, b, x, y, rfl, hrest, hposition⟩
    simp only [List.cons_append, List.nil_append] at hrest hposition
    rw [hrest, hposition]
    rfl

end Cursor

/-! ## Nibbles and heads -/

namespace ExtendedField

open Grammar

/-- What is read for a nibble is one of its extensions. -/
theorem extension_of_decode {nibble : UInt8} {offset : Nat} {c c' : Cursor}
    {f : ExtendedField} (h : decode nibble offset c = .ok (f, c')) :
    ∃ text, Extension nibble.toNat text f.value ∧ c.Reads text c' := by
  unfold decode at h
  split at h
  · next hlt =>
      cases h
      exact ⟨[], .inline (UInt8.lt_iff_toNat_lt.mp hlt), .nil c⟩
  · split at h
    · next heq =>
        cases hc : c.nextUInt8 with
        | error e => rw [hc] at h; contradiction
        | ok r =>
            rw [hc] at h
            cases h
            subst heq
            exact ⟨[r.1], .oneByte r.1, Cursor.nextUInt8_eq_ok_iff.mp hc⟩
    · split at h
      · next heq =>
          cases hc : c.nextUInt16 with
          | error e => rw [hc] at h; contradiction
          | ok r =>
              rw [hc] at h
              cases h
              subst heq
              obtain ⟨a, b, hw, hreads⟩ := Cursor.nextUInt16_eq_ok_iff.mp hc
              refine ⟨[a, b], ?_, hreads⟩
              simp only [value, hw, Bytes.toNat_join16]
              exact .twoBytes a b
      · contradiction

/-- Every extension of a nibble is read for it. -/
theorem decode_of_extension {nibble : UInt8} {text : Bytes} {v : Nat}
    {c c' : Cursor} (h : Extension nibble.toNat text v) (hc : c.Reads text c')
    (offset : Nat) :
    ∃ f, decode nibble offset c = .ok (f, c') ∧ f.value = v := by
  unfold decode
  generalize hn : nibble.toNat = n at h
  cases h with
  | inline hlt =>
      have hlt' : nibble < 13 := UInt8.lt_iff_toNat_lt.mpr (hn ▸ hlt)
      rw [if_pos hlt', Cursor.reads_nil_iff.mp hc]
      exact ⟨.inline nibble, rfl, hn⟩
  | oneByte a =>
      have heq : nibble = 13 := UInt8.toNat_inj.mp hn
      subst heq
      rw [Cursor.nextUInt8_eq_ok_iff.mpr hc]
      exact ⟨.oneByte a, rfl, rfl⟩
  | twoBytes a b =>
      have heq : nibble = 14 := UInt8.toNat_inj.mp hn
      subst heq
      rw [Cursor.nextUInt16_eq_ok_iff.mpr ⟨a, b, rfl, hc⟩]
      refine ⟨.twoBytes (Bytes.join16 a b), rfl, ?_⟩
      rw [value, Bytes.toNat_join16]

end ExtendedField

/-! ## Options -/

namespace Options

open Grammar

theorem toNat_div_sixteen (head : UInt8) :
    (head / 16).toNat = head.toNat / 16 := by
  rw [UInt8.toNat_div]
  rfl

theorem toNat_mod_sixteen (head : UInt8) :
    (head % 16).toNat = head.toNat % 16 := by
  rw [UInt8.toNat_mod]
  rfl

theorem readHead_eq_ok_iff {previous : UInt16} {offset : Nat} {head : UInt8}
    {c c' : Cursor} {h : Head} :
    readHead previous offset head c = .ok (h, c') ↔
      ∃ delta upper lower,
        Extension (head.toNat / 16) upper delta ∧
        Extension (head.toNat % 16) lower h.length ∧
        previous.toNat + delta ≤ 65535 ∧
        h.number = UInt16.ofNat (previous.toNat + delta) ∧
        c.Reads (upper ++ lower) c' := by
  unfold readHead
  simp only [bind_eq_ok_iff, Prod.exists]
  constructor
  · rintro ⟨f, c₁, hf, g, c₂, hg, h⟩
    split at h
    · next hlt =>
        cases h
        obtain ⟨upper, hupper, hc₁⟩ := ExtendedField.extension_of_decode hf
        obtain ⟨lower, hlower, hc₂⟩ := ExtendedField.extension_of_decode hg
        rw [toNat_div_sixteen] at hupper
        rw [toNat_mod_sixteen] at hlower
        exact ⟨f.value, upper, lower, hupper, hlower, by omega, rfl,
          hc₁.append hc₂⟩
    · contradiction
  · rintro ⟨delta, upper, lower, hupper, hlower, hsum, hnumber, hreads⟩
    obtain ⟨c₁, hc₁, hc₂⟩ := hreads.split
    rw [← toNat_div_sixteen] at hupper
    rw [← toNat_mod_sixteen] at hlower
    obtain ⟨f, hf, hdelta⟩ := ExtendedField.decode_of_extension hupper hc₁ offset
    obtain ⟨g, hg, hlength⟩ := ExtendedField.decode_of_extension hlower hc₂ offset
    refine ⟨f, c₁, hf, g, c', hg, ?_⟩
    rw [hdelta, hlength, if_pos (by omega), ← hnumber]
    rfl

/-- The options end here: nothing is left, or a payload marker is next. -/
def AtEnd (c : Cursor) : Prop :=
  c.rest = [] ∨ ∃ payload, c.rest = payloadMarker :: payload

theorem next?_eq_none_iff {previous : UInt16} {c : Cursor} :
    next? previous c = .ok none ↔ AtEnd c := by
  unfold next? AtEnd
  split
  · next hc => simp [hc]
  · next head rest hc =>
      rw [hc]
      by_cases hm : head = payloadMarker
      · rw [if_pos hm]
        simp [hm]
      · rw [if_neg hm]
        simp only [List.cons_ne_nil, List.cons.injEq, hm, false_and,
          exists_false, or_self, iff_false]
        split
        · simp
        · split
          · simp
          · simp

theorem next?_eq_some_iff {previous : UInt16} {c c' : Cursor}
    {o : MessageOption} :
    next? previous c = .ok (some (o, c')) ↔
      ∃ delta text, OptionForm delta o.value text ∧
        previous.toNat + delta ≤ 65535 ∧
        o.number = UInt16.ofNat (previous.toNat + delta) ∧
        c.Reads text c' := by
  constructor
  · intro h
    unfold next? at h
    split at h
    · simp at h
    · next head rest hc =>
        split at h
        · simp at h
        · split at h
          · contradiction
          · next hd c₁ hr =>
              split at h
              · contradiction
              · next value c₂ hv =>
                  cases h
                  obtain ⟨delta, upper, lower, hupper, hlower, hsum, hnumber,
                    hreads⟩ := readHead_eq_ok_iff.mp hr
                  obtain ⟨hlength, hvalue⟩ := Cursor.next_eq_ok_iff.mp hv
                  have hhead : c.Reads [head] ⟨c.position + 1, rest⟩ := ⟨hc, rfl⟩
                  exact ⟨delta, head :: (upper ++ lower ++ value),
                    .intro hupper (hlength.symm ▸ hlower), hsum, hnumber,
                    hhead.append (hreads.append hvalue)⟩
  · rintro ⟨delta, text, hform, hsum, hnumber, hreads⟩
    cases hform with
    | @intro head upper lower hupper hlower =>
        have hmarker : head ≠ payloadMarker :=
          OptionForm.head_ne_marker (.intro hupper hlower)
        have hreads : c.Reads ([head] ++ (upper ++ lower ++ o.value)) c' := hreads
        obtain ⟨c₁, hhead, hreads⟩ := hreads.split
        obtain ⟨c₂, hreads, hvalue⟩ := hreads.split
        have hc₁ : c₁ = ⟨c.position + 1, c₁.rest⟩ :=
          congrArg (Cursor.mk · c₁.rest) hhead.position
        have hr : readHead previous c.position head ⟨c.position + 1, c₁.rest⟩ =
            .ok (⟨o.number, o.value.length⟩, c₂) :=
          readHead_eq_ok_iff.mpr
            ⟨delta, upper, lower, hupper, hlower, hsum, hnumber, hc₁ ▸ hreads⟩
        have hv : c₂.next o.value.length = .ok (o.value, c') :=
          Cursor.next_eq_ok_iff.mpr ⟨rfl, hvalue⟩
        simp only [next?, hhead.rest, List.cons_append, List.nil_append]
        rw [if_neg hmarker, hr]
        simp only [hv]

theorem collectFrom_of_none {previous : UInt16} {c : Cursor}
    (h : next? previous c = .ok none) : collectFrom previous c = .ok ([], c) := by
  rw [collectFrom]
  split
  · next hx => rw [h] at hx; cases hx
  · rfl
  · next hx => rw [h] at hx; cases hx

theorem collectFrom_of_some {previous : UInt16} {c c' : Cursor}
    {o : MessageOption} (h : next? previous c = .ok (some (o, c'))) :
    collectFrom previous c =
      (collectFrom o.number c').map fun r => (o :: r.1, r.2) := by
  rw [collectFrom]
  split
  · next hx => rw [h] at hx; cases hx
  · next hx => rw [h] at hx; cases hx
  · next hx => rw [h] at hx; cases hx; rfl

theorem collectFrom_of_error {previous : UInt16} {c : Cursor} {e : CodecError}
    (h : next? previous c = .error e) : collectFrom previous c = .error e := by
  rw [collectFrom]
  split
  · next hx => rw [h] at hx; cases hx; rfl
  · next hx => rw [h] at hx; cases hx
  · next hx => rw [h] at hx; cases hx

theorem atEnd_of_collectFrom {previous : UInt16} {c c' : Cursor}
    {l : List MessageOption} (h : collectFrom previous c = .ok (l, c')) :
    AtEnd c' := by
  fun_induction collectFrom previous c generalizing l c' with
  | case1 => contradiction
  | case2 previous c hn =>
      cases h
      exact next?_eq_none_iff.mp hn
  | case3 previous c o c₁ hn ih =>
      cases hc : collectFrom o.number c₁ with
      | error e => rw [hc] at h; contradiction
      | ok r =>
          rw [hc] at h
          cases h
          exact ih hc

/-- The options that are read have the form of the grammar. -/
theorem optionsForm_of_collectFrom {previous : UInt16} {c c' : Cursor}
    {l : List MessageOption} (h : collectFrom previous c = .ok (l, c')) :
    ∃ text, OptionsForm previous.toNat l text ∧ c.Reads text c' := by
  fun_induction collectFrom previous c generalizing l c' with
  | case1 => contradiction
  | case2 previous c hn =>
      cases h
      exact ⟨[], .nil _, .nil c⟩
  | case3 previous c o c₁ hn ih =>
      cases hc : collectFrom o.number c₁ with
      | error e => rw [hc] at h; contradiction
      | ok r =>
          rw [hc] at h
          cases h
          obtain ⟨others, hothers, hc'⟩ := ih hc
          obtain ⟨delta, first, hfirst, hsum, hnumber, hc₁⟩ :=
            next?_eq_some_iff.mp hn
          have hnat : o.number.toNat = previous.toNat + delta := by
            rw [hnumber, UInt16.toNat_ofNat']
            omega
          have ho : o = ⟨UInt16.ofNat (previous.toNat + delta), o.value⟩ := by
            rw [← hnumber]
          rw [hnat] at hothers
          refine ⟨first ++ others, ?_, hc₁.append hc'⟩
          rw [ho]
          exact .cons hfirst hsum hothers

/-- Options of the grammar are read, if they end where reading is to end. -/
theorem collectFrom_of_optionsForm {n : Nat} {l : List MessageOption}
    {text : Bytes} (h : OptionsForm n l text) {previous : UInt16}
    (hn : previous.toNat = n) {c c' : Cursor} (hc : c.Reads text c')
    (hend : AtEnd c') : collectFrom previous c = .ok (l, c') := by
  induction h generalizing previous c with
  | nil =>
      rw [Cursor.reads_nil_iff.mp hc] at hend ⊢
      exact collectFrom_of_none (next?_eq_none_iff.mpr hend)
  | @cons n delta value first others rest hfirst hsum hothers ih =>
      subst hn
      obtain ⟨c₁, hc₁, hc'⟩ := hc.split
      have hx : next? previous c =
          .ok (some (⟨UInt16.ofNat (previous.toNat + delta), value⟩, c₁)) :=
        next?_eq_some_iff.mpr ⟨delta, first, hfirst, hsum, rfl, hc₁⟩
      have hnat : (UInt16.ofNat (previous.toNat + delta)).toNat =
          previous.toNat + delta := by
        rw [UInt16.toNat_ofNat']
        omega
      rw [collectFrom_of_some hx, ih hnat hc']
      rfl

theorem collectFrom_eq_ok_iff {previous : UInt16} {c c' : Cursor}
    {l : List MessageOption} :
    collectFrom previous c = .ok (l, c') ↔
      ∃ text, OptionsForm previous.toNat l text ∧ c.Reads text c' ∧
        AtEnd c' := by
  constructor
  · intro h
    obtain ⟨text, hform, hreads⟩ := optionsForm_of_collectFrom h
    exact ⟨text, hform, hreads, atEnd_of_collectFrom h⟩
  · rintro ⟨text, hform, hreads, hend⟩
    exact collectFrom_of_optionsForm hform rfl hreads hend

/-- The pass that counts fails where the pass that collects fails, and
counts what the other one collects. -/
theorem countFrom_eq (previous : UInt16) (c : Cursor) :
    countFrom previous c =
      (collectFrom previous c).map fun r => r.1.length := by
  fun_induction countFrom previous c with
  | case1 previous c e hn => rw [collectFrom_of_error hn]; rfl
  | case2 previous c hn => rw [collectFrom_of_none hn]; rfl
  | case3 previous c o c₁ hn ih =>
      rw [ih, collectFrom_of_some hn]
      cases collectFrom o.number c₁ <;> rfl

/-- The second pass alone decides which options are read, and why none are. -/
theorem read_eq_ok_iff_collectFrom {c c' : Cursor} {s : Options} :
    read c = .ok (s, c') ↔ collectFrom 0 c = .ok (s.toList, c') := by
  unfold read
  rw [countFrom_eq]
  constructor
  · intro h
    split at h
    · contradiction
    · split at h
      · contradiction
      · next hc => cases h; exact hc
  · intro hc
    split
    · next hx => rw [hc] at hx; cases hx
    · split
      · next hx => rw [hc] at hx; cases hx
      · next hx => rw [hc] at hx; cases hx; rfl

/-- A failure is found by the first pass. -/
theorem read_of_collectFrom_error {c : Cursor} {e : CodecError}
    (h : collectFrom 0 c = .error e) : read c = .error e := by
  have hcount : countFrom 0 c = .error e := by
    rw [countFrom_eq, h]
    rfl
  rw [read, hcount]

theorem read_eq_error_iff {c : Cursor} {e : CodecError} :
    read c = .error e ↔ collectFrom 0 c = .error e := by
  refine ⟨fun h => ?_, read_of_collectFrom_error⟩
  cases hc : collectFrom 0 c with
  | error e' =>
      rw [read_of_collectFrom_error hc] at h
      cases h
      rfl
  | ok r =>
      have hread : read c = .ok (⟨r.1, (ascending_collect hc).1⟩, r.2) :=
        read_eq_ok_iff_collectFrom.mpr hc
      rw [hread] at h
      contradiction

theorem read_eq_ok_iff {c c' : Cursor} {s : Options} :
    read c = .ok (s, c') ↔
      ∃ text, OptionsForm 0 s.toList text ∧ c.Reads text c' ∧ AtEnd c' :=
  read_eq_ok_iff_collectFrom.trans collectFrom_eq_ok_iff

end Options

end Coap
