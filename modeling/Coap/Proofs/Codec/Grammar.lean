import Coap.Message.Basic

/-!
# The grammar of a datagram

What a datagram looks like, said on byte strings alone: no cursor, no
buffer, no order in which anything is checked. Reading and writing are each
compared with this grammar, and through it with one another.

A number in an option head is a nibble with its extension. An option is a
head byte, the extension of the delta, the extension of the length, and as
many value bytes as the length says. Options carry the running sums of
their deltas as numbers. A datagram is a header word, the token, the
options, and nothing or a marker with a payload.

## Main results

* `Extension.value_le` — no extension stands for more than 65804.
* `OptionForm.head_ne_marker` — no option starts like a payload.
* `OptionsForm.ascending` — running sums never go down.
-/

namespace Coap.Grammar

/-- The bytes that may follow a head for one of its nibbles, and the number
that nibble and bytes stand for. -/
inductive Extension : Nat → Bytes → Nat → Prop where
  | inline {nibble : Nat} (h : nibble < 13) : Extension nibble [] nibble
  | oneByte (a : UInt8) : Extension 13 [a] (a.toNat + 13)
  | twoBytes (a b : UInt8) :
      Extension 14 [a, b] (256 * a.toNat + b.toNat + 269)

/-- An option with the given delta and value: the head, the extension of
its upper nibble, the extension of its lower nibble, the value. -/
inductive OptionForm (delta : Nat) (value : Bytes) : Bytes → Prop where
  | intro {head : UInt8} {upper lower : Bytes}
      (hdelta : Extension (head.toNat / 16) upper delta)
      (hlength : Extension (head.toNat % 16) lower value.length) :
      OptionForm delta value (head :: (upper ++ lower ++ value))

/-- Options behind one numbered `previous`, each numbered by the sum of all
deltas up to its own. -/
inductive OptionsForm : Nat → List MessageOption → Bytes → Prop where
  | nil (previous : Nat) : OptionsForm previous [] []
  | cons {previous delta : Nat} {value first others : Bytes}
      {rest : List MessageOption}
      (hfirst : OptionForm delta value first)
      (hsum : previous + delta ≤ 65535)
      (hothers : OptionsForm (previous + delta) rest others) :
      OptionsForm previous
        (⟨UInt16.ofNat (previous + delta), value⟩ :: rest) (first ++ others)

/-- Nothing, or the marker with at least one byte of payload. -/
inductive PayloadForm : Option Bytes → Bytes → Prop where
  | absent : PayloadForm none []
  | present {p : Bytes} (h : p ≠ []) : PayloadForm (some p) (0xFF :: p)

/-- A datagram with the given header word, token, options and payload. -/
inductive DatagramForm (header : UInt32) (token : Bytes)
    (options : List MessageOption) (payload : Option Bytes) :
    Bytes → Prop where
  | intro {a b c d : UInt8} {optionBytes payloadBytes : Bytes}
      (hheader : header = Bytes.join32 a b c d)
      (hnibble : a.toNat % 16 ≤ 8)
      (htoken : token.length = a.toNat % 16)
      (hoptions : OptionsForm 0 options optionBytes)
      (hpayload : PayloadForm payload payloadBytes) :
      DatagramForm header token options payload
        (a :: b :: c :: d :: (token ++ optionBytes ++ payloadBytes))

/-! ## Extensions -/

theorem Extension.nibble_lt {nibble : Nat} {e : Bytes} {v : Nat}
    (h : Extension nibble e v) : nibble < 15 := by
  cases h with
  | inline h => omega
  | oneByte a => decide
  | twoBytes a b => decide

theorem Extension.value_le {nibble : Nat} {e : Bytes} {v : Nat}
    (h : Extension nibble e v) : v ≤ 65804 := by
  cases h with
  | inline h => omega
  | oneByte a =>
      have ha := a.toNat_lt
      omega
  | twoBytes a b =>
      have ha := a.toNat_lt
      have hb := b.toNat_lt
      omega

/-! ## Options -/

/-- An option starts with a byte other than the payload marker, whose lower
nibble has no extension. -/
theorem OptionForm.head_ne_marker {delta : Nat} {value rest : Bytes}
    {head : UInt8} (h : OptionForm delta value (head :: rest)) :
    head ≠ 0xFF := by
  cases h with
  | intro _ hlength =>
      intro heq
      have hlt := hlength.nibble_lt
      rw [heq] at hlt
      exact absurd hlt (by decide)

/-- A value that stands in a datagram has at most 65804 bytes. -/
theorem OptionForm.length_value_le {delta : Nat} {value text : Bytes}
    (h : OptionForm delta value text) : value.length ≤ 65804 := by
  cases h with
  | intro _ hlength => exact hlength.value_le

theorem OptionsForm.length_value_le {previous : Nat}
    {l : List MessageOption} {text : Bytes} (h : OptionsForm previous l text) :
    ∀ o ∈ l, o.value.length ≤ 65804 := by
  induction h with
  | nil previous => intro o ho; cases ho
  | cons hfirst hsum hothers ih =>
      intro o ho
      rcases List.mem_cons.mp ho with rfl | ho
      · exact hfirst.length_value_le
      · exact ih o ho

/-- The running sums never go below the number they start from. -/
theorem OptionsForm.previous_le {previous : Nat} {l : List MessageOption}
    {text : Bytes} (h : OptionsForm previous l text) :
    ∀ o ∈ l, previous ≤ o.number.toNat := by
  induction h with
  | nil previous => intro o ho; cases ho
  | @cons previous delta value first others rest hfirst hsum hothers ih =>
      have hnumber : (UInt16.ofNat (previous + delta)).toNat = previous + delta := by
        rw [UInt16.toNat_ofNat']
        omega
      intro o ho
      rcases List.mem_cons.mp ho with rfl | ho
      · rw [hnumber]
        exact Nat.le_add_right previous delta
      · have := ih o ho
        omega

theorem OptionsForm.ascending {previous : Nat} {l : List MessageOption}
    {text : Bytes} (h : OptionsForm previous l text) :
    l.Pairwise fun a b => a.number ≤ b.number := by
  induction h with
  | nil previous => exact List.Pairwise.nil
  | @cons previous delta value first others rest hfirst hsum hothers ih =>
      refine List.pairwise_cons.mpr ⟨fun o ho => ?_, ih⟩
      have hle := hothers.previous_le o ho
      rw [UInt16.le_iff_toNat_le, UInt16.toNat_ofNat']
      omega

/-! ## Payloads -/

/-- A payload that stands in a datagram is not empty. -/
theorem PayloadForm.ne_empty {payload : Option Bytes} {text : Bytes}
    (h : PayloadForm payload text) : payload ≠ some [] := by
  cases h with
  | absent => simp
  | present h => simpa using h

end Coap.Grammar
