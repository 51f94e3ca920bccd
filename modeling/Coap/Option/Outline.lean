import Coap.Option.Wire

/-!
# Options without the bytes of their values

What an option takes on the wire depends on its number, on the number before
it and on how many bytes its value has, but not on what these are. An outline
keeps just the number and the length, so it tells the size also of options
whose values nobody would want to hold.

## Main results

* `encodedLengthFrom_outlines` — options take what their outlines say.
-/

namespace Coap

/-- The number of an option and how many bytes its value has. -/
structure OptionOutline where
  /-- What the option means. -/
  number : UInt16
  /-- The number of bytes in the value. -/
  valueLength : Nat
  deriving DecidableEq, Repr

namespace OptionOutline

/-- The number of bytes of an option with this outline, behind one numbered
`previous`. -/
def encodedLength (x : OptionOutline) (previous : UInt16) :
    Except CodecError Nat := do
  let delta ← ExtendedField.encodedLength
    (UInt32.ofNat (x.number.toNat - previous.toNat))
  let length ← ExtendedField.encodedLength (UInt32.ofNat x.valueLength)
  return 1 + delta + length + x.valueLength

/-- The number of bytes of options with these outlines, behind one numbered
`previous`. -/
def encodedLengthFrom (previous : UInt16) :
    List OptionOutline → Except CodecError Nat
  | [] => .ok 0
  | x :: rest => do
      let first ← x.encodedLength previous
      let others ← encodedLengthFrom x.number rest
      return first + others

/-- Outlines in ascending order of their numbers, those of one number as they
were given. -/
def inOrder (l : List OptionOutline) : List OptionOutline :=
  l.mergeSort fun a b => a.number ≤ b.number

end OptionOutline

/-- An option without the bytes of its value. -/
def MessageOption.outline (o : MessageOption) : OptionOutline :=
  ⟨o.number, o.value.length⟩

@[simp] theorem MessageOption.number_outline (o : MessageOption) :
    o.outline.number = o.number := rfl

@[simp] theorem MessageOption.encodedLength_outline (o : MessageOption)
    (previous : UInt16) :
    o.outline.encodedLength previous = o.encodedLength previous := rfl

/-- The announced length of options is that of their outlines. -/
theorem Options.encodedLengthFrom_outlines (previous : UInt16)
    (l : List MessageOption) :
    OptionOutline.encodedLengthFrom previous (l.map MessageOption.outline) =
      encodedLengthFrom previous l := by
  induction l generalizing previous with
  | nil => rfl
  | cons o rest ih =>
      simp only [List.map_cons, OptionOutline.encodedLengthFrom,
        encodedLengthFrom, MessageOption.encodedLength_outline,
        MessageOption.number_outline, ih]

end Coap
