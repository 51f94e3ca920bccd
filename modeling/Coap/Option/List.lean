import Coap.Option.Basic

/-!
# The options of a message

The options of a message stand in ascending order of their numbers, and
options of one number keep the order in which they were given: that order
is part of the message, since on the wire every number is told by its
difference to the number before it. `Options` carries the order in its
type, so that difference is never negative.

## Main results

* `mem_insertList`, `ascending_insertList` — inserting an option adds it
  and nothing else, and keeps the order.
* `toList_insert` — on `Options`, inserting is inserting into the list.
-/

namespace Coap

/-- Options in ascending order of their numbers. -/
structure Options where
  /-- The options, least number first. -/
  toList : List MessageOption
  ascending : toList.Pairwise fun a b => a.number ≤ b.number
  deriving DecidableEq

namespace Options

/-- No options. -/
def empty : Options := ⟨[], List.Pairwise.nil⟩

/-! ## Putting options in order -/

/-- Insert an option in front of the first one whose number is not less. -/
def insertList (o : MessageOption) : List MessageOption → List MessageOption
  | [] => [o]
  | a :: rest =>
      if o.number ≤ a.number then o :: a :: rest else a :: insertList o rest

theorem mem_insertList {o x : MessageOption} {l : List MessageOption} :
    x ∈ insertList o l ↔ x = o ∨ x ∈ l := by
  induction l with
  | nil => simp [insertList]
  | cons a rest ih =>
    simp only [insertList]
    split
    · simp
    · simp only [List.mem_cons, ih]
      grind

theorem ascending_insertList {o : MessageOption} {l : List MessageOption}
    (h : l.Pairwise fun a b => a.number ≤ b.number) :
    (insertList o l).Pairwise fun a b => a.number ≤ b.number := by
  induction l with
  | nil => simp [insertList]
  | cons a rest ih =>
    obtain ⟨ha, hrest⟩ := List.pairwise_cons.mp h
    simp only [insertList]
    split
    · next hle =>
      refine List.pairwise_cons.mpr ⟨fun x hx => ?_, h⟩
      rcases List.mem_cons.mp hx with rfl | hx
      · exact hle
      · exact UInt16.le_trans hle (ha x hx)
    · next hlt =>
      refine List.pairwise_cons.mpr ⟨fun x hx => ?_, ih hrest⟩
      rcases mem_insertList.mp hx with rfl | hx
      · exact UInt16.le_of_lt (UInt16.not_le.mp hlt)
      · exact ha x hx

/-- Insert an option in front of the options of its own number. -/
def insert (o : MessageOption) (s : Options) : Options :=
  ⟨insertList o s.toList, ascending_insertList s.ascending⟩

/-- The given options in order, those of one number as they were given. -/
def ofList (l : List MessageOption) : Options := l.foldr insert empty

/-- The options of both lists, those of the first in front where numbers
are equal. -/
def merge (s t : Options) : Options := ofList (s.toList ++ t.toList)

@[simp] theorem toList_empty : empty.toList = [] := rfl

@[simp] theorem toList_insert (o : MessageOption) (s : Options) :
    (s.insert o).toList = insertList o s.toList := rfl

@[simp] theorem ofList_nil : ofList [] = empty := rfl

@[simp] theorem ofList_cons (o : MessageOption) (l : List MessageOption) :
    ofList (o :: l) = (ofList l).insert o := rfl

/-! ## Looking options up -/

/-- The position of the first option numbered `number` at or after
`start`. -/
def findFrom? (s : Options) (start : Nat) (number : UInt16) : Option Nat :=
  ((s.toList.drop start).findIdx? fun o => o.number == number).map (start + ·)

/-- The first option with the given number. -/
def find? (s : Options) (number : UInt16) : Option MessageOption :=
  (s.findFrom? 0 number).bind fun i => s.toList[i]?

/-- The options with the given number, in order. -/
def findAll (s : Options) (number : UInt16) : List MessageOption :=
  s.toList.filter fun o => o.number == number

/-- The options in a row, each as its number and value. -/
def listing (s : Options) : String :=
  "OptionsList \x7b options: [" ++
    ", ".intercalate (s.toList.map MessageOption.listing) ++ "] \x7d"

end Options

end Coap
