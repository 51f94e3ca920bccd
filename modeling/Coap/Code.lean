import Coap.Registry

/-!
# Message codes

A code is one byte: three bits of class (0 request, 2 success, 4 client
error, 5 server error) over five bits of detail, written `c.dd`. The codes
of class 0 other than the empty one are the request methods.

## Main results

* `class_ofParts`, `detail_ofParts` — the parts of a code read back, each
  cut to its width.
* `ofParts_class_detail` — every byte is the code of its own parts.
-/

namespace Coap

/-- A message code. -/
structure Code where
  /-- The code as a byte. -/
  raw : UInt8
  deriving DecidableEq, Repr

namespace Code

/-- The code of a class and a detail, each cut to its width. -/
def ofParts (classPart detailPart : UInt8) : Code :=
  ⟨UInt8.ofNat (classPart.toNat % 8 * 32 + detailPart.toNat % 32)⟩

/-- The upper three bits. -/
def classPart (c : Code) : UInt8 := UInt8.ofNat (c.raw.toNat / 32)

/-- The lower five bits. -/
def detailPart (c : Code) : UInt8 := UInt8.ofNat (c.raw.toNat % 32)

theorem class_ofParts (a b : UInt8) :
    (ofParts a b).classPart.toNat = a.toNat % 8 := by
  simp only [ofParts, classPart, UInt8.toNat_ofNat']
  omega

theorem detail_ofParts (a b : UInt8) :
    (ofParts a b).detailPart.toNat = b.toNat % 32 := by
  simp only [ofParts, detailPart, UInt8.toNat_ofNat']
  omega

theorem ofParts_class_detail (c : Code) :
    ofParts c.classPart c.detailPart = c := by
  rcases c with ⟨raw⟩
  have h := raw.toNat_lt
  simp only [ofParts, classPart, detailPart, Code.mk.injEq,
    ← UInt8.toNat_inj, UInt8.toNat_ofNat']
  omega

/-- The code 0.00 of a message without request or response. -/
def empty : Code := ofParts 0 0

/-- The code 2.05 of a response with a representation. -/
def content : Code := ofParts 2 5

/-- Whether a code is 0.00. -/
def isEmpty (c : Code) : Bool := c.raw == 0

/-- Whether a code is that of a request. -/
def isRequest (c : Code) : Bool := c.classPart == 0 && !c.isEmpty

/-- Whether a code is that of a successful response. -/
def isSuccess (c : Code) : Bool := c.classPart == 2

/-- A number below 100 in two decimal digits. -/
def twoDigits (n : Nat) : String :=
  String.ofList [Nat.digitChar (n / 10), Nat.digitChar (n % 10)]

/-- A code as its class, a point and the two digits of its detail. -/
def text (c : Code) : String :=
  c.classPart.toNat.repr ++ "." ++ twoDigits c.detailPart.toNat

end Code

/-- The method of a request. -/
inductive Method where
  | get
  | post
  | put
  | delete
  deriving DecidableEq, Repr

namespace Method

/-- The detail of a method's code. -/
def number : Method → Nat
  | get => 1
  | post => 2
  | put => 3
  | delete => 4

/-- The code of a request with this method. -/
def code (m : Method) : Code := Code.ofParts 0 (UInt8.ofNat m.number)

/-- The registered methods. -/
def registry : Registry Method where
  name := "Method"
  members := [get, post, put, delete]
  numberOf := number
  nameOf
    | get => "Get"
    | post => "Post"
    | put => "Put"
    | delete => "Delete"

theorem isRequest_code (m : Method) : m.code.isRequest = true := by
  cases m <;> rfl

end Method

end Coap
