import Coap.CodecError

/-!
# Tokens

A token is an opaque string of at most 8 bytes that ties a response to its
request. Tokens that this library makes are the message id of the request
followed by four random bytes, so tokens of different ids differ.

## Main results

* `length_generate` — a generated token has the prefix's bytes and four
  more, and so is never too long.
-/

namespace Coap

/-- The most bytes a token may have. -/
def maxTokenLength : Nat := 8

/-- Opaque bytes that tie a response to its request. -/
structure Token where
  /-- The bytes. -/
  bytes : Bytes
  length_le : bytes.length ≤ maxTokenLength
  deriving DecidableEq

/-- How many bytes of its number a generated token starts with. -/
inductive PrefixWidth where
  | one
  | two
  | four
  deriving DecidableEq, Repr

/-- The low bytes of a number in the given width. -/
def PrefixWidth.bytes : PrefixWidth → UInt32 → Bytes
  | one, n => [UInt8.ofNat n.toNat]
  | two, n => Bytes.ofUInt16 (UInt16.ofNat n.toNat)
  | four, n => Bytes.ofUInt32 n

namespace Token

/-- The token without bytes. -/
def empty : Token := ⟨[], by decide⟩

/-- The token of the given bytes, unless they are too many. -/
def ofBytes (b : Bytes) : Except CodecError Token :=
  if h : b.length ≤ maxTokenLength then .ok ⟨b, h⟩
  else .error (.invalidTokenLength b.length)

/-- The token that starts with a number and ends with a random word. -/
def generate (number : UInt32) (width : PrefixWidth) (random : UInt32) :
    Token where
  bytes := width.bytes number ++ Bytes.ofUInt32 random
  length_le := by
    cases width <;>
      simp [PrefixWidth.bytes, maxTokenLength]

theorem length_generate (number : UInt32) (width : PrefixWidth)
    (random : UInt32) :
    (generate number width random).bytes.length =
      (width.bytes number).length + 4 := by
  simp [generate]

/-- A token in hexadecimal. -/
def listing (t : Token) : String := "Token(" ++ Bytes.hex t.bytes ++ ")"

end Token

end Coap
