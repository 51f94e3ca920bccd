import Coap.Text.GraphemeExtend
import Coap.Text.Unprintable

/-!
# Quoted text

A text is shown between double quotes, so that what stands between them is
the text and nothing in it is invisible: quotes and backslashes are
escaped, and so is every character that has no form of its own.

## Main results

* `escape_ne_nil` — every character is shown.
-/

namespace Coap.Text

/-- A number in lower-case hexadecimal without leading zeros. -/
def hexNumber (n : Nat) : List Char := Nat.toDigits 16 n

/-- A character by its code point. -/
def codePoint (c : Char) : List Char :=
  ['\\', 'u', '\x7b'] ++ hexNumber c.toNat ++ ['\x7d']

/-- How a character stands within double quotes. -/
def escape (c : Char) : List Char :=
  match c with
  | '\x00' => ['\\', '0']
  | '\t' => ['\\', 't']
  | '\n' => ['\\', 'n']
  | '\r' => ['\\', 'r']
  | '"' => ['\\', '"']
  | '\\' => ['\\', '\\']
  | c =>
      if CharSet.graphemeExtend.contains c || CharSet.unprintable.contains c then
        codePoint c
      else [c]

/-- A text in double quotes. -/
def quoted (s : String) : String :=
  String.ofList ('"' :: s.toList.flatMap escape ++ ['"'])

theorem escape_ne_nil (c : Char) : escape c ≠ [] := by
  unfold escape
  split <;> try simp
  split <;> simp [codePoint]

/-- Whether a character is a control character (category Cc). -/
def isControl (c : Char) : Bool :=
  c.toNat < 32 || (127 ≤ c.toNat && c.toNat < 160)

end Coap.Text
