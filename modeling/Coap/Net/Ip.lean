import Coap.Bytes.Basic
import Coap.Text.Number

/-!
# IP addresses

Addresses of both families with their texts. An IPv4 address is four
decimal numbers without leading zeros. An IPv6 address is eight groups of
up to four hexadecimal digits, of which one run of zero groups may be left
out and the last two may be written as an IPv4 address.

Written addresses are in one fixed form: lower case, no leading zeros, the
first of the longest runs of two zero groups or more left out, and a dotted
part only for IPv4 addresses mapped into IPv6.
-/

namespace Coap

/-! ## IPv4 -/

/-- An IPv4 address. -/
structure Ipv4 where
  a : UInt8
  b : UInt8
  c : UInt8
  d : UInt8
  deriving DecidableEq, Repr

namespace Ipv4

/-- The four numbers in decimal, with points between them. -/
def text (ip : Ipv4) : String :=
  ".".intercalate ([ip.a, ip.b, ip.c, ip.d].map fun x => x.toNat.repr)

/-- A part of an address: up to three digits, below 256, and no zero in
front of another digit. -/
def part? (cs : List Char) : Option UInt8 :=
  if cs.length ≤ 3 ∧ (cs.head? ≠ some '0' ∨ cs.length = 1) then
    match Text.readNat? 10 cs with
    | some n => if n < 256 then some (UInt8.ofNat n) else none
    | none => none
  else none

/-- Read an address. -/
def ofChars? (cs : List Char) : Option Ipv4 :=
  match cs.splitOn '.' with
  | [a, b, c, d] => do
      return ⟨← part? a, ← part? b, ← part? c, ← part? d⟩
  | _ => none

end Ipv4

/-! ## IPv6 -/

/-- An IPv6 address: eight groups of 16 bits. -/
structure Ipv6 where
  /-- The groups, uppermost first. -/
  groups : List UInt16
  length_eq : groups.length = 8
  deriving DecidableEq

namespace Ipv6

/-- The address with the given groups before and behind a gap of zero
groups, if there is room for a gap. -/
def expand (front back : List UInt16) : Option Ipv6 :=
  if h : front.length + back.length ≤ 7 then
    some
      { groups :=
          front ++ List.replicate (8 - (front.length + back.length)) 0 ++ back
        length_eq := by
          simp only [List.length_append, List.length_replicate]; omega }
  else none

/-- The address with exactly the given groups. -/
def ofGroups? (groups : List UInt16) : Option Ipv6 :=
  if h : groups.length = 8 then some ⟨groups, h⟩ else none

/-! ### Writing -/

/-- The number of zero groups at the front. -/
def zeroRun (groups : List UInt16) : Nat := (groups.takeWhile (· == 0)).length

/-- Start and length of the first of the longest runs of zero groups. -/
def longestZeroRun (groups : List UInt16) : Nat × Nat :=
  (List.range groups.length).foldl
    (fun best i =>
      let n := zeroRun (groups.drop i)
      if best.2 < n then (i, n) else best)
    (0, 0)

/-- Groups in hexadecimal, with colons between them. -/
def groupsText (groups : List UInt16) : String :=
  ":".intercalate
    (groups.map fun g => String.ofList (Nat.toDigits 16 g.toNat))

/-- The IPv4 address in the last two groups. -/
def lastIpv4 (high low : UInt16) : Ipv4 :=
  ⟨UInt8.ofNat (high.toNat / 256), UInt8.ofNat high.toNat,
    UInt8.ofNat (low.toNat / 256), UInt8.ofNat low.toNat⟩

/-- The fixed written form of an address. -/
def text (ip : Ipv6) : String :=
  match ip.groups with
  | [0, 0, 0, 0, 0, 0xFFFF, high, low] => "::ffff:" ++ (lastIpv4 high low).text
  | groups =>
      let (start, count) := longestZeroRun groups
      if 1 < count then
        groupsText (groups.take start) ++ "::" ++
          groupsText (groups.drop (start + count))
      else groupsText groups

/-! ### Reading -/

/-- A group of one to four hexadecimal digits. -/
def group? (cs : List Char) : Option UInt16 :=
  if cs.length ≤ 4 then (Text.readNat? 16 cs).map UInt16.ofNat else none

/-- The groups of an address part, the last of which may be an IPv4
address if `dotted` allows it. -/
def groupsOfParts? (dotted : Bool) : List (List Char) → Option (List UInt16)
  | [] => some []
  | [last] =>
      match group? last with
      | some g => some [g]
      | none =>
          if dotted then
            (Ipv4.ofChars? last).map fun ip =>
              [Bytes.join16 ip.a ip.b, Bytes.join16 ip.c ip.d]
          else none
  | first :: rest => do
      return (← group? first) :: (← groupsOfParts? dotted rest)

/-- The groups of a text with colons between them, none of an empty one. -/
def groups? (dotted : Bool) (cs : List Char) : Option (List UInt16) :=
  if cs.isEmpty then some [] else groupsOfParts? dotted (cs.splitOn ':')

/-- The parts before and behind the first two colons in a row. -/
def splitGap : List Char → Option (List Char × List Char)
  | ':' :: ':' :: rest => some ([], rest)
  | c :: rest => (splitGap rest).map fun (front, back) => (c :: front, back)
  | [] => none

/-- Read an address. -/
def ofChars? (cs : List Char) : Option Ipv6 :=
  match splitGap cs with
  | some (front, back) => do
      expand (← groups? false front) (← groups? true back)
  | none => do ofGroups? (← groups? true cs)

end Ipv6

/-! ## Either family -/

/-- An IP address. -/
inductive IpAddress where
  | v4 (ip : Ipv4)
  | v6 (ip : Ipv6)
  deriving DecidableEq

namespace IpAddress

/-- The written form of an address. -/
def text : IpAddress → String
  | v4 ip => ip.text
  | v6 ip => ip.text

/-- Read an address of either family. -/
def ofText? (s : String) : Option IpAddress :=
  match Ipv4.ofChars? s.toList with
  | some ip => some (v4 ip)
  | none => (Ipv6.ofChars? s.toList).map v6

end IpAddress

end Coap
