import Coap.Net.SocketAddress

/-!
# Resource URIs

A resource is named by a URI of the form

    coap[s]://host[:port][/segment]*[?term[&term]*]

whose host may be an address literal in brackets. Percent-encoded
characters are taken as they stand, and there are no fragments. A port
that is absent, no number, zero or too large is the default port.

Text is read as a list of characters, from the front: each part is what
stands before the first character that ends it.

## Main results

* `splitScheme_eq_some` — the scheme is what stands before the first `://`.
* `ofChars_eq_ok` — what a text that is read as a URI consists of.
-/

namespace Coap

/-- Why a text is not the URI of a resource. -/
inductive UriError where
  | invalidScheme
  | missingHost
  | unterminatedIpv6
  | trailingIpv6Garbage
  | fragment
  deriving DecidableEq, Repr

/-- What is told of a failure. -/
def UriError.message : UriError → String
  | invalidScheme => "scheme must be 'coap' or 'coaps'"
  | missingHost => "URI has no host"
  | unterminatedIpv6 => "unterminated IPv6 literal"
  | trailingIpv6Garbage => "unexpected text after an IPv6 literal"
  | fragment => "URI fragments are not allowed"

/-- A URI, taken apart. -/
structure Uri where
  /-- Whether the scheme is the one of secured transport. -/
  secure : Bool
  /-- The host, without the brackets of an address literal. -/
  host : String
  port : UInt16
  /-- The segments of the path. -/
  path : List String
  /-- The terms of the query. -/
  query : List String
  deriving DecidableEq, Repr

namespace Uri

/-- The port of a URI that names none. -/
def defaultPort : UInt16 := 5683

/-! ## Taking a text apart -/

/-- The parts before and behind the first `://`. -/
def splitScheme : List Char → Option (List Char × List Char)
  | ':' :: '/' :: '/' :: rest => some ([], rest)
  | c :: rest => (splitScheme rest).map fun (scheme, rest) => (c :: scheme, rest)
  | [] => none

theorem splitScheme_eq_some {cs scheme rest : List Char}
    (h : splitScheme cs = some (scheme, rest)) :
    cs = scheme ++ [':', '/', '/'] ++ rest := by
  fun_induction splitScheme cs generalizing scheme with
  | case1 => cases h; rfl
  | case2 c cs hne ih =>
    obtain ⟨⟨front, back⟩, hs, hp⟩ := Option.map_eq_some_iff.mp h
    simp only [Prod.mk.injEq] at hp
    obtain ⟨rfl, rfl⟩ := hp
    rw [ih hs]
    rfl
  | case3 => contradiction

/-- Whether the scheme is the secured one. -/
def secure? (scheme : List Char) : Option Bool :=
  if scheme = "coap".toList then some false
  else if scheme = "coaps".toList then some true
  else none

/-- The characters that may follow a host. -/
def endsHost (c : Char) : Bool := c == ':' || c == '/' || c == '?'

/-- The characters that may follow a port. -/
def endsPort (c : Char) : Bool := c == '/' || c == '?'

/-- The host and what follows it. -/
def splitHost (rest : List Char) : Except UriError (List Char × List Char) :=
  match rest with
  | '[' :: inner =>
      match inner.dropWhile (· != ']') with
      | [] => .error .unterminatedIpv6
      | _ :: after =>
          if after.head?.all endsHost then
            .ok (inner.takeWhile (· != ']'), after)
          else .error .trailingIpv6Garbage
  | rest =>
      .ok (rest.takeWhile fun c => !endsHost c, rest.dropWhile fun c => !endsHost c)

/-- The number that a text in the place of a port stands for. -/
def portNumber? : List Char → Option Nat
  | '+' :: digits => Text.readNat? 10 digits
  | digits => Text.readNat? 10 digits

/-- The port that a text names, the default port if it names none. -/
def portOfChars (cs : List Char) : UInt16 :=
  match portNumber? cs with
  | some n => if 0 < n ∧ n < 65536 then UInt16.ofNat n else defaultPort
  | none => defaultPort

/-- The port and what follows it. -/
def splitPort : List Char → UInt16 × List Char
  | ':' :: rest =>
      (portOfChars (rest.takeWhile fun c => !endsPort c),
        rest.dropWhile fun c => !endsPort c)
  | rest => (defaultPort, rest)

/-- The segments of a path, none of an empty one. -/
def segments (path : List Char) : List String :=
  let path :=
    match path with
    | '/' :: rest => rest
    | path => path
  if path.isEmpty then [] else (path.splitOn '/').map String.ofList

/-- The terms of a query that are not empty. -/
def terms (query : List Char) : List String :=
  ((query.splitOn '&').filter fun t => !t.isEmpty).map String.ofList

/-- Read a URI. -/
def ofChars (cs : List Char) : Except UriError Uri := do
  let some (scheme, rest) := splitScheme cs | throw .invalidScheme
  let some secure := secure? scheme | throw .invalidScheme
  if rest.contains '#' then throw .fragment
  let (host, rest) ← splitHost rest
  if host.isEmpty then throw .missingHost
  let (port, rest) := splitPort rest
  return {
    secure
    host := String.ofList host
    port
    path := segments (rest.takeWhile (· != '?'))
    query := terms ((rest.dropWhile (· != '?')).drop 1) }

/-- Read a URI. -/
def ofText (s : String) : Except UriError Uri := ofChars s.toList

/-- A text is read as a URI exactly if it has a scheme that is known, no fragment
and a host; the parts of the URI are the parts of the text. -/
theorem ofChars_eq_ok {cs : List Char} {u : Uri} :
    ofChars cs = .ok u ↔
      ∃ scheme rest after,
        splitScheme cs = some (scheme, rest) ∧ secure? scheme = some u.secure ∧
          '#' ∉ rest ∧ splitHost rest = .ok (u.host.toList, after) ∧ u.host ≠ "" ∧
          u.port = (splitPort after).1 ∧
          u.path = segments ((splitPort after).2.takeWhile (· != '?')) ∧
          u.query = terms (((splitPort after).2.dropWhile (· != '?')).drop 1) := by
  constructor
  · intro h
    unfold ofChars at h
    cases hscheme : splitScheme cs with
    | none => rw [hscheme] at h; cases h
    | some parts =>
    obtain ⟨scheme, rest⟩ := parts
    rw [hscheme] at h
    dsimp only at h
    cases hsecure : secure? scheme with
    | none => rw [hsecure] at h; cases h
    | some secure =>
    rw [hsecure] at h
    dsimp only at h
    by_cases hfragment : rest.contains '#' = true
    · rw [if_pos hfragment] at h
      cases h
    rw [if_neg hfragment] at h
    cases hhost : splitHost rest with
    | error err => rw [hhost] at h; cases h
    | ok parts =>
    obtain ⟨host, after⟩ := parts
    rw [hhost] at h
    by_cases hempty : host.isEmpty = true
    · simp only [bind, Except.bind, hempty, if_true] at h
      cases h
    simp only [bind, Except.bind, hempty, pure, Except.pure] at h
    cases h
    refine ⟨scheme, rest, after, rfl, hsecure, ?_, ?_, ?_, rfl, rfl, rfl⟩
    · simpa using hfragment
    · simpa using hhost
    · simpa using hempty
  · rintro ⟨scheme, rest, after, hscheme, hsecure, hfragment, hhost, hempty, hport, hpath,
      hquery⟩
    have hcontains : rest.contains '#' = false := by simpa using hfragment
    have hisEmpty : u.host.toList.isEmpty = false := by simpa using hempty
    unfold ofChars
    rw [hscheme]
    simp only [hsecure, hcontains, hhost, hisEmpty, bind, Except.bind, pure, Except.pure,
      String.ofList_toList, ← hport, ← hpath, ← hquery]
    rfl

/-! ## The host as an address -/

/-- The address that the host is a literal of. -/
def hostIp? (u : Uri) : Option IpAddress := IpAddress.ofText? u.host

/-- Where the resource is, if the host is an address literal. -/
def address? (u : Uri) : Option SocketAddress :=
  u.hostIp?.map fun ip => SocketAddress.ofIp ip u.port

end Uri

end Coap
