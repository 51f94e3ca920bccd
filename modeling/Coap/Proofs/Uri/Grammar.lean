import Coap.Uri.Basic
import Coap.Proofs.Text.Delimiters
import Coap.Proofs.Text.Numerals

/-!
# The grammar of resource URIs

A URI is written as a scheme, `://`, a host, a port, a path and a query, and nothing but
the characters that a part must be free of tells where it ends. `Parts` are the parts as
they are written, brackets and unreadable ports included, and `Parts.Reads` says what
they are read as. Neither mentions how a text is searched.

Every part ends at the first character that it must be free of. A text is therefore
written in at most one way (`Parts.WellFormed.unique`): the cut behind the host, the cut
behind the port and the cut behind the path are each unique.

## Main results

* `Parts.WellFormed.unique` — the parts of a text are determined by it.
* `Parts.reads_iff` — what parts are read as is computed.
-/

namespace Coap

namespace Uri

/-! ## Parts -/

/-- A host as it is written. -/
inductive Host where
  | bracketed (literal : List Char)
  | bare (name : List Char)

/-- The host without the brackets. -/
def Host.inside : Host → List Char
  | .bracketed literal => literal
  | .bare name => name

def Host.text : Host → List Char
  | .bracketed literal => '[' :: (literal ++ [']'])
  | .bare name => name

/-- A host is not empty and does not contain what ends it. One that begins with a bracket
would be taken for an address literal. -/
def Host.WellFormed : Host → Prop
  | .bracketed literal => literal ≠ [] ∧ ']' ∉ literal
  | .bare name =>
      name ≠ [] ∧ ':' ∉ name ∧ '/' ∉ name ∧ '?' ∉ name ∧ name.head? ≠ some '['

/-- The parts of a URI as they are written. -/
structure Parts where
  secure : Bool
  host : Host
  /-- What stands between the colon behind the host and the path. -/
  port : Option (List Char)
  path : List Char
  /-- What stands behind the question mark. -/
  query : Option (List Char)

/-- A part that may be absent, with the character that announces it. -/
def announced (mark : Char) : Option (List Char) → List Char
  | none => []
  | some cs => mark :: cs

namespace Parts

/-- What stands behind the host. -/
def behindHost (p : Parts) : List Char :=
  announced ':' p.port ++ (p.path ++ announced '?' p.query)

/-- What stands behind the `://`. -/
def behindScheme (p : Parts) : List Char := p.host.text ++ p.behindHost

def scheme (p : Parts) : List Char := if p.secure then "coaps".toList else "coap".toList

def text (p : Parts) : List Char := p.scheme ++ "://".toList ++ p.behindScheme

structure WellFormed (p : Parts) : Prop where
  host : p.host.WellFormed
  port : ∀ cs ∈ p.port, '/' ∉ cs ∧ '?' ∉ cs
  path_start : p.path = [] ∨ p.path.head? = some '/'
  path : '?' ∉ p.path
  fragment : '#' ∉ p.behindScheme

end Parts

/-! ## What parts are read as -/

/-- A text denotes a number in the place of a port. -/
def Denotes (cs : List Char) (n : Nat) : Prop :=
  Text.Numeral cs n ∨ ∃ digits, cs = '+' :: digits ∧ Text.Numeral digits n

/-- The port that a written port stands for: the number that it denotes, or the default
port if it denotes none that is a port. -/
inductive ReadsPort : Option (List Char) → UInt16 → Prop where
  | number {cs : List Char} {port : UInt16} (hdenotes : Denotes cs port.toNat)
      (hne : port ≠ 0) : ReadsPort (some cs) port
  | default {written : Option (List Char)}
      (hnone : ∀ cs ∈ written, ∀ n, Denotes cs n → n = 0 ∨ 65535 < n) :
      ReadsPort written defaultPort

/-- The segments of a written path: the pieces of what follows its first slash, or none
if nothing does. -/
inductive ReadsPath : List Char → List String → Prop where
  | empty : ReadsPath [] []
  | root : ReadsPath ['/'] []
  | segments {inner : List Char} {path : List String} (hne : inner ≠ [])
      (hpieces : Pieces '/' inner (path.map String.toList)) :
      ReadsPath ('/' :: inner) path

/-- The terms of a written query: the pieces of it that are not empty. -/
inductive ReadsQuery : Option (List Char) → List String → Prop where
  | absent : ReadsQuery none []
  | terms {cs : List Char} {pieces : List String}
      (hpieces : Pieces '&' cs (pieces.map String.toList)) :
      ReadsQuery (some cs) (pieces.filter (· ≠ ""))

/-- What the parts of a URI are read as. -/
structure Parts.Reads (p : Parts) (u : Uri) : Prop where
  secure : u.secure = p.secure
  host : u.host.toList = p.host.inside
  port : ReadsPort p.port u.port
  path : ReadsPath p.path u.path
  query : ReadsQuery p.query u.query

/-! ## One way to write a text -/

/-- A character may follow a host. -/
def EndsHost (c : Char) : Prop := c = ':' ∨ c = '/' ∨ c = '?'

theorem endsHost_iff {c : Char} : endsHost c = true ↔ EndsHost c := by
  simp [endsHost, EndsHost, or_assoc]

theorem endsPort_iff {c : Char} : endsPort c = true ↔ c = '/' ∨ c = '?' := by
  simp [endsPort]

theorem endsHost_of_endsPort {c : Char} (h : endsPort c = true) : endsHost c = true :=
  endsHost_iff.mpr (.inr (endsPort_iff.mp h))

theorem ne_of_notMem {stop : Char} {cs : List Char} (h : stop ∉ cs) :
    ∀ c ∈ cs, (c != stop) = true :=
  forall_of_notMem (by simpa using h)

/-! The part that is announced by a colon or a question mark begins with one, and the path
with a slash, so what stands behind a part begins with what ends it. -/

theorem head?_all_announced {mark : Char} {ends : Char → Bool} (hmark : ends mark = true)
    (written : Option (List Char)) : (announced mark written).head?.all ends = true := by
  cases written with
  | none => rfl
  | some cs => exact hmark

theorem head?_all_append {ends : Char → Bool} {front back : List Char}
    (hfront : front.head?.all ends = true) (hback : back.head?.all ends = true) :
    (front ++ back).head?.all ends = true := by
  cases front with
  | nil => exact hback
  | cons c rest => exact hfront

namespace Parts.WellFormed

variable {p : Parts}

theorem endsPort_head? (h : p.WellFormed) :
    (p.path ++ announced '?' p.query).head?.all endsPort = true := by
  refine head?_all_append ?_ (head?_all_announced rfl _)
  rcases h.path_start with hempty | hslash
  · rw [hempty]
    rfl
  · rw [hslash]
    rfl

theorem endsHost_head? (h : p.WellFormed) : p.behindHost.head?.all endsHost = true := by
  refine head?_all_append (head?_all_announced rfl _) ?_
  have hport := h.endsPort_head?
  cases hhead : (p.path ++ announced '?' p.query).head? with
  | none => rfl
  | some c =>
      rw [hhead] at hport
      exact endsHost_of_endsPort hport

end Parts.WellFormed

/-! The cuts behind the host, the port and the path. -/

theorem cutAt_bracketed {literal : List Char} (h : ']' ∉ literal) (after : List Char) :
    CutAt (· != ']') (literal ++ ']' :: after) literal (']' :: after) :=
  ⟨rfl, ne_of_notMem h, by simp⟩

theorem cutAt_bare {name after : List Char} (h : (Host.bare name).WellFormed)
    (hafter : after.head?.all endsHost = true) :
    CutAt (fun c => !endsHost c) (name ++ after) name after := by
  obtain ⟨-, hcolon, hslash, hquestion, -⟩ := h
  refine ⟨rfl, forall_of_notMem fun c hc => ?_, by simpa using hafter⟩
  rcases endsHost_iff.mp (by simpa using hc) with rfl | rfl | rfl <;> assumption

theorem cutAt_port {cs more : List Char} (h : '/' ∉ cs ∧ '?' ∉ cs)
    (hmore : more.head?.all endsPort = true) :
    CutAt (fun c => !endsPort c) (cs ++ more) cs more := by
  obtain ⟨hslash, hquestion⟩ := h
  refine ⟨rfl, forall_of_notMem fun c hc => ?_, by simpa using hmore⟩
  rcases endsPort_iff.mp (by simpa using hc) with rfl | rfl <;> assumption

theorem cutAt_path {path : List Char} (h : '?' ∉ path) (query : Option (List Char)) :
    CutAt (· != '?') (path ++ announced '?' query) path (announced '?' query) :=
  ⟨rfl, ne_of_notMem h, head?_all_announced rfl query⟩

theorem head?_bare_append {name after : List Char} (h : (Host.bare name).WellFormed) :
    (name ++ after).head? ≠ some '[' := by
  obtain ⟨hne, -, -, -, hopening⟩ := h
  cases name with
  | nil => contradiction
  | cons c rest => exact hopening

theorem announced_injective (mark : Char) : Function.Injective (announced mark) := by
  intro a b h
  cases a <;> cases b <;> simp_all [announced]

theorem Host.WellFormed.unique {host host' : Host} {after after' : List Char}
    (h : host.WellFormed) (h' : host'.WellFormed)
    (hafter : after.head?.all endsHost = true)
    (hafter' : after'.head?.all endsHost = true)
    (heq : host.text ++ after = host'.text ++ after') : host = host' ∧ after = after' := by
  cases host with
  | bracketed literal =>
      cases host' with
      | bracketed literal' =>
          have hcut := cutAt_bracketed h.2 after
          have hcut' := cutAt_bracketed h'.2 after'
          simp only [Host.text, List.cons_append, List.append_assoc, List.nil_append,
            List.cons.injEq, true_and] at heq
          rw [heq] at hcut
          obtain ⟨rfl, hback⟩ := hcut.unique hcut'
          exact ⟨rfl, List.tail_eq_of_cons_eq hback⟩
      | bare name => exact absurd (congrArg List.head? heq).symm (head?_bare_append h')
  | bare name =>
      cases host' with
      | bracketed literal => exact absurd (congrArg List.head? heq) (head?_bare_append h)
      | bare name' =>
          have hcut := cutAt_bare h hafter
          rw [show name ++ after = name' ++ after' from heq] at hcut
          obtain ⟨rfl, rfl⟩ := hcut.unique (cutAt_bare h' hafter')
          exact ⟨rfl, rfl⟩

theorem port_unique {port port' : Option (List Char)} {more more' : List Char}
    (h : ∀ cs ∈ port, '/' ∉ cs ∧ '?' ∉ cs) (h' : ∀ cs ∈ port', '/' ∉ cs ∧ '?' ∉ cs)
    (hmore : more.head?.all endsPort = true) (hmore' : more'.head?.all endsPort = true)
    (heq : announced ':' port ++ more = announced ':' port' ++ more') :
    port = port' ∧ more = more' := by
  cases port with
  | none =>
      cases port' with
      | none => exact ⟨rfl, heq⟩
      | some cs' =>
          rw [show more = ':' :: (cs' ++ more') from heq] at hmore
          contradiction
  | some cs =>
      cases port' with
      | none =>
          rw [show more' = ':' :: (cs ++ more) from heq.symm] at hmore'
          contradiction
      | some cs' =>
          have hbehind : cs ++ more = cs' ++ more' := List.tail_eq_of_cons_eq heq
          have hcut := cutAt_port (h cs rfl) hmore
          rw [hbehind] at hcut
          obtain ⟨rfl, rfl⟩ := hcut.unique (cutAt_port (h' cs' rfl) hmore')
          exact ⟨rfl, rfl⟩

theorem path_unique {path path' : List Char} {query query' : Option (List Char)}
    (h : '?' ∉ path) (h' : '?' ∉ path')
    (heq : path ++ announced '?' query = path' ++ announced '?' query') :
    path = path' ∧ query = query' := by
  have hcut := cutAt_path h query
  rw [heq] at hcut
  obtain ⟨hpath, hquery⟩ := hcut.unique (cutAt_path h' query')
  exact ⟨hpath, announced_injective '?' hquery⟩

theorem scheme_unique {p q : Parts} (h : p.text = q.text) :
    p.secure = q.secure ∧ p.behindScheme = q.behindScheme := by
  unfold Parts.text Parts.scheme at h
  cases hp : p.secure <;> cases hq : q.secure <;> simp_all

/-- The parts of a text are determined by it. -/
theorem Parts.WellFormed.unique {p q : Parts} (hp : p.WellFormed) (hq : q.WellFormed)
    (h : p.text = q.text) : p = q := by
  obtain ⟨hsecure, hbehind⟩ := scheme_unique h
  obtain ⟨hhost, hbehindHost⟩ :=
    hp.host.unique hq.host hp.endsHost_head? hq.endsHost_head? hbehind
  obtain ⟨hport, hmore⟩ :=
    port_unique hp.port hq.port hp.endsPort_head? hq.endsPort_head? hbehindHost
  obtain ⟨hpath, hquery⟩ := path_unique hp.path hq.path hmore
  cases p
  cases q
  simp_all

/-! ## What is read is computed -/

theorem portNumber?_eq_some_iff {cs : List Char} {n : Nat} :
    portNumber? cs = some n ↔ Denotes cs n := by
  unfold portNumber? Denotes
  split
  · next digits =>
      have hsign : ¬Text.Numeral ('+' :: digits) n := fun h =>
        absurd (h.digits '+' List.mem_cons_self) (by decide)
      rw [Text.readNat?_eq_some_iff]
      simp [hsign]
  · next hplain =>
      rw [Text.readNat?_eq_some_iff]
      refine ⟨.inl, ?_⟩
      rintro (h | ⟨digits, rfl, -⟩)
      · exact h
      · exact absurd rfl (hplain digits)

/-- The port that a written port stands for. -/
def portOf : Option (List Char) → UInt16
  | none => defaultPort
  | some cs => portOfChars cs

theorem portOfChars_of_denotes {cs : List Char} {port : UInt16}
    (h : Denotes cs port.toNat) (hne : port ≠ 0) : portOfChars cs = port := by
  have hpos : 0 < port.toNat :=
    Nat.pos_of_ne_zero fun hzero => hne (UInt16.toNat_inj.mp hzero)
  rw [portOfChars, portNumber?_eq_some_iff.mpr h]
  dsimp only
  rw [if_pos ⟨hpos, port.toNat_lt⟩]
  exact UInt16.ofNat_toNat

theorem portOfChars_of_not_denotes {cs : List Char}
    (h : ∀ n, Denotes cs n → n = 0 ∨ 65535 < n) : portOfChars cs = defaultPort := by
  unfold portOfChars
  cases hnumber : portNumber? cs with
  | none => rfl
  | some n =>
      have hrange := h n (portNumber?_eq_some_iff.mp hnumber)
      exact if_neg (by omega)

theorem readsPort_iff {written : Option (List Char)} {port : UInt16} :
    ReadsPort written port ↔ portOf written = port := by
  constructor
  · rintro (⟨hdenotes, hne⟩ | hnone)
    · exact portOfChars_of_denotes hdenotes hne
    · cases written with
      | none => rfl
      | some cs => exact portOfChars_of_not_denotes (hnone cs rfl)
  · rintro rfl
    cases written with
    | none => exact .default fun cs hcs => by cases hcs
    | some cs =>
        by_cases hport : ∃ port : UInt16, port ≠ 0 ∧ Denotes cs port.toNat
        · obtain ⟨port, hne, hdenotes⟩ := hport
          rw [portOf, portOfChars_of_denotes hdenotes hne]
          exact .number hdenotes hne
        · have hnone : ∀ n, Denotes cs n → n = 0 ∨ 65535 < n := by
            refine fun n hn => Decidable.byContradiction fun hrange => hport ?_
            have htoNat : (UInt16.ofNat n).toNat = n :=
              UInt16.toNat_ofNat_of_lt' (show n < 65536 by omega)
            refine ⟨UInt16.ofNat n, fun hzero => ?_, by rwa [htoNat]⟩
            rw [hzero] at htoNat
            exact hrange (.inl htoNat.symm)
          rw [portOf, portOfChars_of_not_denotes hnone]
          exact .default fun _ hcs => by cases hcs; exact hnone

theorem map_ofList_eq_iff {pieces : List (List Char)} {texts : List String} :
    pieces = texts.map String.toList ↔ pieces.map String.ofList = texts := by
  constructor
  · rintro rfl
    simp
  · rintro rfl
    simp

theorem segments_slash {inner : List Char} (h : inner ≠ []) :
    segments ('/' :: inner) = (inner.splitOn '/').map String.ofList := by
  simp [segments, h]

theorem readsPath_iff {written : List Char} {path : List String}
    (h : written = [] ∨ written.head? = some '/') :
    ReadsPath written path ↔ segments written = path := by
  constructor
  · rintro (_ | _ | ⟨hne, hpieces⟩)
    · rfl
    · rfl
    · rw [segments_slash hne]
      exact map_ofList_eq_iff.mp (pieces_iff.mp hpieces)
  · rintro rfl
    cases written with
    | nil => exact .empty
    | cons c inner =>
        obtain rfl : c = '/' := by simpa using h
        by_cases hne : inner = []
        · rw [hne]
          exact .root
        · rw [segments_slash hne]
          exact .segments hne (pieces_iff.mpr (map_ofList_eq_iff.mpr rfl))

theorem terms_of_pieces {cs : List Char} {pieces : List String}
    (h : Pieces '&' cs (pieces.map String.toList)) :
    terms cs = pieces.filter (· ≠ "") := by
  have hkept : (fun t : List Char => !t.isEmpty) ∘ String.toList =
      fun t : String => decide (t ≠ "") := by
    funext t
    rw [Bool.eq_iff_iff]
    simp
  rw [terms, pieces_iff.mp h, List.filter_map, hkept]
  exact map_ofList_eq_iff.mp rfl

theorem readsQuery_iff {written : Option (List Char)} {query : List String} :
    ReadsQuery written query ↔ terms (written.getD []) = query := by
  constructor
  · rintro (_ | hpieces)
    · rfl
    · exact terms_of_pieces hpieces
  · rintro rfl
    cases written with
    | none => exact .absent
    | some cs =>
        have hpieces :
            Pieces '&' cs (((cs.splitOn '&').map String.ofList).map String.toList) :=
          pieces_iff.mpr (map_ofList_eq_iff.mpr rfl)
        have hterms : terms ((some cs).getD []) = _ := terms_of_pieces hpieces
        rw [hterms]
        exact .terms hpieces

/-- What parts are read as. -/
def Parts.uri (p : Parts) : Uri where
  secure := p.secure
  host := String.ofList p.host.inside
  port := portOf p.port
  path := segments p.path
  query := terms (p.query.getD [])

theorem Parts.reads_iff {p : Parts} (h : p.WellFormed) {u : Uri} :
    p.Reads u ↔ p.uri = u := by
  constructor
  · rintro ⟨hsecure, hhost, hport, hpath, hquery⟩
    have hhost : String.ofList p.host.inside = u.host := by
      rw [← hhost, String.ofList_toList]
    rw [Parts.uri, ← hsecure, hhost, readsPort_iff.mp hport,
      (readsPath_iff h.path_start).mp hpath, readsQuery_iff.mp hquery]
  · rintro rfl
    exact
      { secure := rfl
        host := String.toList_ofList
        port := readsPort_iff.mpr rfl
        path := (readsPath_iff h.path_start).mpr rfl
        query := readsQuery_iff.mpr rfl }

end Uri

end Coap
