import Coap.Proofs.Uri.Grammar

/-!
# Which texts are read as URIs

Five things can be wrong with a text, and of those that are the one is told that is
looked for first. `Fault` says what each of them is without saying how it is looked for;
several may apply to one text, an address literal with nothing in it and something
behind it having two. `FirstFault` is the one that is told.

A text with no fault is written in parts, which are found by cutting it where the parts
end. So a text is either read as what its parts are read as, or refused for its first
fault, and as both are determined these are equivalences.

## Main results

* `splitScheme_eq_some_iff` — the scheme stands before the first `://`.
* `ofChars_text` — what is written in parts is read as the parts are read.
* `exists_parts` — what has no fault is written in parts.
* `ofChars_of_firstFault` — what has faults is refused for the first of them.
* `accepts_exactly_its_grammar` — both as equivalences, for every text.
-/

namespace Coap

namespace Uri

/-! ## The first `://` -/

/-- A text is split at its first `://`. -/
structure FirstSplit (cs scheme rest : List Char) : Prop where
  eq_append : cs = scheme ++ "://".toList ++ rest
  first : ∀ scheme' rest', cs = scheme' ++ "://".toList ++ rest' →
    scheme.length ≤ scheme'.length

theorem FirstSplit.unique {cs scheme rest scheme' rest' : List Char}
    (h : FirstSplit cs scheme rest) (h' : FirstSplit cs scheme' rest') :
    scheme = scheme' ∧ rest = rest' := by
  have hlength : scheme.length = scheme'.length :=
    Nat.le_antisymm (h.first _ _ h'.eq_append) (h'.first _ _ h.eq_append)
  have heq := h.eq_append.symm.trans h'.eq_append
  rw [List.append_assoc, List.append_assoc] at heq
  obtain ⟨hscheme, hbehind⟩ := List.append_inj heq hlength
  exact ⟨hscheme, List.append_cancel_left hbehind⟩

/-- A text with `://` in it is split there or before. -/
theorem splitScheme_append (scheme rest : List Char) :
    ∃ front back, splitScheme (scheme ++ "://".toList ++ rest) = some (front, back) ∧
      front.length ≤ scheme.length := by
  induction scheme with
  | nil => exact ⟨[], rest, rfl, Nat.le_refl 0⟩
  | cons c others ih =>
      rw [List.cons_append, List.cons_append]
      unfold splitScheme
      split
      · exact ⟨[], _, rfl, Nat.zero_le _⟩
      · next heq =>
          obtain ⟨rfl, rfl⟩ := List.cons.inj heq
          obtain ⟨front, back, hsplit, hlength⟩ := ih
          exact ⟨c :: front, back, by rw [hsplit]; rfl, Nat.succ_le_succ hlength⟩
      · next heq => cases heq

theorem splitScheme_eq_some_iff {cs scheme rest : List Char} :
    splitScheme cs = some (scheme, rest) ↔ FirstSplit cs scheme rest := by
  have hfirst {scheme rest : List Char} (h : splitScheme cs = some (scheme, rest)) :
      FirstSplit cs scheme rest := by
    refine ⟨splitScheme_eq_some h, ?_⟩
    rintro scheme' rest' rfl
    obtain ⟨front, back, hsplit, hlength⟩ := splitScheme_append scheme' rest'
    rw [h] at hsplit
    cases hsplit
    exact hlength
  refine ⟨hfirst, fun h => ?_⟩
  obtain ⟨front, back, hsplit, -⟩ := splitScheme_append scheme rest
  rw [← h.eq_append] at hsplit
  obtain ⟨rfl, rfl⟩ := h.unique (hfirst hsplit)
  exact hsplit

theorem secure?_eq_some_iff {scheme : List Char} {secure : Bool} :
    secure? scheme = some secure ↔
      scheme = if secure then "coaps".toList else "coap".toList := by
  unfold secure?
  split
  · next h =>
      subst h
      cases secure <;> decide
  · next h =>
      split
      · next h =>
          subst h
          cases secure <;> decide
      · next h' => cases secure <;> simp_all

/-! ## Faults -/

theorem head?_all_endsHost_iff {cs : List Char} :
    cs.head?.all endsHost = true ↔ ∀ c ∈ cs.head?, EndsHost c := by
  cases cs <;> simp [endsHost_iff]

/-- What can be wrong with what stands behind the `://`. -/
inductive FaultBehind : List Char → UriError → Prop where
  | fragment {rest : List Char} (hmem : '#' ∈ rest) : FaultBehind rest .fragment
  | unterminatedIpv6 {inner : List Char} (hclosing : ']' ∉ inner) :
      FaultBehind ('[' :: inner) .unterminatedIpv6
  | trailingIpv6Garbage {literal after : List Char} {c : Char} (hclosing : ']' ∉ literal)
      (hgarbage : ¬EndsHost c) :
      FaultBehind ('[' :: (literal ++ ']' :: c :: after)) .trailingIpv6Garbage
  | emptyLiteral (after : List Char) : FaultBehind ('[' :: ']' :: after) .missingHost
  | emptyName {rest : List Char} (hends : ∀ c ∈ rest.head?, EndsHost c) :
      FaultBehind rest .missingHost

/-- What can be wrong with a text. -/
inductive Fault (cs : List Char) : UriError → Prop where
  | scheme (hunknown : ∀ scheme rest, FirstSplit cs scheme rest →
      scheme ≠ "coap".toList ∧ scheme ≠ "coaps".toList) : Fault cs .invalidScheme
  | behind {scheme rest : List Char} {e : UriError} (hsplit : FirstSplit cs scheme rest)
      (hfault : FaultBehind rest e) : Fault cs e

/-- The place of a fault in the order in which they are looked for. -/
def place : UriError → Nat
  | .invalidScheme => 0
  | .fragment => 1
  | .unterminatedIpv6 => 2
  | .trailingIpv6Garbage => 3
  | .missingHost => 4

/-- A fault is the first that applies to a text. -/
structure FirstFault (cs : List Char) (e : UriError) : Prop where
  fault : Fault cs e
  first : ∀ e', Fault cs e' → place e ≤ place e'

/-! ## What is written in parts -/

theorem splitHost_bracketed {literal after : List Char} (h : ']' ∉ literal) :
    splitHost ('[' :: (literal ++ ']' :: after)) =
      if after.head?.all endsHost then .ok (literal, after)
      else .error .trailingIpv6Garbage := by
  obtain ⟨hfront, hback⟩ := cutAt_iff.mp (cutAt_bracketed h after)
  rw [splitHost, hfront, hback]

theorem splitHost_garbage {literal after : List Char} {c : Char} (h : ']' ∉ literal)
    (hgarbage : ¬EndsHost c) :
    splitHost ('[' :: (literal ++ ']' :: c :: after)) = .error .trailingIpv6Garbage :=
  (splitHost_bracketed h).trans (if_neg (mt endsHost_iff.mp hgarbage))

theorem splitHost_unterminated {inner : List Char} (h : ']' ∉ inner) :
    splitHost ('[' :: inner) = .error .unterminatedIpv6 := by
  obtain ⟨-, hback⟩ := cutAt_iff.mp ⟨(List.append_nil inner).symm, ne_of_notMem h, rfl⟩
  rw [splitHost, hback]

theorem splitHost_of_cutAt {rest name after : List Char} (hopening : rest.head? ≠ some '[')
    (h : CutAt (fun c => !endsHost c) rest name after) :
    splitHost rest = .ok (name, after) := by
  obtain ⟨hfront, hback⟩ := cutAt_iff.mp h
  unfold splitHost
  split
  · exact absurd rfl hopening
  · rw [hfront, hback]

theorem splitHost_text {host : Host} {after : List Char} (h : host.WellFormed)
    (hafter : after.head?.all endsHost = true) :
    splitHost (host.text ++ after) = .ok (host.inside, after) := by
  cases host with
  | bracketed literal =>
      have htext : (Host.bracketed literal).text ++ after =
          '[' :: (literal ++ ']' :: after) := by simp [Host.text]
      rw [htext, splitHost_bracketed h.2, if_pos hafter]
      rfl
  | bare name => exact splitHost_of_cutAt (head?_bare_append h) (cutAt_bare h hafter)

theorem splitPort_announced {port : Option (List Char)} {more : List Char}
    (h : ∀ cs ∈ port, '/' ∉ cs ∧ '?' ∉ cs) (hmore : more.head?.all endsPort = true) :
    splitPort (announced ':' port ++ more) = (portOf port, more) := by
  cases port with
  | none =>
      unfold splitPort
      split
      · next heq =>
          rw [show more = _ from heq] at hmore
          contradiction
      · rfl
  | some cs =>
      obtain ⟨hfront, hback⟩ := cutAt_iff.mp (cutAt_port (h cs rfl) hmore)
      show splitPort (':' :: (cs ++ more)) = _
      rw [splitPort, hfront, hback]
      rfl

/-- What is written in parts is read as the parts are read. -/
theorem ofChars_text {p : Parts} (h : p.WellFormed) : ofChars p.text = .ok p.uri := by
  have hscheme : splitScheme p.text = some (p.scheme, p.behindScheme) := by
    unfold Parts.text Parts.scheme
    cases p.secure <;> rfl
  have hport := splitPort_announced h.port h.endsPort_head?
  obtain ⟨hpath, hquery⟩ := cutAt_iff.mp (cutAt_path h.path p.query)
  have hinside : p.host.inside ≠ [] := by
    cases hhost : p.host with
    | bracketed literal => exact (hhost ▸ h.host).1
    | bare name => exact (hhost ▸ h.host).1
  refine ofChars_eq_ok.mpr ⟨p.scheme, p.behindScheme, p.behindHost, hscheme,
    secure?_eq_some_iff.mpr rfl, h.fragment, ?_, ?_, ?_, ?_, ?_⟩
  · rw [Parts.uri, String.toList_ofList]
    exact splitHost_text h.host h.endsHost_head?
  · simpa [Parts.uri] using hinside
  · rw [Parts.behindHost, hport]
    rfl
  · rw [Parts.behindHost, hport, hpath]
    rfl
  · rw [Parts.behindHost, hport, hquery]
    show terms (p.query.getD []) = _
    cases p.query <;> rfl

/-! ## What has no fault -/

/-- Behind a host there may be a port. -/
theorem exists_port {after : List Char} (h : after.head?.all endsHost = true) :
    ∃ port more, after = announced ':' port ++ more ∧
      (∀ cs ∈ port, '/' ∉ cs ∧ '?' ∉ cs) ∧ more.head?.all endsPort = true := by
  cases after with
  | nil => exact ⟨none, [], rfl, by simp, rfl⟩
  | cons c rest =>
      by_cases hc : c = ':'
      · obtain ⟨cs, more, hcut⟩ := exists_cutAt (fun c => !endsPort c) rest
        refine ⟨some cs, more, ?_, ?_, by simpa using hcut.back⟩
        · rw [hc, hcut.eq_append]
          rfl
        · rintro _ ⟨⟩
          exact ⟨hcut.notMem_front rfl, hcut.notMem_front rfl⟩
      · refine ⟨none, c :: rest, rfl, by simp, ?_⟩
        obtain hcolon | hport := endsHost_iff.mp h
        · exact absurd hcolon hc
        · exact endsPort_iff.mpr hport

/-- Behind a port there may be a path and a query. -/
theorem exists_path {more : List Char} (h : more.head?.all endsPort = true) :
    ∃ path query, more = path ++ announced '?' query ∧ '?' ∉ path ∧
      (path = [] ∨ path.head? = some '/') := by
  obtain ⟨path, back, hcut⟩ := exists_cutAt (· != '?') more
  have hquestion : '?' ∉ path := hcut.notMem_front rfl
  have hquery : ∃ query, back = announced '?' query := by
    cases back with
    | nil => exact ⟨none, rfl⟩
    | cons c rest =>
        obtain rfl : c = '?' := by simpa using hcut.back
        exact ⟨some rest, rfl⟩
  obtain ⟨query, rfl⟩ := hquery
  refine ⟨path, query, hcut.eq_append, hquestion, ?_⟩
  cases path with
  | nil => exact .inl rfl
  | cons c rest =>
      rw [hcut.eq_append] at h
      have hc : c ≠ '?' := fun heq => hquestion (heq ▸ List.mem_cons_self)
      right
      simpa [endsPort, hc] using h

/-- Where nothing is wrong behind a bracket there is a literal. -/
theorem exists_literal {inner : List Char} (h : ∀ e, ¬FaultBehind ('[' :: inner) e) :
    ∃ literal after, inner = literal ++ ']' :: after ∧
      (Host.bracketed literal).WellFormed ∧ after.head?.all endsHost = true := by
  obtain ⟨literal, back, hcut⟩ := exists_cutAt (· != ']') inner
  have hclosing : ']' ∉ literal := hcut.notMem_front rfl
  cases back with
  | nil =>
      have hinner : inner = literal := by simpa using hcut.eq_append
      exact absurd (.unterminatedIpv6 (hinner ▸ hclosing)) (h .unterminatedIpv6)
  | cons c after =>
      obtain rfl : c = ']' := by simpa using hcut.back
      obtain rfl := hcut.eq_append
      refine ⟨literal, after, rfl, ⟨?_, hclosing⟩, ?_⟩
      · rintro rfl
        exact h _ (.emptyLiteral after)
      · cases after with
        | nil => rfl
        | cons c after =>
            by_cases hends : EndsHost c
            · exact endsHost_iff.mpr hends
            · exact absurd (.trailingIpv6Garbage hclosing hends) (h .trailingIpv6Garbage)

/-- Where nothing is wrong and there is no bracket there is a name. -/
theorem exists_name {rest : List Char} (h : ∀ e, ¬FaultBehind rest e)
    (hopening : rest.head? ≠ some '[') :
    ∃ name after, rest = name ++ after ∧ (Host.bare name).WellFormed ∧
      after.head?.all endsHost = true := by
  obtain ⟨name, after, hcut⟩ := exists_cutAt (fun c => !endsHost c) rest
  have hafter : after.head?.all endsHost = true := by simpa using hcut.back
  obtain rfl := hcut.eq_append
  refine ⟨name, after, rfl, ⟨?_, hcut.notMem_front rfl, hcut.notMem_front rfl,
    hcut.notMem_front rfl, ?_⟩, hafter⟩
  · rintro rfl
    exact h _ (.emptyName (head?_all_endsHost_iff.mp hafter))
  · cases name with
    | nil => simp
    | cons c others => exact hopening

/-- Where nothing is wrong there is a host. -/
theorem exists_host {rest : List Char} (h : ∀ e, ¬FaultBehind rest e) :
    ∃ (host : Host) (after : List Char), rest = host.text ++ after ∧ host.WellFormed ∧
      after.head?.all endsHost = true := by
  by_cases hopening : rest.head? = some '['
  · obtain ⟨inner, rfl⟩ := List.head?_eq_some_iff.mp hopening
    obtain ⟨literal, after, rfl, hhost, hafter⟩ := exists_literal h
    exact ⟨.bracketed literal, after, by simp [Host.text], hhost, hafter⟩
  · obtain ⟨name, after, rfl, hhost, hafter⟩ := exists_name h hopening
    exact ⟨.bare name, after, rfl, hhost, hafter⟩

/-- A text whose scheme is not at fault is split behind one of the two. -/
theorem exists_scheme {cs : List Char} (h : ¬Fault cs .invalidScheme) :
    ∃ (secure : Bool) (rest : List Char),
      FirstSplit cs (if secure then "coaps".toList else "coap".toList) rest := by
  refine Classical.byContradiction fun hnone => h (.scheme fun scheme rest hsplit => ?_)
  constructor <;> rintro rfl
  · exact hnone ⟨false, rest, hsplit⟩
  · exact hnone ⟨true, rest, hsplit⟩

/-- What has no fault is written in parts. -/
theorem exists_parts {cs : List Char} (h : ∀ e, ¬Fault cs e) :
    ∃ p : Parts, p.WellFormed ∧ cs = p.text := by
  obtain ⟨secure, rest, hsplit⟩ := exists_scheme (h .invalidScheme)
  have hbehind (e : UriError) : ¬FaultBehind rest e := fun hfault =>
    h e (.behind hsplit hfault)
  obtain ⟨host, after, rfl, hhost, hafter⟩ := exists_host hbehind
  obtain ⟨port, more, rfl, hport, hmore⟩ := exists_port hafter
  obtain ⟨path, query, rfl, hpath, hstart⟩ := exists_path hmore
  refine ⟨⟨secure, host, port, path, query⟩, ?_, hsplit.eq_append⟩
  exact
    { host := hhost
      port := hport
      path_start := hstart
      path := hpath
      fragment := fun hmem => hbehind _ (.fragment hmem) }

/-! ## What has faults -/

section

variable {cs rest : List Char} {secure : Bool}

theorem ofChars_of_unknown (h : ∀ scheme rest, FirstSplit cs scheme rest →
    scheme ≠ "coap".toList ∧ scheme ≠ "coaps".toList) :
    ofChars cs = .error .invalidScheme := by
  unfold ofChars
  cases hsplit : splitScheme cs with
  | none => rfl
  | some parts =>
      obtain ⟨hcoap, hcoaps⟩ := h parts.1 parts.2 (splitScheme_eq_some_iff.mp hsplit)
      have hsecure : secure? parts.1 = none := by
        rw [secure?, if_neg hcoap, if_neg hcoaps]
      dsimp only
      rw [hsecure]
      rfl

/-- What a host and what stands behind it are read as. -/
def readHost (secure : Bool) (host after : List Char) : Except UriError Uri :=
  if host.isEmpty then .error .missingHost
  else
    .ok
      { secure
        host := String.ofList host
        port := (splitPort after).1
        path := segments ((splitPort after).2.takeWhile (· != '?'))
        query := terms (((splitPort after).2.dropWhile (· != '?')).drop 1) }

/-- What is read behind a scheme that is known. -/
theorem ofChars_of_split
    (h : FirstSplit cs (if secure then "coaps".toList else "coap".toList) rest) :
    ofChars cs =
      if rest.contains '#' then .error .fragment
      else splitHost rest >>= fun cut => readHost secure cut.1 cut.2 := by
  unfold ofChars
  rw [splitScheme_eq_some_iff.mpr h]
  dsimp only
  rw [secure?_eq_some_iff.mpr rfl]
  dsimp only
  split
  · rfl
  · cases splitHost rest with
    | error e => rfl
    | ok cut =>
        show (if cut.1.isEmpty then _ else _) = readHost secure cut.1 cut.2
        rw [readHost]
        split <;> rfl

/-- What has a fault behind a scheme that is known is refused for the first of them. -/
theorem ofChars_of_faultBehind {e : UriError}
    (hsplit : FirstSplit cs (if secure then "coaps".toList else "coap".toList) rest)
    (hfault : FaultBehind rest e)
    (hfirst : ∀ e', FaultBehind rest e' → place e ≤ place e') : ofChars cs = .error e := by
  have hcontains (hlt : place .fragment < place e) : ¬rest.contains '#' = true := by
    intro hmem
    have hle := hfirst .fragment (.fragment (by simpa using hmem))
    omega
  rw [ofChars_of_split hsplit]
  cases hfault with
  | fragment hmem => exact if_pos (by simpa using hmem)
  | unterminatedIpv6 hclosing =>
      rw [if_neg (hcontains (by decide)), splitHost_unterminated hclosing]
      rfl
  | trailingIpv6Garbage hclosing hgarbage =>
      rw [if_neg (hcontains (by decide)), splitHost_garbage hclosing hgarbage]
      rfl
  | emptyLiteral after =>
      -- what stands behind the brackets is looked at before what stands in them
      have hends : after.head?.all endsHost = true := by
        refine head?_all_endsHost_iff.mpr fun c hc =>
          Classical.byContradiction fun hgarbage => ?_
        obtain ⟨others, rfl⟩ := List.head?_eq_some_iff.mp hc
        exact absurd (hfirst _ (.trailingIpv6Garbage List.not_mem_nil hgarbage)) (by decide)
      have hhost : splitHost ('[' :: ']' :: after) = .ok ([], after) :=
        (splitHost_bracketed List.not_mem_nil).trans (if_pos hends)
      rw [if_neg (hcontains (by decide)), hhost]
      rfl
  | emptyName hends =>
      have hopening : rest.head? ≠ some '[' := fun hhead =>
        absurd (hends _ hhead) (by simp [EndsHost])
      have hcut : CutAt (fun c => !endsHost c) rest [] rest :=
        ⟨rfl, by simp, by simpa using head?_all_endsHost_iff.mpr hends⟩
      rw [if_neg (hcontains (by decide)), splitHost_of_cutAt hopening hcut]
      rfl

/-- What has faults is refused for the first of them. -/
theorem ofChars_of_firstFault {e : UriError} (h : FirstFault cs e) :
    ofChars cs = .error e := by
  cases h.fault with
  | scheme hunknown => exact ofChars_of_unknown hunknown
  | behind hsplit hfault =>
      -- a fault behind the scheme is told only where the scheme is not at fault
      have hknown : ¬Fault cs .invalidScheme := by
        intro hunknown
        have hle := h.first _ hunknown
        cases hfault <;> exact absurd hle (by decide)
      obtain ⟨secure, rest, hsplit'⟩ := exists_scheme hknown
      obtain ⟨rfl, rfl⟩ := hsplit.unique hsplit'
      exact ofChars_of_faultBehind hsplit' hfault fun e' hfault' =>
        h.first e' (.behind hsplit hfault')

end

/-- Of the faults of a text one is the first. -/
theorem exists_firstFault {cs : List Char} {e : UriError} (h : Fault cs e) :
    ∃ e', FirstFault cs e' := by
  induction hplace : place e using Nat.strong_induction_on generalizing e with
  | h n ih =>
      by_cases hfirst : ∀ e', Fault cs e' → place e ≤ place e'
      · exact ⟨e, h, hfirst⟩
      · simp only [not_forall, Nat.not_le] at hfirst
        obtain ⟨e', hfault', hlt⟩ := hfirst
        exact ih (place e') (hplace ▸ hlt) hfault' rfl

/-! ## Acceptance and refusal -/

/-- A text is written in parts, or it has a first fault. -/
theorem written_or_faulty (cs : List Char) :
    (∃ p : Parts, p.WellFormed ∧ cs = p.text) ∨ ∃ e, FirstFault cs e := by
  by_cases hfault : ∃ e, Fault cs e
  · obtain ⟨e, he⟩ := hfault
    exact .inr (exists_firstFault he)
  · exact .inl (exists_parts (not_exists.mp hfault))

/-- A text is read exactly if it is written in parts, in one way then and as what these
are read as, and is refused for its first fault otherwise. -/
structure ReadByGrammar (s : String) : Prop where
  accepts_iff : (∃ u, ofText s = .ok u) ↔ ∃ p : Parts, p.WellFormed ∧ s.toList = p.text
  unique {p q : Parts} (hp : p.WellFormed) (hq : q.WellFormed) (hptext : s.toList = p.text)
    (hqtext : s.toList = q.text) : p = q
  reads_iff (u : Uri) :
    ofText s = .ok u ↔ ∃ p : Parts, p.WellFormed ∧ s.toList = p.text ∧ p.Reads u
  refuses_iff (e : UriError) : ofText s = .error e ↔ FirstFault s.toList e

theorem ofText_of_text {s : String} {p : Parts} (hp : p.WellFormed)
    (h : s.toList = p.text) : ofText s = .ok p.uri := by
  rw [ofText, h]
  exact ofChars_text hp

theorem accepts_exactly_its_grammar (s : String) : ReadByGrammar s where
  accepts_iff := by
    constructor
    · rintro ⟨u, hread⟩
      rcases written_or_faulty s.toList with hwritten | ⟨e, he⟩
      · exact hwritten
      · rw [ofText, ofChars_of_firstFault he] at hread
        contradiction
    · rintro ⟨p, hp, htext⟩
      exact ⟨p.uri, ofText_of_text hp htext⟩
  unique hp hq hptext hqtext := hp.unique hq (hptext.symm.trans hqtext)
  reads_iff u := by
    constructor
    · intro hread
      rcases written_or_faulty s.toList with ⟨p, hp, htext⟩ | ⟨e, he⟩
      · rw [ofText_of_text hp htext, Except.ok.injEq] at hread
        exact ⟨p, hp, htext, (Parts.reads_iff hp).mpr hread⟩
      · rw [ofText, ofChars_of_firstFault he] at hread
        contradiction
    · rintro ⟨p, hp, htext, hreads⟩
      rw [ofText_of_text hp htext, (Parts.reads_iff hp).mp hreads]
  refuses_iff e := by
    constructor
    · intro hrefused
      rcases written_or_faulty s.toList with ⟨p, hp, htext⟩ | ⟨e', he'⟩
      · rw [ofText_of_text hp htext] at hrefused
        contradiction
      · rw [ofText, ofChars_of_firstFault he', Except.error.injEq] at hrefused
        exact hrefused ▸ he'
    · exact ofChars_of_firstFault

-- The literal is empty as well, but what stands behind it is told.
example : ofText "coap://[]x" = .error .trailingIpv6Garbage := by rfl

end Uri

end Coap
