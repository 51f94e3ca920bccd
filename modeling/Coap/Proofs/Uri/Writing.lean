import Coap.Proofs.Requests.Pieces
import Coap.Proofs.Uri.Acceptance

/-!
# Reading undoes writing

A URI is written with its port and with a delimiter in front of each of its parts.
Every delimiter may stand in some part: `?` and `/` in a term of the query, all but
`]` between brackets, `]` in a host without brackets. What is read back is right as
no part contains a character that the search for its own end stops at; `Normal`
says which characters these are, part by part.

What is written is cut behind the host, the port and the path as every text is that is
written in parts; the parts are those of the URI.

## Main results

* `ofText_text` — what is written of a normal URI is read as that URI.
* `normal_of_ofText` — what a text is read as is normal.
* `reading_undoes_writing` — both, and that reading, writing and reading is the same
  as reading.
-/

namespace Coap

namespace Uri

/-! ## Writing -/

/-- Whether a host is written without brackets. -/
def isBare (host : String) : Bool :=
  host.toList.head? != some '[' && host.toList.all (!endsHost ·)

/-- A host, in brackets if it needs them. -/
def hostText (host : String) : String :=
  if isBare host then host else "[" ++ host ++ "]"

/-- The segments of a path, nothing for an empty path. -/
def pathText (path : List String) : String :=
  if path.isEmpty then "" else "/" ++ "/".intercalate path

/-- The terms of a query, nothing if there are none. -/
def queryText (query : List String) : String :=
  if query.isEmpty then "" else "?" ++ "&".intercalate query

/-- The written form of a URI. -/
def text (u : Uri) : String :=
  (if u.secure then "coaps" else "coap") ++ "://" ++ hostText u.host ++ ":" ++
    u.port.toNat.repr ++ pathText u.path ++ queryText u.query

/-- No part of a URI has a character that ends the part where it is written. -/
structure Normal (u : Uri) : Prop where
  port_ne_zero : u.port ≠ 0
  /-- A path that is one empty segment would be written as the empty path. -/
  path_ne : u.path ≠ [""]
  segments : ∀ s ∈ u.path, '/' ∉ s.toList ∧ '?' ∉ s.toList ∧ '#' ∉ s.toList
  terms : ∀ t ∈ u.query, t ≠ "" ∧ '&' ∉ t.toList ∧ '#' ∉ t.toList
  host_ne : u.host ≠ ""
  host_fragment : '#' ∉ u.host.toList
  /-- What stands in brackets ends at the first closing one. -/
  host_closing : ']' ∉ u.host.toList ∨ isBare u.host = true

theorem isBare_iff {host : String} :
    isBare host = true ↔
      host.toList.head? ≠ some '[' ∧ ∀ c ∈ host.toList, endsHost c = false := by
  simp [isBare]

/-! ## Reading what is written, part by part -/

theorem portOfChars_toDigits {port : UInt16} (h : port ≠ 0) :
    portOfChars (Nat.toDigits 10 port.toNat) = port :=
  portOfChars_of_denotes
    (.inl (Text.readNat?_eq_some_iff.mp (Text.readNat?_toDigits (by omega) (by omega) _))) h

theorem splitHost_hostText {u : Uri} (h : u.Normal) (more : List Char) :
    splitHost ((hostText u.host).toList ++ ':' :: more) =
      .ok (u.host.toList, ':' :: more) := by
  have hne : u.host.toList ≠ [] := by simpa using h.host_ne
  by_cases hbare : isBare u.host = true
  · obtain ⟨hopening, hends⟩ := isBare_iff.mp hbare
    have hnot {c : Char} (hc : endsHost c = true) : c ∉ u.host.toList := fun hmem => by
      rw [hends c hmem] at hc
      contradiction
    have hhost : (Host.bare u.host.toList).WellFormed :=
      ⟨hne, hnot rfl, hnot rfl, hnot rfl, hopening⟩
    rw [hostText, if_pos hbare]
    exact splitHost_text hhost rfl
  · have hhost : (Host.bracketed u.host.toList).WellFormed :=
      ⟨hne, h.host_closing.resolve_right hbare⟩
    have htext : (hostText u.host).toList = (Host.bracketed u.host.toList).text := by
      simp [hostText, hbare, Host.text]
    rw [htext]
    exact splitHost_text hhost rfl

theorem splitPort_toDigits {port : UInt16} (h : port ≠ 0) {more : List Char}
    (hmore : more.head?.all endsPort = true) :
    splitPort (':' :: (Nat.toDigits 10 port.toNat ++ more)) = (port, more) := by
  have hnot {c : Char} (hc : Text.digitValue c = 16) : c ∉ Nat.toDigits 10 port.toNat :=
    Text.notMem_toDigits (by omega) (by omega) hc _
  have hfree : ∀ cs ∈ some (Nat.toDigits 10 port.toNat), '/' ∉ cs ∧ '?' ∉ cs := by
    rintro _ ⟨⟩
    exact ⟨hnot (by decide), hnot (by decide)⟩
  have hport := splitPort_announced hfree hmore
  rw [portOf, portOfChars_toDigits h] at hport
  exact hport

theorem segments_pathText {path : List String} (hne : path ≠ [""])
    (hslash : ∀ s ∈ path, '/' ∉ s.toList) : segments (pathText path).toList = path := by
  by_cases hpath : path = []
  · simp [hpath, pathText, segments]
  · have htext : (pathText path).toList =
        '/' :: ['/'].intercalate (path.map String.toList) := by
      simp [pathText, hpath, String.toList_intercalate]
    have hsplit : (['/'].intercalate (path.map String.toList)).splitOn '/' =
        path.map String.toList :=
      List.splitOn_intercalate '/' (by simpa using hslash) (by simpa using hpath)
    have hinner : ['/'].intercalate (path.map String.toList) ≠ [] := by
      intro hempty
      -- The one list that is written as no characters is that of one empty segment.
      rw [hempty, List.splitOn_nil] at hsplit
      obtain ⟨s, rfl, hs⟩ : ∃ s, path = [s] ∧ s.toList = [] := by
        cases path with
        | nil => simp at hpath
        | cons first others => simp_all
      exact hne (by simpa using hs)
    rw [htext, segments]
    simp only [List.isEmpty_iff, hinner, if_false, hsplit]
    simp

theorem terms_queryText {query : List String}
    (hterms : ∀ t ∈ query, t ≠ "" ∧ '&' ∉ t.toList) :
    terms ((queryText query).toList.drop 1) = query := by
  by_cases hquery : query = []
  · simp [hquery, queryText, terms]
  · have htext : (queryText query).toList.drop 1 =
        ['&'].intercalate (query.map String.toList) := by
      simp [queryText, hquery, String.toList_intercalate]
    have hsplit : (['&'].intercalate (query.map String.toList)).splitOn '&' =
        query.map String.toList := by
      apply List.splitOn_intercalate '&'
      · simpa using fun t ht => (hterms t ht).2
      · simpa using hquery
    have hkept : (query.map String.toList).filter (fun t => !t.isEmpty) =
        query.map String.toList := by
      rw [List.filter_eq_self]
      simpa using fun t ht => (hterms t ht).1
    rw [htext, terms, hsplit, hkept]
    simp

/-! ## Reading what is written -/

/-- What stands behind the scheme. -/
def behindScheme (u : Uri) : List Char :=
  (hostText u.host).toList ++ ':' :: (Nat.toDigits 10 u.port.toNat ++
    ((pathText u.path).toList ++ (queryText u.query).toList))

theorem toList_text (u : Uri) :
    u.text.toList =
      (if u.secure then "coaps" else "coap").toList ++ [':', '/', '/'] ++ u.behindScheme := by
  simp [text, behindScheme]

theorem notMem_pathText {c : Char} (hc : c ≠ '/') {path : List String}
    (h : ∀ s ∈ path, c ∉ s.toList) : c ∉ (pathText path).toList := by
  by_cases hpath : path = []
  · simp [hpath, pathText]
  · have htext : (pathText path).toList =
        '/' :: ['/'].intercalate (path.map String.toList) := by
      simp [pathText, hpath, String.toList_intercalate]
    rw [htext]
    intro hmem
    rcases List.mem_cons.mp hmem with hslash | hinner
    · exact hc hslash
    · rcases mem_intercalate_singleton hinner with hslash | ⟨l, hl, hcl⟩
      · exact hc hslash
      · obtain ⟨s, hs, rfl⟩ := List.mem_map.mp hl
        exact h s hs hcl

theorem notMem_queryText {c : Char} (hquestion : c ≠ '?') (hampersand : c ≠ '&')
    {query : List String} (h : ∀ t ∈ query, c ∉ t.toList) :
    c ∉ (queryText query).toList := by
  by_cases hquery : query = []
  · simp [hquery, queryText]
  · have htext : (queryText query).toList =
        '?' :: ['&'].intercalate (query.map String.toList) := by
      simp [queryText, hquery, String.toList_intercalate]
    rw [htext]
    intro hmem
    rcases List.mem_cons.mp hmem with hfirst | hinner
    · exact hquestion hfirst
    · rcases mem_intercalate_singleton hinner with hsep | ⟨l, hl, hcl⟩
      · exact hampersand hsep
      · obtain ⟨t, ht, rfl⟩ := List.mem_map.mp hl
        exact h t ht hcl

theorem Normal.fragment_notMem {u : Uri} (h : u.Normal) : '#' ∉ u.behindScheme := by
  have hhost : '#' ∉ (hostText u.host).toList := by
    unfold hostText
    split
    · exact h.host_fragment
    · simp [h.host_fragment]
  have hport : '#' ∉ Nat.toDigits 10 u.port.toNat :=
    Text.notMem_toDigits (by omega) (by omega) (by decide) _
  have hpath : '#' ∉ (pathText u.path).toList :=
    notMem_pathText (by decide) fun s hs => (h.segments s hs).2.2
  have hquery : '#' ∉ (queryText u.query).toList :=
    notMem_queryText (by decide) (by decide) fun t ht => (h.terms t ht).2.2
  simp [behindScheme, hhost, hport, hpath, hquery]

theorem endsPort_head?_path_query (path query : List String) :
    ((pathText path).toList ++ (queryText query).toList).head?.all endsPort = true := by
  by_cases hpath : path = []
  · by_cases hquery : query = []
    · simp [hpath, hquery, pathText, queryText]
    · simp [hpath, hquery, pathText, queryText, endsPort]
  · simp [hpath, pathText, endsPort]

/-- What is written of a normal URI is read as that URI. -/
theorem ofText_text {u : Uri} (h : u.Normal) : ofText u.text = .ok u := by
  rw [ofText, ofChars_eq_ok, toList_text]
  have hquestion : ∀ c ∈ (pathText u.path).toList, (c != '?') = true :=
    ne_of_notMem (notMem_pathText (by decide) fun s hs => (h.segments s hs).2.1)
  have hquery : (queryText u.query).toList.head?.all (fun c => !(c != '?')) = true := by
    by_cases hnil : u.query = [] <;> simp [queryText, hnil]
  have hport := splitPort_toDigits h.port_ne_zero
    (endsPort_head?_path_query u.path u.query)
  refine ⟨(if u.secure then "coaps" else "coap").toList, u.behindScheme,
    ':' :: (Nat.toDigits 10 u.port.toNat ++
      ((pathText u.path).toList ++ (queryText u.query).toList)),
    ?_, ?_, h.fragment_notMem, splitHost_hostText h _, h.host_ne, ?_, ?_, ?_⟩
  · cases u.secure <;> simp [splitScheme]
  · cases u.secure <;> simp [secure?]
  · rw [hport]
  · rw [hport, takeWhile_append_of_stop hquestion hquery]
    exact (segments_pathText h.path_ne fun s hs => (h.segments s hs).1).symm
  · rw [hport, dropWhile_append_of_stop hquestion hquery]
    exact (terms_queryText fun t ht => ⟨(h.terms t ht).1, (h.terms t ht).2.1⟩).symm

/-! ## What a text is read as -/

theorem portOfChars_ne_zero (cs : List Char) : portOfChars cs ≠ 0 := by
  unfold portOfChars
  cases portNumber? cs with
  | none => decide
  | some n =>
      by_cases hn : 0 < n ∧ n < 65536
      · have htoNat : (UInt16.ofNat n).toNat = n := by
          rw [UInt16.toNat_ofNat']
          omega
        simp only [hn, and_self, if_true]
        intro hzero
        rw [hzero] at htoNat
        exact absurd htoNat (by simp; omega)
      · simp only [hn, if_false]
        decide

theorem splitPort_ne_zero (rest : List Char) : (splitPort rest).1 ≠ 0 := by
  unfold splitPort
  split
  · exact portOfChars_ne_zero _
  · show defaultPort ≠ 0
    decide

theorem segments_ne (path : List Char) : segments path ≠ [""] := by
  have hne (inner : List Char) :
      (if inner.isEmpty then [] else (inner.splitOn '/').map String.ofList) ≠ [""] := by
    intro h
    by_cases hinner : inner = []
    · simp [hinner] at h
    · simp only [List.isEmpty_iff, hinner, if_false] at h
      have hpieces : inner.splitOn '/' = [[]] := by
        cases hsplit : inner.splitOn '/' with
        | nil => simp [hsplit] at h
        | cons first others => simp_all
      have hjoined : ['/'].intercalate (inner.splitOn '/') = inner :=
        List.intercalate_splitOn '/'
      rw [hpieces] at hjoined
      exact hinner (by simpa using hjoined.symm)
  unfold segments
  split <;> exact hne _

theorem slash_notMem_of_mem_segments {path : List Char} {s : String}
    (h : s ∈ segments path) : '/' ∉ s.toList := by
  have hpiece {inner : List Char}
      (hs : s ∈ if inner.isEmpty then []
        else (inner.splitOn '/').map String.ofList) : '/' ∉ s.toList := by
    split at hs
    · cases hs
    · obtain ⟨l, hl, rfl⟩ := List.mem_map.mp hs
      rw [String.toList_ofList]
      exact notMem_of_mem_splitOn hl
  unfold segments at h
  split at h <;> exact hpiece h

theorem ampersand_notMem_of_mem_terms {query : List Char} {t : String}
    (h : t ∈ terms query) : t ≠ "" ∧ '&' ∉ t.toList := by
  obtain ⟨l, hl, rfl⟩ := List.mem_map.mp h
  obtain ⟨hpiece, hkept⟩ := List.mem_filter.mp hl
  constructor
  · simpa using hkept
  · rw [String.toList_ofList]
    exact notMem_of_mem_splitOn hpiece

theorem CutFrom.notMem {cs : List Char} {s : String} (h : CutFrom cs s) {c : Char}
    (hc : c ∉ cs) : c ∉ s.toList := by
  obtain ⟨l, rfl, hsublist⟩ := h
  rw [String.toList_ofList]
  exact fun hmem => hc (hsublist.subset hmem)

/-- A host that is read without brackets needs none; in one that is read between
brackets none is closed. -/
theorem closing_of_splitHost {rest after : List Char} {host : String}
    (h : splitHost rest = .ok (host.toList, after)) :
    ']' ∉ host.toList ∨ isBare host = true := by
  unfold splitHost at h
  split at h
  · next inner =>
      left
      split at h
      · cases h
      · split at h
        · simp only [Except.ok.injEq, Prod.mk.injEq] at h
          rw [← h.1]
          intro hmem
          have hall := List.all_takeWhile (p := (· != ']')) (l := inner)
          simpa using List.all_eq_true.mp hall _ hmem
        · cases h
  · next hopening =>
      right
      simp only [Except.ok.injEq, Prod.mk.injEq] at h
      rw [isBare_iff, ← h.1]
      constructor
      · intro hhead
        cases rest with
        | nil => simp at hhead
        | cons first others =>
            by_cases hfirst : endsHost first = true
            · simp [hfirst] at hhead
            · simp [hfirst] at hhead
              exact hopening others (by rw [hhead])
      · intro c hc
        have hall := List.all_takeWhile (p := fun c => !endsHost c) (l := rest)
        simpa using List.all_eq_true.mp hall c hc

/-- What a text is read as is normal. -/
theorem normal_of_ofText {s : String} {u : Uri} (h : ofText s = .ok u) : u.Normal := by
  obtain ⟨scheme, rest, after, -, -, hfragment, hhost, hhostNe, hport, hpath, hquery⟩ :=
    ofChars_eq_ok.mp h
  obtain ⟨hhostSub, hafterSub⟩ := sublist_of_splitHost hhost
  have hfragmentPort : '#' ∉ (splitPort after).2 := fun hmem =>
    hfragment (hafterSub.subset ((sublist_of_splitPort after).subset hmem))
  refine
    { port_ne_zero := hport ▸ splitPort_ne_zero after
      path_ne := hpath ▸ segments_ne _
      segments := ?_
      terms := ?_
      host_ne := hhostNe
      host_fragment := fun hmem => hfragment (hhostSub.subset hmem)
      host_closing := closing_of_splitHost hhost }
  · intro s hs
    rw [hpath] at hs
    have hcut := cutFrom_of_mem_segments hs
    refine ⟨slash_notMem_of_mem_segments hs, hcut.notMem ?_, hcut.notMem ?_⟩
    · intro hmem
      have hall := List.all_takeWhile (p := (· != '?')) (l := (splitPort after).2)
      simpa using List.all_eq_true.mp hall _ hmem
    · exact fun hmem => hfragmentPort ((List.takeWhile_sublist _).subset hmem)
  · intro t ht
    rw [hquery] at ht
    obtain ⟨hne, hampersand⟩ := ampersand_notMem_of_mem_terms ht
    refine ⟨hne, hampersand, (cutFrom_of_mem_terms ht).notMem ?_⟩
    exact fun hmem => hfragmentPort
      (((List.drop_sublist _ _).trans (List.dropWhile_sublist _)).subset hmem)

/-- Reading a URI undoes writing it: what is written of a normal URI is read as that
URI, whatever a text is read as is normal, and so what is read is read again from its
own written form. -/
theorem reading_undoes_writing :
    (∀ u : Uri, u.Normal → ofText u.text = .ok u) ∧
      (∀ (s : String) (u : Uri), ofText s = .ok u → u.Normal) ∧
      ∀ (s : String) (u : Uri), ofText s = .ok u → ofText u.text = .ok u := by
  refine ⟨fun u hnormal => ofText_text hnormal, fun s u hread => normal_of_ofText hread, ?_⟩
  intro s u hread
  exact ofText_text (normal_of_ofText hread)

/-- A URI in which delimiters stand in parts that they do not end. -/
def sampleDelimiters : Uri where
  secure := true
  host := "[::1"
  port := 5684
  path := ["", "a:b", ""]
  query := ["x=/?", "y"]

theorem reading_undoes_writing_sampleDelimiters :
    sampleDelimiters.Normal ∧ ofText sampleDelimiters.text = .ok sampleDelimiters := by
  have hnormal : sampleDelimiters.Normal := by
    constructor <;> simp [sampleDelimiters]
  exact ⟨hnormal, reading_undoes_writing.1 _ hnormal⟩

end Uri

end Coap
