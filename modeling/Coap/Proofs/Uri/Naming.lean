import Coap.Proofs.Net.AddressText
import Coap.Proofs.Options.Lookup
import Coap.Proofs.Options.Values
import Coap.Uri.Options

/-!
# What is left out of a request is told by its destination

A request names its resource by options, without the host and the port that its
destination has. A receiver puts its own address in the place of a missing host and
its own port in that of a missing port, and so it comes back to the resource that
was meant. The port comes back as the number. A host that was left out comes back
as the written form of the address, which may spell the literal of the URI in
another way; a host that was sent comes back in its own words.

The host is left out if it is the written form of the destination's address or is
read as that address. As the written form is read as the address, the first test
finds nothing that the second one does not.

## Main results

* `hostOption_eq_nil` — the host is left out exactly if it is a literal of the
  destination's address.
* `toList_options` — the options stand in the order in which they are made.
* `sameHost_host?`, `port?_options` — what a receiver takes the options to name.
* `elision_loses_nothing` — all of it, for every URI and destination.
-/

namespace Coap

/-! ## The receiver -/

namespace Options

variable (s : Options) (receiver : SocketAddress)

/-- The host that options name to a receiver: its own address if they name none. -/
def host? : Option String :=
  match s.find? OptionNumber.uriHost with
  | some o => o.toText?
  | none => some receiver.ip.text

/-- The port that options name to a receiver: its own port if they name none. -/
def port? : Option UInt32 :=
  match s.find? OptionNumber.uriPort with
  | some o => o.toUInt32?
  | none => some receiver.port.toUInt32

/-- The path that options name, segment by segment. -/
def path : List (Option String) :=
  (s.findAll OptionNumber.uriPath).map MessageOption.toText?

/-- The query that options name, term by term. -/
def query : List (Option String) :=
  (s.findAll OptionNumber.uriQuery).map MessageOption.toText?

end Options

namespace Uri

/-- Two hosts are the same text, or literals of the same address. -/
def SameHost (host host' : String) : Prop :=
  host = host' ∨ ∃ ip, IpAddress.ofText? host = some ip ∧ IpAddress.ofText? host' = some ip

/-! ## Leaving out -/

variable {u : Uri} {destination : Option SocketAddress}

/-- The written form of an address is one of its literals. -/
theorem hostIsImplied_iff :
    u.hostIsImplied destination = true ↔
      ∃ d, destination = some d ∧ u.hostIp? = some d.ip := by
  cases destination with
  | none => simp [hostIsImplied]
  | some d =>
      have htext : u.host = d.ip.text → u.hostIp? = some d.ip := by
        intro h
        rw [hostIp?, h]
        exact IpAddress.ofText?_text d.ip
      simpa [hostIsImplied] using htext

theorem hostOption_eq_nil :
    u.hostOption destination = [] ↔
      ∃ d, destination = some d ∧ u.hostIp? = some d.ip := by
  rw [← hostIsImplied_iff, hostOption]
  split <;> simp_all

theorem hostOption_cases (u : Uri) (destination : Option SocketAddress) :
    u.hostOption destination = [] ∨
      u.hostOption destination = [.ofText OptionNumber.uriHost u.host] := by
  unfold hostOption
  split
  · exact .inl rfl
  · exact .inr rfl

theorem portOption_cases (u : Uri) (destination : Option SocketAddress) :
    u.portOption destination = [] ∨
      u.portOption destination =
        [.ofUInt32 OptionNumber.uriPort u.port.toUInt32] := by
  unfold portOption
  split
  · exact .inl rfl
  · exact .inr rfl

/-! ## The options in a row -/

/-- If there is one option at most, its number is the only one. -/
theorem number_of_mem_of_cases {l : List MessageOption} {o only : MessageOption}
    (h : l = [] ∨ l = [only]) (ho : o ∈ l) : o.number = only.number := by
  rcases h with rfl | rfl
  · cases ho
  · rw [List.mem_singleton.mp ho]

theorem number_of_mem_hostOption {o : MessageOption}
    (h : o ∈ u.hostOption destination) : o.number = OptionNumber.uriHost :=
  number_of_mem_of_cases (hostOption_cases u destination) h

theorem number_of_mem_portOption {o : MessageOption}
    (h : o ∈ u.portOption destination) : o.number = OptionNumber.uriPort :=
  number_of_mem_of_cases (portOption_cases u destination) h

theorem number_of_mem_map_ofText {number : UInt16} {texts : List String}
    {o : MessageOption} (h : o ∈ texts.map (.ofText number)) : o.number = number := by
  obtain ⟨s, -, rfl⟩ := List.mem_map.mp h
  rfl

theorem pairwise_of_number {l : List MessageOption} {number : UInt16}
    (h : ∀ o ∈ l, o.number = number) : l.Pairwise fun a b => a.number ≤ b.number := by
  rw [List.pairwise_iff_forall_sublist]
  intro a b hsublist
  have ha : a.number = number := h a (hsublist.subset (by simp))
  have hb : b.number = number := h b (hsublist.subset (by simp))
  rw [ha, hb]
  exact UInt16.le_refl _

/-- The options stand in the order in which they are made. -/
theorem toList_options (u : Uri) (destination : Option SocketAddress) :
    (u.options destination).toList =
      u.hostOption destination ++ u.portOption destination ++
        u.path.map (.ofText OptionNumber.uriPath) ++
        u.query.map (.ofText OptionNumber.uriQuery) := by
  apply Options.toList_ofList_of_ascending
  simp only [List.pairwise_append, List.mem_append]
  refine ⟨⟨⟨pairwise_of_number fun o => number_of_mem_hostOption,
    pairwise_of_number fun o => number_of_mem_portOption, ?_⟩,
    pairwise_of_number fun o => number_of_mem_map_ofText, ?_⟩,
    pairwise_of_number fun o => number_of_mem_map_ofText, ?_⟩
  · intro a ha b hb
    rw [number_of_mem_hostOption ha, number_of_mem_portOption hb]
    decide
  · intro a ha b hb
    rw [number_of_mem_map_ofText hb]
    rcases ha with ha | ha
    · rw [number_of_mem_hostOption ha]
      decide
    · rw [number_of_mem_portOption ha]
      decide
  · intro a ha b hb
    rw [number_of_mem_map_ofText hb]
    rcases ha with (ha | ha) | ha
    · rw [number_of_mem_hostOption ha]
      decide
    · rw [number_of_mem_portOption ha]
      decide
    · rw [number_of_mem_map_ofText ha]
      decide

theorem filter_of_number {l : List MessageOption} {number : UInt16}
    (h : ∀ o ∈ l, o.number = number) (n : UInt16) :
    l.filter (·.number == n) = if number = n then l else [] := by
  by_cases hn : number = n
  · rw [if_pos hn, List.filter_eq_self]
    intro o ho
    simp [h o ho, hn]
  · rw [if_neg hn, List.filter_eq_nil_iff]
    intro o ho
    simp [h o ho, hn]

/-- What is found of a number are the options that were made with it. -/
theorem findAll_options (u : Uri) (destination : Option SocketAddress) (n : UInt16) :
    (u.options destination).findAll n =
      (if OptionNumber.uriHost = n then u.hostOption destination else []) ++
        (if OptionNumber.uriPort = n then u.portOption destination else []) ++
        (if OptionNumber.uriPath = n then u.path.map (.ofText OptionNumber.uriPath)
          else []) ++
        if OptionNumber.uriQuery = n then u.query.map (.ofText OptionNumber.uriQuery)
          else [] := by
  rw [Options.findAll, toList_options, List.filter_append, List.filter_append,
    List.filter_append, filter_of_number (fun o => number_of_mem_hostOption),
    filter_of_number (fun o => number_of_mem_portOption),
    filter_of_number (fun o => number_of_mem_map_ofText),
    filter_of_number (fun o => number_of_mem_map_ofText)]

theorem findAll_uriHost (u : Uri) (destination : Option SocketAddress) :
    (u.options destination).findAll OptionNumber.uriHost = u.hostOption destination := by
  rw [findAll_options]
  simp [OptionNumber.uriHost, OptionNumber.uriPort, OptionNumber.uriPath,
    OptionNumber.uriQuery]

theorem findAll_uriPort (u : Uri) (destination : Option SocketAddress) :
    (u.options destination).findAll OptionNumber.uriPort = u.portOption destination := by
  rw [findAll_options]
  simp [OptionNumber.uriHost, OptionNumber.uriPort, OptionNumber.uriPath,
    OptionNumber.uriQuery]

theorem findAll_uriPath (u : Uri) (destination : Option SocketAddress) :
    (u.options destination).findAll OptionNumber.uriPath =
      u.path.map (.ofText OptionNumber.uriPath) := by
  rw [findAll_options]
  simp [OptionNumber.uriHost, OptionNumber.uriPort, OptionNumber.uriPath,
    OptionNumber.uriQuery]

theorem findAll_uriQuery (u : Uri) (destination : Option SocketAddress) :
    (u.options destination).findAll OptionNumber.uriQuery =
      u.query.map (.ofText OptionNumber.uriQuery) := by
  rw [findAll_options]
  simp [OptionNumber.uriHost, OptionNumber.uriPort, OptionNumber.uriPath,
    OptionNumber.uriQuery]

/-! ## What a receiver makes of the options -/

theorem path_options (u : Uri) (destination : Option SocketAddress) :
    (u.options destination).path = u.path.map some := by
  simp [Options.path, findAll_uriPath, Function.comp_def, MessageOption.toText?_ofText]

theorem query_options (u : Uri) (destination : Option SocketAddress) :
    (u.options destination).query = u.query.map some := by
  simp [Options.query, findAll_uriQuery, Function.comp_def, MessageOption.toText?_ofText]

/-- A receiver at the destination comes back to the port. -/
theorem port?_options (u : Uri) (receiver : SocketAddress) :
    (u.options (some receiver)).port? receiver = some u.port.toUInt32 := by
  rw [Options.port?, Options.find?_eq_head?, findAll_uriPort]
  rcases portOption_cases u (some receiver) with hnil | hone
  · obtain ⟨d, hd, hport⟩ := portOption_eq_nil.mp hnil
    cases hd
    simp [hnil, hport]
  · simp [hone, MessageOption.toUInt32?_ofUInt32]

/-- A receiver at the destination comes back to the host. -/
theorem sameHost_host? (u : Uri) (receiver : SocketAddress) :
    ∃ host, (u.options (some receiver)).host? receiver = some host ∧
      SameHost host u.host := by
  rw [Options.host?, Options.find?_eq_head?, findAll_uriHost]
  rcases hostOption_cases u (some receiver) with hnil | hone
  · obtain ⟨d, hd, hliteral⟩ := hostOption_eq_nil.mp hnil
    cases hd
    refine ⟨receiver.ip.text, by simp [hnil], .inr ⟨receiver.ip, ?_, hliteral⟩⟩
    exact IpAddress.ofText?_text receiver.ip
  · exact ⟨u.host, by simp [hone, MessageOption.toText?_ofText], .inl rfl⟩

/-- Nothing of a URI is lost by leaving out what the destination tells. The options
are those of the host, the port, the path and the query in this order, with the
texts of the URI. Host and port are left out exactly if they are the destination's,
and what is there reads back as what the URI has. So a receiver at the destination
comes back to host, port, path and query. A URI whose host is the text of an address
names this address with its port; and if the destination is the address that the URI
itself names, it is told neither host nor port. -/
theorem elision_loses_nothing (u : Uri) (destination : Option SocketAddress) :
    (u.options destination).toList =
        (u.options destination).findAll OptionNumber.uriHost ++
          (u.options destination).findAll OptionNumber.uriPort ++
          (u.options destination).findAll OptionNumber.uriPath ++
          (u.options destination).findAll OptionNumber.uriQuery ∧
      (u.options destination).path = u.path.map some ∧
      (u.options destination).query = u.query.map some ∧
      ((u.options destination).findAll OptionNumber.uriPort = [] ↔
        ∃ d, destination = some d ∧ d.port = u.port) ∧
      ((u.options destination).findAll OptionNumber.uriPort = [] ∨
        ∃ o, (u.options destination).findAll OptionNumber.uriPort = [o] ∧
          o.toUInt32? = some u.port.toUInt32) ∧
      ((u.options destination).findAll OptionNumber.uriHost = [] ↔
        ∃ d, destination = some d ∧ u.hostIp? = some d.ip) ∧
      ((u.options destination).findAll OptionNumber.uriHost = [] ∨
        ∃ o, (u.options destination).findAll OptionNumber.uriHost = [o] ∧
          o.toText? = some u.host) ∧
      (∀ receiver, destination = some receiver →
        (u.options destination).port? receiver = some u.port.toUInt32 ∧
          ∃ host, (u.options destination).host? receiver = some host ∧
            SameHost host u.host) ∧
      (∀ ip, u.hostIp? = some ip → u.address? = some (.ofIp ip u.port)) ∧
      (∀ d, u.address? = some d → destination = some d →
        (u.options destination).findAll OptionNumber.uriHost = [] ∧
          (u.options destination).findAll OptionNumber.uriPort = []) := by
  refine ⟨?_, path_options u destination, query_options u destination, ?_, ?_, ?_, ?_,
    ?_, ?_, ?_⟩
  · rw [findAll_uriHost, findAll_uriPort, findAll_uriPath, findAll_uriQuery]
    exact toList_options u destination
  · rw [findAll_uriPort]
    exact portOption_eq_nil
  · rw [findAll_uriPort]
    rcases portOption_cases u destination with hnil | hone
    · exact .inl hnil
    · exact .inr ⟨_, hone, MessageOption.toUInt32?_ofUInt32 _ _⟩
  · rw [findAll_uriHost]
    exact hostOption_eq_nil
  · rw [findAll_uriHost]
    rcases hostOption_cases u destination with hnil | hone
    · exact .inl hnil
    · exact .inr ⟨_, hone, MessageOption.toText?_ofText _ _⟩
  · rintro receiver rfl
    exact ⟨port?_options u receiver, sameHost_host? u receiver⟩
  · intro ip hip
    rw [address?, hip]
    rfl
  · rintro d haddress rfl
    obtain ⟨ip, hip, rfl⟩ := Option.map_eq_some_iff.mp haddress
    rw [findAll_uriHost, findAll_uriPort, hostOption_eq_nil, portOption_eq_nil]
    exact ⟨⟨_, rfl, hip⟩, ⟨_, rfl, rfl⟩⟩

end Uri

end Coap
