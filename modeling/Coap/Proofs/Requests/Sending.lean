import Coap.Proofs.Codec.RoundTrip
import Coap.Proofs.Requests.Pieces
import Coap.Proofs.Runs.Turns

/-!
# What a request sends

A request that succeeds has put one datagram on the wire. That is the request
as it was asked for: whoever reads the datagram finds the method, the resource
and the payload in it, under the id that the caller is told and with a token
that starts with this id. Only a request that is to be acknowledged is kept for
sending it again.

The URI and the values of the further options have to be shorter than 2³²
bytes, as the length of an option is written as a 32-bit number.

## Main results

* `sends_as_asked` — what a successful request has sent and queued, and that a
  URI which cannot be read has no effect.
-/

namespace Coap

/-! ## Sending a message -/

/-- The random word that an action is, if it is one. -/
def Action.word? : Action → Option UInt32
  | drewWord word => some word
  | _ => none

/-- The random words that some actions drew. -/
def words (actions : List Action) : List UInt32 :=
  actions.filterMap Action.word?

namespace Call

variable {e e' : Endpoint} {actions : List Action} {destination : SocketAddress}
  {m : Message} {ticket : Option Ticket}

/-- A message that is sent with success is written in full and sent once, and
it is queued if it is to be acknowledged. -/
theorem Runs.send_of_ok
    (h : (send destination m ticket).Runs e actions e' (some (.ok ()))) :
    ∃ text, m.encode = .ok text ∧
      sendings actions = [⟨destination, text, .ok ()⟩] ∧ words actions = [] ∧
      if m.isConfirmable then
        ∃ now timeout,
          e.inFlight.add m.id destination text ticket now timeout =
            .ok e'.inFlight
      else e'.inFlight = e.inFlight := by
  generalize hvalue : some (Except.ok ()) = value at h
  cases runs_send_iff.mp h with
  | refused => cases hvalue
  | unwritten => cases hvalue
  | @once text result _ hwritten hconfirmable =>
      cases result with
      | error cause => cases hvalue
      | ok =>
          refine ⟨text, (Endpoint.serialize_eq_ok_iff.mp hwritten).1, rfl, rfl, ?_⟩
          rw [if_neg hconfirmable]
          rfl
  | tracked hwritten hconfirmable htracks =>
      refine ⟨_, (Endpoint.serialize_eq_ok_iff.mp hwritten).1, ?_⟩
      rw [if_pos hconfirmable]
      cases htracks with
      | endless => cases hvalue
      | taken => cases hvalue
      | stranded => cases hvalue
      | launched _ hadd => exact ⟨rfl, rfl, _, _, hadd⟩

end Call

/-! ## Requests -/

namespace Request

/-- A message is what a request asks for, under the given id and with the given
random word in its token. -/
structure Asks (r : Request) (u : Uri) (id : UInt16) (random : UInt32)
    (m : Message) : Prop where
  version : m.header.version = Header.version1
  type : m.type = if r.confirmable then .confirmable else .nonConfirmable
  /-- The code is 0.01 to 0.04. -/
  code : m.header.code = match r.method with
    | .get => ⟨0x01⟩
    | .post => ⟨0x02⟩
    | .put => ⟨0x03⟩
    | .delete => ⟨0x04⟩
  number : m.id = id
  token : m.token.bytes = Bytes.ofUInt16 id ++ Bytes.ofUInt32 random
  options : m.options = (u.options (some r.destination)).merge r.extra
  /-- There is none in a GET or a DELETE, and never an empty one. -/
  payload : ∀ p, m.payload = some p ↔
    (r.method = .post ∨ r.method = .put) ∧ r.payload = some p ∧ p ≠ []

variable {r : Request} {u : Uri}

/-- The payload that is sent with a request is the one that was asked for, if the method
has one. -/
theorem body_eq_some_iff {p : Bytes} :
    r.body = some p ↔ (r.method = .post ∨ r.method = .put) ∧ r.payload = some p := by
  unfold body
  cases r.method <;> simp

/-- A payload without bytes is as good as none. -/
theorem payload_message {id : UInt16} {random : UInt32} {p : Bytes} :
    (r.message u id random).payload = some p ↔ r.body = some p ∧ p ≠ [] := by
  have hpayload : (r.message u id random).payload = r.body.filter (!·.isEmpty) := rfl
  rw [hpayload, Option.filter_eq_some_iff, Bool.not_eq_true', List.isEmpty_eq_false_iff]

theorem asks_message (r : Request) (u : Uri) (id : UInt16) (random : UInt32) :
    r.Asks u id random (r.message u id random) where
  version := by
    rw [message, Message.new, Header.version_ofFields]
    rfl
  type := Message.type_new _ _ _ _ _ _
  code := by
    have hcode : (r.message u id random).header.code = r.method.code :=
      Header.code_ofFields _ _ _ _ _
    rw [hcode]
    cases r.method <;> rfl
  number := Message.id_new _ _ _ _ _ _
  token := by
    have hid : UInt16.ofNat id.toUInt32.toNat = id := by
      rw [UInt16.toNat_toUInt32, UInt16.ofNat_toNat]
    simp only [message, Message.new, Endpoint.tokenFor, Token.generate,
      PrefixWidth.bytes, hid]
  options := rfl
  payload p := by
    rw [payload_message, body_eq_some_iff, and_assoc]

/-- The message of a request is well-formed if its texts and values are not
too long. -/
theorem wellFormed_message (hu : Uri.ofText r.uri = .ok u)
    (huri : (Bytes.ofText r.uri).length < 4294967296)
    (hextra : ∀ o ∈ r.extra.toList, o.value.length < 4294967296)
    (id : UInt16) (random : UInt32) : (r.message u id random).WellFormed := by
  refine Message.wellFormed_new _ _ _ _ _ ?_
  intro o ho
  rcases Options.mem_merge.mp ho with ho | ho
  · have hle := Uri.length_value_options_le hu ho
    omega
  · exact hextra o ho

end Request

namespace Call

variable {e e' : Endpoint} {actions : List Action} {r : Request}

/-- A request with a URI that cannot be read is over at once. -/
theorem runs_request_of_error {err : UriError} (h : Uri.ofText r.uri = .error err)
    {value : Option (Except SendError UInt16)} :
    (request r).Runs e actions e' value ↔
      actions = [] ∧ e' = e ∧ value = some (.error (.uri err)) := by
  rw [request, h]
  exact runs_done_iff

/-- A request that succeeds took the next id, drew a random word, and sent its
message. -/
theorem Runs.request_of_ok {id : UInt16}
    (h : (request r).Runs e actions e' (some (.ok id))) :
    ∃ u random rest, Uri.ofText r.uri = .ok u ∧ id = e.takeId.2 ∧
      actions = .updated :: .drewWord random :: rest ∧
      (send r.destination (r.message u id random) r.ticket).Runs e.takeId.1 rest
        e' (some (.ok ())) := by
  rw [request] at h
  cases hu : Uri.ofText r.uri with
  | error err =>
      rw [hu] at h
      cases (runs_done_iff.mp h).2.2
  | ok u =>
      rw [hu] at h
      rw [runs_perform_iff] at h
      obtain ⟨_, rfl, h⟩ := h
      rw [runs_word_iff] at h
      obtain ⟨random, _, rfl, h⟩ := h
      rcases runs_bind_iff.mp h with
        ⟨first, others, e₁, sent, rfl, hsend, hdone⟩ | ⟨⟨⟩, -⟩
      obtain ⟨rfl, rfl, hvalue⟩ := runs_done_iff.mp hdone
      cases sent with
      | error err => cases hvalue
      | ok =>
          cases hvalue
          exact ⟨u, random, _, rfl, rfl, by rw [List.append_nil], hsend⟩

end Call

/-- A request that succeeds has sent one datagram, to its destination, and that
is read as what was asked for; it is in flight, after all others, if it is to be
acknowledged. A request whose URI cannot be read changes nothing. -/
theorem Request.sends_as_asked (e : Endpoint) (r : Request)
    (huri : (Bytes.ofText r.uri).length < 4294967296)
    (hextra : ∀ o ∈ r.extra.toList, o.value.length < 4294967296) :
    (∀ actions e' id, (Call.request r).Runs e actions e' (some (.ok id)) →
      id ≠ 0 ∧ ∃ u random datagram m,
        Uri.ofText r.uri = .ok u ∧ words actions = [random] ∧
        sendings actions = [⟨r.destination, datagram, .ok ()⟩] ∧
        Message.read datagram = .ok m ∧ r.Asks u id random m ∧
        if r.confirmable then
          ∃ now timeout, e'.inFlight.toList = e.inFlight.toList ++
              [.new id r.destination datagram r.ticket now timeout] ∧
            e.inFlight.add id r.destination datagram r.ticket now timeout =
              .ok e'.inFlight
        else e'.inFlight = e.inFlight) ∧
    ∀ err, Uri.ofText r.uri = .error err → ∀ actions e' value,
      (Call.request r).Runs e actions e' value ↔
        actions = [] ∧ e' = e ∧ value = some (.error (.uri err)) := by
  refine ⟨?_, fun err herr actions e' value => Call.runs_request_of_error herr⟩
  intro actions e' id h
  obtain ⟨u, random, rest, hu, rfl, rfl, hsend⟩ := h.request_of_ok
  refine ⟨e.takeId_ne_zero, ?_⟩
  generalize e.takeId.2 = id at hsend
  have hasks := asks_message r u id random
  obtain ⟨datagram, hencode, hsent, hwords, hqueue⟩ := hsend.send_of_ok
  have hread := Message.read_of_encode
    (wellFormed_message hu huri hextra id random) hencode
  refine ⟨u, random, datagram, _, hu, ?_, hsent, hread, hasks, ?_⟩
  · exact congrArg (random :: ·) hwords
  · have hid : (r.message u id random).id = id := hasks.number
    have htype : (r.message u id random).isConfirmable = r.confirmable := by
      rw [Message.isConfirmable, hasks.type]
      cases r.confirmable <;> rfl
    rw [htype, hid, e.inFlight_takeId] at hqueue
    split at hqueue
    · next hconfirmable =>
        rw [if_pos hconfirmable]
        obtain ⟨now, timeout, hadd⟩ := hqueue
        exact ⟨now, timeout, InFlight.toList_add hadd, hadd⟩
    · next hconfirmable =>
        rw [if_neg hconfirmable]
        exact hqueue

/-- A request for a resource at the address that its URI names, with one more
segment of the path among the further options and two bytes as its payload. -/
def Request.sample : Request where
  method := .post
  destination := .ofIp (.v4 ⟨127, 0, 0, 1⟩) 5683
  confirmable := true
  uri := "coap://127.0.0.1/a"
  extra := .ofList [⟨11, [98]⟩]
  payload := some [104, 105]
  ticket := some 7

/-- An endpoint with room for one small message. -/
def smallEndpoint : Endpoint where
  config := ⟨64, 64, .ofNanos 1000000000, .ofNanos 1000000000,
    ⟨.ofNanos 2000000000, 1.5, 4⟩⟩
  counter := 0
  inFlight := .empty
  readBuffer := .new 65
  writeBuffer := .new 64

/-- What the request sends: it has the id 1 and the random word 0x0A0B0C0D. -/
def Request.sampleDatagram : Bytes :=
  [0x46, 2, 0, 1, 0, 1, 0x0A, 0x0B, 0x0C, 0x0D, 0xB1, 97, 1, 98, 0xFF, 104, 105]

/-- The endpoint when the request is over. -/
def Request.sampleAfter : Endpoint :=
  { smallEndpoint with
    counter := 2
    inFlight := ⟨[(0, .new 1 sample.destination sampleDatagram sample.ticket ⟨0⟩
      (.ofNanos 2000000000))], [(1, 0)], 1⟩
    writeBuffer := ⟨sampleDatagram ++ List.replicate 47 0, 17, by decide⟩ }

/-- The message of the request. -/
def Request.sampleMessage : Message :=
  .confirmable ⟨2⟩ 1 ⟨[0, 1, 0x0A, 0x0B, 0x0C, 0x0D], by decide⟩
    (.ofList [⟨11, [97]⟩, ⟨11, [98]⟩]) (some [104, 105])

theorem Request.runs_sample :
    (Call.request sample).Runs smallEndpoint
      ([.updated, .drewWord 0x0A0B0C0D, .updated] ++
        Call.launch 0.0 ⟨0⟩ sample.destination sampleDatagram (.ok ()))
      sampleAfter (some (.ok 1)) := by
  have huri : Uri.ofText sample.uri =
      .ok ⟨false, "127.0.0.1", 5683, ["a"], []⟩ := by decide +kernel
  have hmessage : sample.message ⟨false, "127.0.0.1", 5683, ["a"], []⟩ 1
      0x0A0B0C0D = sampleMessage := by decide +kernel
  have htimeout : smallEndpoint.config.transmission.initialTimeout? 0.0 =
      some (.ofNanos 2000000000) := by decide +kernel
  rw [Call.request, huri]
  refine .step (.update _ _ _) (.step (.askWord _ _ _) ?_)
  change Call.Runs _ (Call.send sample.destination
    (sample.message ⟨false, "127.0.0.1", 5683, ["a"], []⟩ 1 0x0A0B0C0D)
      sample.ticket >>= fun sent => .done (sent.map fun _ => 1)) _ _ _
  rw [hmessage]
  have hsend : (Call.send sample.destination sampleMessage sample.ticket).Runs
      { smallEndpoint with counter := 2 }
      (.updated ::
        Call.launch 0.0 ⟨0⟩ sample.destination sampleDatagram (.ok ()))
      sampleAfter (some (.ok ())) := by
    have hwritten : ({ smallEndpoint with counter := 2 } : Endpoint).serialize
        sampleMessage =
          ({ sampleAfter with inFlight := .empty }, .ok sampleDatagram) := rfl
    exact Call.runs_send_iff.mpr
      (.tracked (congrArg Prod.snd hwritten) rfl (.launched htimeout rfl))
  exact hsend.bind (.done _ _)

/-- The sample has sent its two bytes in a POST, and is in flight. -/
theorem Request.sends_as_asked_sample :
    (Bytes.ofText sample.uri).length < 4294967296 ∧
      (∀ o ∈ sample.extra.toList, o.value.length < 4294967296) ∧
      (Call.request sample).Runs smallEndpoint
        ([.updated, .drewWord 0x0A0B0C0D, .updated] ++
          Call.launch 0.0 ⟨0⟩ sample.destination sampleDatagram (.ok ()))
        sampleAfter (some (.ok 1)) ∧
      ∃ u m, Uri.ofText sample.uri = .ok u ∧
        Message.read sampleDatagram = .ok m ∧
        sample.Asks u 1 0x0A0B0C0D m ∧
        m.header.code = ⟨0x02⟩ ∧ m.payload = some [104, 105] ∧
        ∃ now timeout, sampleAfter.inFlight.toList =
          [.new 1 sample.destination sampleDatagram sample.ticket now timeout] := by
  have huri : (Bytes.ofText sample.uri).length < 4294967296 := by decide +kernel
  have hextra : ∀ o ∈ sample.extra.toList, o.value.length < 4294967296 := by
    decide
  refine ⟨huri, hextra, runs_sample, ?_⟩
  obtain ⟨-, u, random, datagram, m, hu, hwords, hsent, hread, hasks, hqueue⟩ :=
    (sends_as_asked smallEndpoint sample huri hextra).1 _ _ _ runs_sample
  have hword : 0x0A0B0C0D = random := (List.cons.inj hwords).1
  have hdatagram : sampleDatagram = datagram :=
    congrArg Sending.datagram (List.cons.inj hsent).1
  have hconfirmable : sample.confirmable = true := rfl
  subst hword hdatagram
  rw [if_pos hconfirmable] at hqueue
  obtain ⟨now, timeout, hlist, -⟩ := hqueue
  have hpayload : m.payload = some [104, 105] :=
    (hasks.payload _).mpr ⟨.inl rfl, rfl, by decide⟩
  exact ⟨u, m, hu, hread, hasks, hasks.code, hpayload, now, timeout, hlist⟩

end Coap
