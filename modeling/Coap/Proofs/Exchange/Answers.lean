import Coap.Proofs.Codec.RoundTrip
import Coap.Proofs.Exchange.Network
import Coap.Proofs.Requests.Sending

/-!
# No answer is mistaken for another

When somebody on the client is told that a request was acknowledged or rejected,
the server has received this request and has sent an answer of this kind to it.
An acknowledgement that comes late or twice, or that answers another request,
acknowledges nothing: an answer has the id of the message that it answers, and
as long as there are not more requests than ids, this id belongs to one request.

## Main results

* `Exchange.answered_of_received` — an answer that the client receives was sent
  by the server, for a request that it had received before.
* `Exchange.answered_of_told` — the request whose ticket is told of an answer is
  the one that the server has received and answered.
-/

namespace Coap

/-! ## Requests and their answers -/

/-- The message that a request of the client is to send: it has the id that the
request took, and a token with the random word that it drew. -/
inductive Issued (history : List Happening) (place : Nat) (r : Request)
    (id : UInt16) : Message → Prop where
  | intro {u : Uri} {random : UInt32}
      (hstarted : ⟨.client, place, .started (.request r)⟩ ∈ history)
      (huri : Uri.ofText r.uri = .ok u)
      (hid : ⟨.client, place, .acted .updated (some id)⟩ ∈ history)
      (hrandom : ⟨.client, place, .acted (.drewWord random) none⟩ ∈ history) :
      Issued history place r id (r.message u id random)

/-- The server has, in this order, received a datagram that is read as a message,
been made to answer it, and sent the answer. -/
inductive Answered (history : List Happening) (m answer : Message) : Prop where
  | intro {receiver answerer transmitter : Nat} {datagram text : Bytes}
      {sender destination : SocketAddress} {ticket : Option Ticket}
      {result : Except TransportError Unit}
      (horder : List.Sublist
        [⟨.server, receiver,
            .acted (.received (.ok (some (datagram, sender)))) none⟩,
          ⟨.server, answerer, .started (.send destination answer ticket)⟩,
          ⟨.server, transmitter,
            .acted (.transmitted destination text result) none⟩] history)
      (hread : Message.read datagram = .ok m)
      (hanswer : AnswerTo m answer) (hencode : answer.encode = .ok text) :
      Answered history m answer

/-- What stands before the second of two dividers comes first. -/
theorem sublist_of_mem_of_dividers {α : Type} {x y z : α} {a b c : List α}
    (h : x ∈ a) : [x, y, z].Sublist (a ++ y :: b ++ z :: c) := by
  have hdivider (y : α) (l : List α) : [y].Sublist (y :: l) :=
    List.singleton_sublist.mpr List.mem_cons_self
  exact ((List.singleton_sublist.mpr h).append (hdivider y b)).append
    (hdivider z c)

section Messages

variable {history : List Happening} {place : Nat} {r : Request} {id : UInt16}
  {m answer : Message}

theorem Issued.mono {history' : List Happening} (h : Issued history place r id m)
    (hmore : ∀ x ∈ history, x ∈ history') : Issued history' place r id m := by
  cases h with
  | intro hstarted huri hid hrandom =>
      exact .intro (hmore _ hstarted) huri (hmore _ hid) (hmore _ hrandom)

theorem Issued.started (h : Issued history place r id m) :
    ⟨.client, place, .started (.request r)⟩ ∈ history := by
  cases h
  assumption

theorem Issued.took (h : Issued history place r id m) :
    ⟨.client, place, .acted .updated (some id)⟩ ∈ history := by
  cases h
  assumption

theorem Issued.id_eq (h : Issued history place r id m) : m.id = id := by
  cases h
  exact Message.id_new _ _ _ _ _ _

/-- A request is read from its bytes. -/
theorem Issued.read (h : Issued history place r id m) {datagram : Bytes}
    (hencode : m.encode = .ok datagram) (hlength : datagram.length < 4294967296) :
    Message.read datagram = .ok m := by
  cases h
  exact Message.read_of_encode_new hencode hlength

theorem AnswerTo.id_eq (h : AnswerTo m answer) : answer.id = m.id := by
  cases h <;> exact Message.id_new _ _ _ _ _ _

/-- An answer is read from its bytes. -/
theorem AnswerTo.read (h : AnswerTo m answer) {datagram : Bytes}
    (hencode : answer.encode = .ok datagram)
    (hlength : datagram.length < 4294967296) :
    Message.read datagram = .ok answer := by
  cases h <;> exact Message.read_of_encode_new hencode hlength

/-- Where a message came from does not matter for its answers. -/
theorem AnswerTo.of_withSender {sender : SocketAddress}
    (h : AnswerTo (m.withSender sender) answer) : AnswerTo m answer := by
  cases h with
  | ack token => exact .ack token
  | piggyback code options payload => exact .piggyback code options payload
  | reset => exact .reset

/-- The message in a reception was read from the datagram in it. -/
theorem Call.messageIn_eq_some {config : Config}
    {r : Except TransportError Reception} (h : Call.messageIn config r = some m) :
    ∃ datagram sender m', r = .ok (some (datagram, sender)) ∧
      Message.read datagram = .ok m' ∧ m = m'.withSender sender := by
  match r with
  | .error cause => cases h
  | .ok none => cases h
  | .ok (some (datagram, sender)) =>
      rw [Call.messageIn] at h
      split at h
      · unfold Endpoint.messageOf at h
        split at h
        · cases h
        · next m' hread =>
            split at h
            · cases h
              exact ⟨datagram, sender, m', rfl, hread, rfl⟩
            · cases h
      · cases h

end Messages

namespace Exchange

variable {config : Side → Config} {history : List Happening}
  {worlds : Side → World}

/-! ## What the sides send -/

/-- The client has nothing to send but its requests. -/
theorem issued_of_posted (h : Exchange config history worlds)
    {destination : SocketAddress} {m : Message} {ticket : Option Ticket}
    (hposted : Posted (deedsOf .client history) destination m ticket) :
    ∃ place r id, Issued history place r id m ∧ r.ticket = ticket := by
  obtain ⟨place, hposts⟩ := hposted
  cases hposts with
  | send hstarted =>
      obtain ⟨_, _, _, hmay, -⟩ := h.may_of_started (mem_deedsOf.mp hstarted)
      cases hmay
  | @request r u id random hstarted huri hid hrandom =>
      exact ⟨place, r, id, .intro (mem_deedsOf.mp hstarted) huri
        (mem_deedsOf.mp hid) (mem_deedsOf.mp hrandom), rfl⟩

/-- The server has nothing to send but answers to messages that it had received
when it was made to send them. -/
theorem answer_of_posted (h : Exchange config history worlds)
    {destination : SocketAddress} {answer : Message} {ticket : Option Ticket}
    (hposted : Posted (deedsOf .server history) destination answer ticket) :
    ∃ earlier later answerer receiver r m,
      history = earlier ++
        ⟨.server, answerer, .started (.send destination answer ticket)⟩ :: later ∧
      ⟨.server, receiver, .acted (.received r) none⟩ ∈ earlier ∧
      Call.messageIn (config .server) r = some m ∧ AnswerTo m answer ∧
      ∃ worlds₁, Exchange config earlier worlds₁ := by
  obtain ⟨place, hposts⟩ := hposted
  cases hposts with
  | send hstarted =>
      obtain ⟨earlier, later, hsplit, hmay, hearlier⟩ :=
        h.may_of_started (mem_deedsOf.mp hstarted)
      cases hmay with
      | answer _ _ hreceived hmessage hanswer =>
          exact ⟨earlier, later, place, _, _, _, hsplit, hreceived, hmessage,
            hanswer, hearlier⟩
  | request hstarted =>
      obtain ⟨_, _, _, hmay, -⟩ := h.may_of_started (mem_deedsOf.mp hstarted)
      cases hmay

/-! ## What the client learns -/

/-- An answer that the client receives was sent by the server, to a request that
the server had received. -/
theorem answered_of_received (h : Exchange config history worlds) {place : Nat}
    {r : Except TransportError Reception} {received : Message}
    (hreceived : ⟨.client, place, .acted (.received r) none⟩ ∈ history)
    (hmessage : Call.messageIn (config .client) r = some received) :
    ∃ answer sender, received = answer.withSender sender ∧
      ∃ requester request m, Issued history requester request answer.id m ∧
        Answered history m answer := by
  obtain ⟨text, sender, answer, rfl, hread, rfl⟩ :=
    Call.messageIn_eq_some hmessage
  refine ⟨answer, sender, rfl, ?_⟩
  -- the server was to send the answer
  obtain ⟨sent, sentLater, transmitter, destination, result, rfl,
    ⟨answer', ticket, hposted, hencode⟩, htext, worlds₁, hsent⟩ :=
    h.posted_of_received hreceived
  obtain ⟨told, toldLater, answerer, receiver, r', m', rfl, hreceived', hmessage',
    hanswer, worlds₂, htold⟩ := hsent.answer_of_posted hposted
  have hsame := hread.symm.trans (hanswer.read hencode htext)
  cases hsame
  -- the client was to send what the answer is for
  obtain ⟨datagram, sender', m, rfl, hread', rfl⟩ :=
    Call.messageIn_eq_some hmessage'
  obtain ⟨asked, askedLater, _, _, _, rfl, ⟨m', _, hposted', hencode'⟩, hdatagram,
    worlds₃, hasked⟩ := htold.posted_of_received hreceived'
  obtain ⟨requester, request, id, hissued, -⟩ := hasked.issued_of_posted hposted'
  have hsame' := hread'.symm.trans (hissued.read hencode' hdatagram)
  cases hsame'
  have hid : answer.id = id := hanswer.id_eq.trans hissued.id_eq
  rw [hid]
  refine ⟨requester, request, m, hissued.mono ?_, ?_⟩
  · intro x hx
    simp only [List.mem_append]
    exact .inl (.inl (.inl hx))
  · exact .intro (sublist_of_mem_of_dividers hreceived') hread'
      hanswer.of_withSender hencode

/-- Who is told on the client that a request was acknowledged or rejected is told
so of the request that brought the ticket, under the id that the request took.
The server had received this request before, and had sent an acknowledgement of it
or a rejection. There are at most as many requests as ids until then. -/
theorem answered_of_told {earlier later : List Happening} {teller place : Nat}
    {n : Notification} {r : Request}
    (h : Exchange config (earlier ++
      ⟨.client, teller, .acted (.told (.notified n)) none⟩ :: later) worlds)
    (hfew : (requests (deedsOf .client earlier)).length ≤ 65535)
    (hanswer : n.outcome = .acknowledged ∨ n.outcome = .rejected)
    (hstarted : ⟨.client, place, .started (.request r)⟩ ∈ earlier ++
      ⟨.client, teller, .acted (.told (.notified n)) none⟩ :: later)
    (hticket : r.ticket = some n.ticket) :
    ∃ m answer, Issued earlier place r n.id m ∧ Answered earlier m answer ∧
      (n.outcome = .acknowledged ∧ answer.type = .acknowledgement ∨
        n.outcome = .rejected ∧ answer.type = .reset) := by
  obtain ⟨worlds₁, w, hearlier, htold, -⟩ := h.split rfl
  obtain ⟨first, hclient⟩ := hearlier.chronicle .client
  obtain ⟨⟨destination, m₁, hposted, hid⟩, receiver, reception, received,
    hreceived, hanswerIn, hreceivedId, houtcome⟩ :=
    hclient.founded_of_told htold hanswer
  obtain ⟨hmessage, htype⟩ := Call.answerIn_eq_some hanswerIn
  -- the message of the ticket and the message that was answered have one id
  obtain ⟨place₁, r₁, id₁, hissued₁, hticket₁⟩ := hearlier.issued_of_posted hposted
  obtain ⟨answer, sender, rfl, place₂, r₂, m, hissued₂, hanswered⟩ :=
    hearlier.answered_of_received (mem_deedsOf.mp hreceived) hmessage
  have hid₁ : id₁ = n.id := hissued₁.id_eq.symm.trans hid
  have hid₂ : answer.id = n.id := hreceivedId
  rw [hid₁] at hissued₁
  rw [hid₂] at hissued₂
  -- so they belong to the same request
  have hplace₁₂ : place₁ = place₂ := hclient.place_eq_of_id hfew
    (mem_deedsOf.mpr hissued₁.took) (mem_deedsOf.mpr hissued₂.took)
  obtain ⟨first, hall⟩ := h.chronicle .client
  have hmore {p : Nat} {operation : Operation}
      (hmem : ⟨.client, p, .started operation⟩ ∈ earlier) :
      (p, .started operation) ∈ deedsOf .client (earlier ++
        ⟨.client, teller, .acted (.told (.notified n)) none⟩ :: later) :=
    mem_deedsOf.mpr (List.mem_append_left _ hmem)
  have hplace : place₁ = place := hall.place_eq_of_ticket
    (hmore hissued₁.started) (mem_deedsOf.mpr hstarted) hticket₁ hticket
  subst hplace₁₂ hplace
  have hrequest := hall.operation_unique (mem_deedsOf.mpr hstarted)
    (hmore hissued₂.started)
  cases hrequest
  refine ⟨m, answer, hissued₂, hanswered, ?_⟩
  rw [← houtcome]
  exact htype.imp And.symm And.symm

/-! ## A request that is acknowledged -/

/-- How the server acknowledges the sample request. -/
def sampleAnswer : Message := .ack .empty 1

/-- The datagram of the request, as it comes to the server. -/
def sampleRequested : Except TransportError Reception :=
  .ok (some (Request.sampleDatagram, Request.sample.destination))

/-- The datagram of the answer, as it comes to the client. -/
def sampleAnswered : Except TransportError Reception :=
  .ok (some ([0x60, 0, 0, 1], Request.sample.destination))

/-- What the ticket of the request is told. -/
def sampleNotification : Notification := ⟨7, 1, .acknowledged⟩

/-- The server receives the request. -/
theorem runs_sampleRequested : Operation.receive.call.Runs smallEndpoint
    (Call.wait sampleRequested) (smallEndpoint.afterWait sampleRequested)
    (some (.received
      (.ok (Call.messageIn smallEndpoint.config sampleRequested)))) := by
  have hfits : smallEndpoint.Fits smallEndpoint.config :=
    (@Endpoint.fits_new _ _ 0 rfl).1
  have hquiet : Call.answerIn smallEndpoint.config sampleRequested = none := by
    decide +kernel
  have hreceive : Call.receiveNext.Runs smallEndpoint (Call.wait sampleRequested)
      (smallEndpoint.afterWait sampleRequested)
      (some (.ok (Call.messageIn smallEndpoint.config sampleRequested))) := by
    refine (Call.runs_receiveNext_iff hfits).mpr ⟨sampleRequested, rfl, ?_⟩
    rw [hquiet]
    exact ⟨rfl, rfl⟩
  rw [← List.append_nil (Call.wait sampleRequested)]
  exact hreceive.bind (.done _ _)

/-- The server acknowledges it. -/
theorem runs_sampleAnswer :
    (Operation.send Request.sample.destination sampleAnswer none).call.Runs
      (smallEndpoint.afterWait sampleRequested)
      [.updated, .transmitted Request.sample.destination [0x60, 0, 0, 1] (.ok ())]
      ((smallEndpoint.afterWait sampleRequested).serialize sampleAnswer).1
      (some (.sent (.ok ()))) := by
  have hencode : sampleAnswer.encode = .ok [0x60, 0, 0, 1] := rfl
  have hroom :
      4 ≤ (smallEndpoint.afterWait sampleRequested).writeBuffer.capacity := by
    decide
  have hwritten := Endpoint.serialize_eq_ok_iff.mpr ⟨hencode, hroom⟩
  have hplain : sampleAnswer.isConfirmable = false := rfl
  have hsend : (Call.send Request.sample.destination sampleAnswer none).Runs
      (smallEndpoint.afterWait sampleRequested)
      [.updated, .transmitted Request.sample.destination [0x60, 0, 0, 1] (.ok ())]
      ((smallEndpoint.afterWait sampleRequested).serialize sampleAnswer).1
      (some (.ok ())) :=
    Call.runs_send_iff.mpr (.once Bool.false_ne_true hwritten
      (Bool.not_eq_true _ ▸ hplain))
  exact hsend.bind (.done _ _)

/-- The client receives the acknowledgement and tells so. -/
theorem runs_sampleAnswered (h : Request.sampleAfter.Fits smallEndpoint.config) :
    Operation.receive.call.Runs Request.sampleAfter
      (Call.wait sampleAnswered ++
        [.acquired .inFlight, .updated, .released .inFlight,
          .told (.notified sampleNotification)])
      ((Request.sampleAfter.afterWait sampleAnswered).dequeue 1).1
      (some (.received
        (.ok (Call.messageIn smallEndpoint.config sampleAnswered)))) := by
  have hanswer : Call.answerIn smallEndpoint.config sampleAnswered =
      some (sampleAnswer.withSender Request.sample.destination) := by
    decide +kernel
  have hreceive : Call.receiveNext.Runs Request.sampleAfter
      (Call.wait sampleAnswered ++
        [.acquired .inFlight, .updated, .released .inFlight,
          .told (.notified sampleNotification)])
      ((Request.sampleAfter.afterWait sampleAnswered).dequeue 1).1
      (some (.ok (Call.messageIn smallEndpoint.config sampleAnswered))) := by
    refine (Call.runs_receiveNext_iff h).mpr ⟨sampleAnswered, rfl, ?_⟩
    rw [hanswer]
    exact ⟨rfl, rfl⟩
  rw [← List.append_nil (Call.wait sampleAnswered ++ _)]
  exact hreceive.bind (.done _ _)

/-- The client sends a request, the server receives and acknowledges it, and the
client receives the acknowledgement. -/
theorem exists_sampleExchange : ∃ history worlds,
    Exchange (fun _ => smallEndpoint.config) history worlds ∧
      (requests (deedsOf .client history)).length ≤ 65535 ∧
      ⟨.client, 0, .started (.request .sample)⟩ ∈ history ∧
      ⟨.client, 1, .acted (.told (.notified sampleNotification)) none⟩ ∈
        history := by
  have hnew : Endpoint.new smallEndpoint.config 0 = .ok smallEndpoint := rfl
  have h : Exchange (fun _ => smallEndpoint.config) [] fun _ =>
      .start smallEndpoint := .start fun _ => hnew
  have hticket (operation : Operation) (hnone : operation.ticket = none)
      (w : World) : ∀ ticket ∈ w.issued, operation.ticket ≠ some ticket := by
    intro ticket _ hsome
    rw [hnone] at hsome
    cases hsome
  -- the client sends the request
  obtain ⟨_, requester, -, h, hasked, hacted⟩ := h.carryOut .client
    (.request .sample) rfl (.request _) (fun ticket hticket => by cases hticket)
    (Request.runs_sample.bind (.done _ _))
    (by simp [Locks, Action.Locks, Call.launch]) (by simp [Call.launch])
  have hsent := hacted (.transmitted Request.sample.destination
    Request.sampleDatagram (.ok ())) (by simp [Call.launch]) (by simp)
  -- the server receives it
  obtain ⟨_, receiver, hreceives, h, -, hacted⟩ := h.carryOut .server .receive rfl
    (.receive _) (hticket _ rfl _) runs_sampleRequested
    (by simp [Locks, Action.Locks, Call.wait, sampleRequested])
    (by
      intro datagram sender hmem
      cases Call.received_mem_wait_iff.mp hmem
      exact ⟨⟨_, _, _, hsent⟩, by decide⟩)
  have hheard := hacted (.received sampleRequested)
    (Call.received_mem_wait_iff.mpr rfl) (by simp)
  -- and acknowledges it
  have hmessage : Call.messageIn smallEndpoint.config sampleRequested =
      some (Request.sampleMessage.withSender Request.sample.destination) := by
    decide +kernel
  obtain ⟨_, answerer, hanswers, h, -, hacted⟩ := h.carryOut .server
    (.send Request.sample.destination sampleAnswer none) rfl
    (.answer _ _ hheard hmessage (.ack .empty)) (hticket _ rfl _) runs_sampleAnswer
    (by simp [Locks, Action.Locks]) (by simp)
  have hreplied := hacted (.transmitted Request.sample.destination [0x60, 0, 0, 1]
    (.ok ())) (by simp) (by simp)
  -- the client receives the acknowledgement
  obtain ⟨first, hclient⟩ := h.chronicle .client
  have hfits : Request.sampleAfter.Fits smallEndpoint.config :=
    hclient.fits.endpoint
  obtain ⟨history, reader, hreads, h, -, hacted⟩ := h.carryOut .client .receive
    rfl (.receive _) (hticket _ rfl _) (runs_sampleAnswered hfits)
    (by simp [Locks, Action.Locks, Call.wait, sampleAnswered])
    (by
      intro datagram sender hmem
      rcases List.mem_append.mp hmem with hwait | hend
      · cases Call.received_mem_wait_iff.mp hwait
        exact ⟨⟨_, _, _, hreplied⟩, by decide⟩
      · simp at hend)
  have htold := hacted (.told (.notified sampleNotification)) (by simp) (by simp)
  obtain ⟨first, hclient⟩ := h.chronicle .client
  have htwo : (requests (deedsOf .client history)).length ≤ 2 :=
    hclient.length_requests_le
  refine ⟨history, _, h, ?_, ?_, htold⟩
  · omega
  · exact hreads.subset (hanswers.subset (hreceives.subset hasked))

theorem answered_of_told_sample : ∃ earlier later worlds,
    Exchange (fun _ => smallEndpoint.config) (earlier ++
      ⟨.client, 1, .acted (.told (.notified sampleNotification)) none⟩ :: later)
        worlds ∧
      (requests (deedsOf .client earlier)).length ≤ 65535 ∧
      ⟨.client, 0, .started (.request .sample)⟩ ∈ earlier ++
        ⟨.client, 1, .acted (.told (.notified sampleNotification)) none⟩ :: later ∧
      ∃ m answer, Issued earlier 0 .sample 1 m ∧ Answered earlier m answer ∧
        answer.type = .acknowledgement := by
  obtain ⟨history, worlds, h, hfew, hstarted, htold⟩ := exists_sampleExchange
  obtain ⟨earlier, later, rfl⟩ := List.append_of_mem htold
  have hsub : (requests (deedsOf .client earlier)).Sublist
      (requests (deedsOf .client (earlier ++
        ⟨.client, 1, .acted (.told (.notified sampleNotification)) none⟩ ::
          later))) :=
    (((List.sublist_append_left _ _).filterMap _).filter _).map _
  have hfew := Nat.le_trans hsub.length_le hfew
  obtain ⟨m, answer, hissued, hanswered, ⟨-, htype⟩ | ⟨hrejected, -⟩⟩ :=
    answered_of_told h hfew (.inl rfl) hstarted rfl
  · exact ⟨earlier, later, worlds, h, hfew, hstarted, m, answer, hissued,
      hanswered, htype⟩
  · cases hrejected

end Exchange

end Coap
