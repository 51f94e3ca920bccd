import Coap.Proofs.Runs.Chronicle
import Coap.Proofs.Runs.Turns

/-!
# Where datagrams and outcomes come from

Whatever runs side by side on an endpoint, it makes nothing up. Every datagram
that it sends, for the first time or again, is a message that some thread was
started to send, in its only form. Nobody is told that a message was acknowledged
or rejected unless a thread was started to send it for the holder of the ticket,
and an answer with its id was received.

`Call.Obeys` says of a call that it makes nothing up, as long as it finds only
messages in flight that were posted. It is about one chronicle, which tells what
the call may rely on, and to which each of its own actions has to belong.

## Main results

* `Obeys.bind`, `Obeys.step` — calls that are put together make nothing up if
  their parts do not, and neither does any action of theirs.
* `Operation.obeys` — no operation makes anything up.
* `Chronicle.posted_of_transmitted`, `Chronicle.founded_of_told` — what is sent
  and told in a chronicle comes from what has happened before.
-/

namespace Coap

/-! ## Messages that are posted -/

/-- By what has happened, the thread at a place is to send a message: it was
started with the message, or with a request that the message is for, under an id
that it took and with a random word that it drew. -/
inductive Posts (history : List (Nat × Deed)) (place : Nat) :
    SocketAddress → Message → Option Ticket → Prop where
  | send {destination : SocketAddress} {m : Message} {ticket : Option Ticket}
      (h : (place, .started (.send destination m ticket)) ∈ history) :
      Posts history place destination m ticket
  | request {r : Request} {u : Uri} {id : UInt16} {random : UInt32}
      (h : (place, .started (.request r)) ∈ history)
      (huri : Uri.ofText r.uri = .ok u)
      (hid : (place, .acted .updated (some id)) ∈ history)
      (hrandom : (place, .acted (.drewWord random) none) ∈ history) :
      Posts history place r.destination (r.message u id random) r.ticket

/-- Some thread is to send a message. -/
def Posted (history : List (Nat × Deed)) (destination : SocketAddress)
    (m : Message) (ticket : Option Ticket) : Prop :=
  ∃ place, Posts history place destination m ticket

/-- A datagram is that of a message that some thread is to send. -/
def PostedAs (history : List (Nat × Deed)) (destination : SocketAddress)
    (datagram : Bytes) : Prop :=
  ∃ m ticket, Posted history destination m ticket ∧ m.encode = .ok datagram

/-- An entry is that of a message that some thread is to send. -/
def Entry.Posted (history : List (Nat × Deed)) (entry : Entry) : Prop :=
  ∃ m, Coap.Posted history entry.destination m entry.ticket ∧
    m.encode = .ok entry.message ∧ m.id = entry.id

/-- The peer has decided how a message ended. -/
def Outcome.IsAnswer (outcome : Outcome) : Prop :=
  outcome = .acknowledged ∨ outcome = .rejected

theorem Outcome.not_isAnswer_failed (cause : TransportError) :
    ¬IsAnswer (.failed cause) := by
  rintro (hanswer | hanswer) <;> cases hanswer

theorem Outcome.not_isAnswer_retriesExhausted : ¬IsAnswer .retriesExhausted := by
  rintro (hanswer | hanswer) <;> cases hanswer

/-- If a notification is that of an answer, then its message was to be sent for
the holder of its ticket, and such an answer was received. -/
def Notification.Founded (config : Config) (history : List (Nat × Deed))
    (n : Notification) : Prop :=
  n.outcome.IsAnswer →
    (∃ destination m, Posted history destination m (some n.ticket) ∧
      m.id = n.id) ∧
    ∃ place r answer, (place, .acted (.received r) none) ∈ history ∧
      Call.answerIn config r = some answer ∧ answer.id = n.id ∧
      Endpoint.outcomeOf answer = n.outcome

/-- A fit endpoint, with nothing in flight but messages that were posted. -/
structure Endpoint.Honest (config : Config) (history : List (Nat × Deed))
    (e : Endpoint) : Prop where
  fits : e.Fits config
  posted : ∀ p ∈ e.inFlight.entries, p.2.Posted history

section Endpoints

variable {config : Config} {history : List (Nat × Deed)} {e : Endpoint}

theorem Entry.Posted.postedAs {entry : Entry} (h : entry.Posted history) :
    PostedAs history entry.destination entry.message := by
  obtain ⟨m, hposted, hencode, -⟩ := h
  exact ⟨m, _, hposted, hencode⟩

/-- The notification that an entry was answered is founded if an answer to it was
received. -/
theorem Entry.Posted.founded {entry : Entry} (h : entry.Posted history)
    {place : Nat} {r : Except TransportError Reception} {answer : Message}
    (hreceived : (place, .acted (.received r) none) ∈ history)
    (hanswer : Call.answerIn config r = some answer) (hid : entry.id = answer.id)
    {n : Notification}
    (hn : entry.notify (Endpoint.outcomeOf answer) = some n) :
    n.Founded config history := by
  obtain ⟨m, hposted, -, hm⟩ := h
  obtain ⟨ticket, hticket, rfl⟩ := Option.map_eq_some_iff.mp hn
  rw [hticket] at hposted
  intro _
  exact ⟨⟨_, m, hposted, hm⟩, place, r, answer, hreceived, hanswer, hid.symm, rfl⟩

theorem Entry.founded_of_not_isAnswer {entry : Entry} {outcome : Outcome}
    (h : ¬outcome.IsAnswer) {n : Notification}
    (hn : entry.notify outcome = some n) : n.Founded config history := by
  obtain ⟨ticket, -, rfl⟩ := Option.map_eq_some_iff.mp hn
  intro hanswer
  exact absurd hanswer h

namespace Endpoint.Honest

variable (he : e.Honest config history)

include he

theorem of_inFlight {e' : Endpoint} (hfits : e'.Fits config)
    (h : e'.inFlight = e.inFlight) : e'.Honest config history := by
  refine ⟨hfits, ?_⟩
  rw [h]
  exact he.posted

/-- What is found in flight was posted. -/
theorem of_get? {id : UInt16} {entry : Entry}
    (h : e.inFlight.get? id = some entry) :
    entry.Posted history ∧ entry.id = id := by
  obtain ⟨seq, hmem, hid⟩ := he.fits.sound.get?_eq_some_iff.mp h
  exact ⟨he.posted _ hmem, hid⟩

theorem dequeue (id : UInt16) : (e.dequeue id).1.Honest config history := by
  refine ⟨he.fits.dequeue id, ?_⟩
  intro p hp
  exact he.posted p (he.fits.sound.mem_remove.mp hp).1

theorem noteRetransmission (id : UInt16) (now : Instant) :
    (e.noteRetransmission id now).Honest config history := by
  refine ⟨he.fits.noteRetransmission id now, ?_⟩
  rintro ⟨seq, entry⟩ hp
  obtain ⟨entry', hmem, rfl⟩ := he.fits.sound.mem_update.mp hp
  have hposted := he.posted _ hmem
  by_cases hid : entry'.id = id
  · rw [if_pos hid]
    exact hposted
  · rw [if_neg hid]
    exact hposted

theorem enqueue {destination : SocketAddress} {m : Message} {datagram : Bytes}
    {ticket : Option Ticket} (hposted : Posted history destination m ticket)
    (hencode : m.encode = .ok datagram) (now : Instant) (timeout : Duration) :
    (e.enqueue m.id destination datagram ticket now timeout).1.Honest config
      history := by
  refine ⟨he.fits.enqueue _ _ _ _ _ _, ?_⟩
  cases hadd : e.inFlight.add m.id destination datagram ticket now timeout with
  | error err =>
      simp only [Endpoint.enqueue, hadd]
      exact he.posted
  | ok q =>
      simp only [Endpoint.enqueue, hadd, (InFlight.entries_add hadd).1]
      intro p hp
      rcases List.mem_append.mp hp with hold | hnew
      · exact he.posted p hold
      · cases List.mem_singleton.mp hnew
        exact ⟨m, hposted, hencode, rfl⟩

end Endpoint.Honest

end Endpoints

/-! ## Calls that make nothing up -/

namespace Call

variable {α β : Type}

/-- As long as its actions are told in the chronicle, with its place, the call
makes nothing up, and its value is as `post` says. -/
def Obeys (config : Config) (history : List (Nat × Deed)) (place : Nat) :
    Call α → (α → Prop) → Prop
  | done a, post => post a
  | fault, _ => True
  | update change next, post => ∀ e : Endpoint, e.Honest config history →
      (place, .acted .updated (e.issued? (change e))) ∈ history →
      (change e).Honest config history ∧
        (next e).Obeys config history place post
  | askTime next, post => ∀ t, (next t).Obeys config history place post
  | askWord next, post => ∀ word,
      (place, .acted (.drewWord word) none) ∈ history →
      (next word).Obeys config history place post
  | askFraction next, post =>
      ∀ fraction, (next fraction).Obeys config history place post
  | tell event next, post =>
      (∀ n ∈ notifications event, n.Founded config history) ∧
        next.Obeys config history place post
  | acquire _ next, post => next.Obeys config history place post
  | release _ next, post => next.Obeys config history place post
  | transmit destination datagram next, post =>
      PostedAs history destination datagram ∧
        ∀ result, (next result).Obeys config history place post
  | receive next, post => ∀ r,
      (place, .acted (.received r) none) ∈ history →
      (next r).Obeys config history place post

variable {config : Config} {history : List (Nat × Deed)} {place : Nat}

section Rules

variable {post : α → Prop}

theorem Obeys.bind {c : Call α} {f : α → Call β} {post' : β → Prop}
    (h : c.Obeys config history place fun a =>
      (f a).Obeys config history place post') :
    (c >>= f).Obeys config history place post' := by
  change (c.bind f).Obeys config history place post'
  induction c with
  | done a => exact h
  | fault => exact trivial
  | update change next ih =>
      intro e he hupdated
      obtain ⟨hchange, hnext⟩ := h e he hupdated
      exact ⟨hchange, ih e hnext⟩
  | askTime next ih | askFraction next ih =>
      intro x
      exact ih x (h x)
  | askWord next ih | receive next ih =>
      intro x hx
      exact ih x (h x hx)
  | tell event next ih => exact ⟨h.1, ih h.2⟩
  | acquire lock next ih | release lock next ih => exact ih h
  | transmit destination datagram next ih =>
      refine ⟨h.1, ?_⟩
      intro result
      exact ih result (h.2 result)

/-- An action that is told in the chronicle leaves things as they should be. -/
theorem Obeys.step {c c' : Call α} {e e' : Endpoint} {action : Action}
    (h : c.Obeys config history place post) (he : e.Honest config history)
    (hstep : c.Step e action e' c')
    (htold : (place, .acted action (e.issued? e')) ∈ history) :
    e'.Honest config history ∧ c'.Obeys config history place post := by
  have hnone : e.issued? e = none := Endpoint.issued?_of_counter_eq rfl
  cases hstep with
  | update change next => exact h e he htold
  | askTime next t => exact ⟨he, h t⟩
  | askWord next word => exact ⟨he, h word (hnone ▸ htold)⟩
  | askFraction next fraction => exact ⟨he, h fraction⟩
  | tell event => exact ⟨he, h.2⟩
  | acquire lock => exact ⟨he, h⟩
  | release lock => exact ⟨he, h⟩
  | transmit destination datagram next result => exact ⟨he, h.2 result⟩
  | receive next r => exact ⟨he, h r (hnone ▸ htold)⟩

theorem Obeys.postedAs {c c' : Call α} {e e' : Endpoint}
    {destination : SocketAddress} {datagram : Bytes}
    {result : Except TransportError Unit}
    (h : c.Obeys config history place post)
    (hstep : c.Step e (.transmitted destination datagram result) e' c') :
    PostedAs history destination datagram := by
  cases hstep
  exact h.1

theorem Obeys.founded {c c' : Call α} {e e' : Endpoint} {n : Notification}
    (h : c.Obeys config history place post)
    (hstep : c.Step e (.told (.notified n)) e' c') :
    n.Founded config history := by
  cases hstep
  exact h.1 n (List.mem_singleton_self n)

/-! ## Actions -/

theorem obeys_perform {step : Endpoint → Endpoint × α}
    (h : ∀ e, e.Honest config history →
      (place, .acted .updated (e.issued? (step e).1)) ∈ history →
      (step e).1.Honest config history ∧ post (step e).2) :
    (perform step).Obeys config history place post :=
  h

theorem obeys_endpoint {post : Endpoint → Prop}
    (h : ∀ e, e.Honest config history → post e) :
    endpoint.Obeys config history place post := by
  intro e he _
  exact ⟨he, h e he⟩

theorem obeys_ofOption {o : Option α} (h : ∀ a, post a) :
    (ofOption o).Obeys config history place post := by
  cases o with
  | none => exact trivial
  | some a => exact h a

theorem obeys_locked {lock : Lock} {c : Call α}
    (h : c.Obeys config history place post) :
    (locked lock c).Obeys config history place post :=
  Obeys.bind h

end Rules

theorem obeys_notify {n : Option Notification} {post : Unit → Prop}
    (hn : ∀ n', n = some n' → n'.Founded config history) (h : post ()) :
    (notify n).Obeys config history place post := by
  cases n with
  | none => exact h
  | some n => 
      refine ⟨?_, h⟩
      intro n' hmem
      cases List.mem_singleton.mp hmem
      exact hn n rfl

theorem obeys_notifyAll {l : List Notification} {post : Unit → Prop}
    (hl : ∀ n ∈ l, n.Founded config history) (h : post ()) :
    (notifyAll l).Obeys config history place post := by
  induction l with
  | nil => exact h
  | cons n rest ih =>
      obtain ⟨hfirst, hrest⟩ := List.forall_mem_cons.mp hl
      refine ⟨?_, ih hrest⟩
      intro n' hmem
      cases List.mem_singleton.mp hmem
      exact hfirst

/-- What is taken out of flight was posted. -/
theorem obeys_dequeue {id : UInt16} {post : Option Entry → Prop}
    (hnone : post none)
    (hsome : ∀ entry, entry.Posted history → entry.id = id → post (some entry)) :
    (perform (·.dequeue id)).Obeys config history place post := by
  refine obeys_perform ?_
  intro e he _
  refine ⟨he.dequeue id, ?_⟩
  have hentry : (e.dequeue id).2 = e.inFlight.get? id := InFlight.fst_remove _ _
  rw [hentry]
  cases hfound : e.inFlight.get? id with
  | none => exact hnone
  | some entry =>
      obtain ⟨hposted, hid⟩ := he.of_get? hfound
      exact hsome entry hposted hid

/-! ## Scans -/

/-- No message in the list was ended by the peer. -/
def Unanswered (l : List Finished) : Prop := ∀ p ∈ l, ¬p.2.IsAnswer

theorem obeys_finish {id : UInt16} {outcome : Outcome}
    (houtcome : ¬outcome.IsAnswer) {post : List Finished → Prop}
    (h : ∀ l, Unanswered l → post l) :
    (finish id outcome).Obeys config history place post := by
  have hnil : Unanswered [] := fun p hp => by cases hp
  refine Obeys.bind (obeys_dequeue (h [] hnil) ?_)
  intro entry _ _
  refine h _ ?_
  intro p hp
  cases List.mem_singleton.mp hp
  exact houtcome

theorem obeys_retry {now : Instant} {entry : Entry}
    (hentry : entry.Posted history) {post : List Finished → Prop}
    (h : ∀ l, Unanswered l → post l) :
    (retry now entry).Obeys config history place post := by
  refine Obeys.bind (obeys_endpoint ?_)
  intro e _
  split
  · exact obeys_finish Outcome.not_isAnswer_retriesExhausted h
  · refine Obeys.bind ⟨hentry.postedAs, ?_⟩
    intro result
    cases result with
    | error cause => exact obeys_finish (Outcome.not_isAnswer_failed cause) h
    | ok =>
        intro e he _
        exact ⟨he.noteRetransmission _ _, h [] fun p hp => by cases hp⟩

theorem obeys_scan {now : Instant} {ids : List UInt16}
    {post : List Finished → Prop} (h : ∀ l, Unanswered l → post l) :
    (scan now ids).Obeys config history place post := by
  induction ids generalizing post with
  | nil => exact h [] fun p hp => by cases hp
  | cons id rest ih =>
      have hothers (first : List Finished) (hfirst : Unanswered first) :
          (scan now rest >>= fun others => pure (first ++ others)).Obeys config
            history place post := by
        refine Obeys.bind (ih ?_)
        intro others hrest
        exact h _ (List.forall_mem_append.mpr ⟨hfirst, hrest⟩)
      refine Obeys.bind (obeys_endpoint ?_)
      intro e he
      split
      · next entry hfound =>
          exact Obeys.bind (obeys_retry (he.of_get? hfound).1 hothers)
      · exact hothers [] fun p hp => by cases hp

theorem obeys_checkQueues {post : Unit → Prop} (h : post ()) :
    checkQueues.Obeys config history place post := by
  refine Obeys.bind (obeys_locked (Obeys.bind ?_))
  intro now
  refine Obeys.bind (obeys_endpoint ?_)
  intro e _
  refine Obeys.bind (obeys_ofOption ?_)
  intro due
  refine obeys_scan ?_
  intro finished hfinished
  refine obeys_notifyAll ?_ h
  intro n hn
  obtain ⟨⟨entry, outcome⟩, hmem, hnotify⟩ := List.mem_filterMap.mp hn
  exact entry.founded_of_not_isAnswer (hfinished _ hmem) hnotify

/-! ## Receiving -/

theorem obeys_settle {r : Except TransportError Reception} {answer : Message}
    (hreceived : (place, .acted (.received r) none) ∈ history)
    (hanswer : answerIn config r = some answer) {post : Unit → Prop}
    (h : post ()) : (settle answer).Obeys config history place post := by
  refine Obeys.bind (obeys_locked (obeys_dequeue ?_ ?_))
  · exact h
  · intro entry hposted hid
    refine obeys_notify ?_ h
    intro n hn
    exact hposted.founded hreceived hanswer hid hn

/-- The message that a wait ends with was received. -/
theorem obeys_receiveMessage
    {post : Except TransportError (Option Message) → Prop}
    (herror : ∀ cause, post (.error cause)) (hnone : post (.ok none))
    (hsome : ∀ r m, (place, .acted (.received r) none) ∈ history →
      messageIn config r = some m → post (.ok (some m))) :
    receiveMessage.Obeys config history place post := by
  refine obeys_locked (Obeys.bind (obeys_perform ?_))
  intro opened hopened _
  refine ⟨hopened.of_inFlight hopened.fits.openReadBuffer rfl, Obeys.bind ?_⟩
  intro r hreceived
  match r with
  | .error cause => exact herror cause
  | .ok none => exact hnone
  | .ok (some (datagram, sender)) =>
      refine Obeys.bind (obeys_perform ?_)
      intro e he _
      refine ⟨he.of_inFlight (he.fits.accept _ datagram sender) rfl, ?_⟩
      rw [message_accept hopened.fits he.fits]
      cases hmessage : messageIn config (.ok (some (datagram, sender))) with
      | none => exact hnone
      | some m => exact hsome _ m hreceived hmessage

theorem obeys_receiveNext
    {post : Except TransportError (Option Message) → Prop} (h : ∀ a, post a) :
    receiveNext.Obeys config history place post := by
  refine Obeys.bind (obeys_receiveMessage (fun _ => h _) (h _) ?_)
  intro r m hreceived hmessage
  dsimp only
  split
  · next hanswers =>
      have hanswer : answerIn config r = some m := by
        rw [answerIn, hmessage, Option.filter_some, if_pos hanswers]
      exact Obeys.bind (obeys_settle hreceived hanswer (h _))
  · exact h _

theorem obeys_poll {post : Except TransportError (Option Message) → Prop}
    (h : ∀ a, post a) : poll.Obeys config history place post := by
  refine Obeys.bind (obeys_receiveNext ?_)
  intro received
  exact Obeys.bind (obeys_checkQueues (h received))

/-! ## Sending -/

section Sending

variable {destination : SocketAddress} {m : Message} {ticket : Option Ticket}

theorem obeys_giveUp {id : UInt16} {cause : TransportError}
    {post : Except SendError Unit → Prop} (h : ∀ a, post a) :
    (giveUp id cause).Obeys config history place post := by
  refine Obeys.bind (obeys_locked (obeys_dequeue ?_ ?_))
  · exact h _
  · intro entry _ _
    refine Obeys.bind (obeys_notify ?_ (h _))
    intro n hn
    exact entry.founded_of_not_isAnswer (Outcome.not_isAnswer_failed cause) hn

theorem obeys_sendTracked {datagram : Bytes}
    (hposted : Posted history destination m ticket)
    (hencode : m.encode = .ok datagram)
    {post : Except SendError Unit → Prop} (h : ∀ a, post a) :
    (sendTracked destination m.id datagram ticket).Obeys config history place
      post := by
  refine Obeys.bind ?_
  intro fraction
  refine Obeys.bind (obeys_endpoint ?_)
  intro e _
  refine Obeys.bind (obeys_ofOption ?_)
  intro timeout
  refine Obeys.bind (obeys_locked (Obeys.bind ?_))
  intro now
  refine obeys_perform ?_
  intro e he _
  refine ⟨he.enqueue hposted hencode now timeout, ?_⟩
  cases (e.enqueue m.id destination datagram ticket now timeout).2 with
  | error err => exact h _
  | ok =>
      refine Obeys.bind ⟨⟨m, ticket, hposted, hencode⟩, ?_⟩
      intro result
      cases result with
      | error cause => exact obeys_giveUp h
      | ok => exact h _

/-- A send makes nothing up if its message is to be sent. -/
theorem obeys_send (hposted : Posted history destination m ticket)
    {post : Except SendError Unit → Prop} (h : ∀ a, post a) :
    (send destination m ticket).Obeys config history place post := by
  unfold send
  split
  · exact h _
  · refine Obeys.bind (obeys_perform ?_)
    intro e he _
    refine ⟨he.of_inFlight (he.fits.serialize m) rfl, ?_⟩
    cases hwritten : (e.serialize m).2 with
    | error err => exact h _
    | ok datagram =>
        have hencode := (Endpoint.serialize_eq_ok_iff.mp hwritten).1
        dsimp only
        split
        · exact obeys_sendTracked hposted hencode h
        · refine Obeys.bind ⟨⟨m, ticket, hposted, hencode⟩, ?_⟩
          intro result
          exact h _

/-- A request posts its message by taking an id and drawing a random word. -/
theorem obeys_request {r : Request}
    (hstarted : (place, .started (.request r)) ∈ history)
    {post : Except SendError UInt16 → Prop} (h : ∀ a, post a) :
    (request r).Obeys config history place post := by
  unfold request
  split
  · exact h _
  · next u huri =>
      refine Obeys.bind (obeys_perform ?_)
      intro e he hid
      rw [e.issued?_takeId] at hid
      have hinFlight : e.takeId.1.inFlight = e.inFlight := e.inFlight_takeId
      refine ⟨he.of_inFlight he.fits.takeId hinFlight, Obeys.bind ?_⟩
      intro random hrandom
      have hposts := Posts.request hstarted huri hid hrandom
      exact Obeys.bind (obeys_send ⟨place, hposts⟩ fun _ => h _)

end Sending

end Call

/-- No operation makes anything up. -/
theorem Operation.obeys {config : Config} {history : List (Nat × Deed)}
    {place : Nat} (operation : Operation)
    (hstarted : (place, .started operation) ∈ history) :
    operation.call.Obeys config history place fun _ => True := by
  cases operation with
  | send destination m ticket =>
      exact Call.Obeys.bind
        (Call.obeys_send ⟨place, .send hstarted⟩ fun _ => trivial)
  | request r =>
      exact Call.Obeys.bind (Call.obeys_request hstarted fun _ => trivial)
  | receive => exact Call.Obeys.bind (Call.obeys_receiveNext fun _ => trivial)
  | poll => exact Call.Obeys.bind (Call.obeys_poll fun _ => trivial)
  | checkQueues => exact Call.Obeys.bind (Call.obeys_checkQueues trivial)

/-! ## Worlds -/

/-- Nothing is made up in a world, by what has happened. -/
structure World.Honest (config : Config) (history : List (Nat × Deed))
    (w : World) : Prop where
  endpoint : w.endpoint.Honest config history
  threads : w.All fun place th =>
    th.rest.Obeys config history place fun _ => True

/-- What happens in a world keeps it honest. -/
theorem World.Honest.step {config : Config} {history : List (Nat × Deed)}
    {w w' : World} {place : Nat} {deed : Deed} (h : w.Honest config history)
    (hdoes : w.Does place deed w') (htold : (place, deed) ∈ history) :
    w'.Honest config history := by
  have hall := hdoes.all (fun p th hth _ => h.threads p th hth)
    (fun operation hdeed => operation.obeys (hdeed ▸ htold))
    (fun action rest th hth hdeed hstep =>
      ((h.threads place th hth).step h.endpoint hstep (hdeed ▸ htold)).2)
  refine ⟨?_, hall⟩
  cases hdoes with
  | start operation hfresh => exact h.endpoint
  | @act first last th action e rest hthreads hstep hfree =>
      have hth : w.threads[first.length]? = some th := by
        rw [hthreads, getElem?_here]
      exact ((h.threads _ th hth).step h.endpoint hstep htold).1
  | abandon hthreads hrest => exact h.endpoint

namespace Chronicle

variable {config : Config} {first : Endpoint} {history : List (Nat × Deed)}
  {w w' : World}

/-- A world in which all of a chronicle has happened is honest by any chronicle
that tells as much. -/
theorem honest_of_subset (h : Chronicle config first history w)
    {more : List (Nat × Deed)} (hmore : ∀ x ∈ history, x ∈ more) :
    w.Honest config more := by
  induction h with
  | @start random e hnew =>
      obtain ⟨hfits, hempty⟩ := Endpoint.fits_new hnew
      refine ⟨⟨hfits, ?_⟩, ?_⟩
      · intro p hp
        have hnone : p ∈ InFlight.empty.entries := hempty ▸ hp
        cases hnone
      · intro place th hth
        cases hth
  | step _ hdoes ih =>
      obtain ⟨hbefore, hnow⟩ := List.forall_mem_append.mp hmore
      exact (ih hbefore).step hdoes (hnow _ (List.mem_singleton_self _))

theorem honest (h : Chronicle config first history w) : w.Honest config history :=
  h.honest_of_subset fun _ hx => hx

variable {place : Nat} {id : Option UInt16}

/-- What is sent was posted before. -/
theorem posted_of_transmitted (h : Chronicle config first history w)
    {destination : SocketAddress} {datagram : Bytes}
    {result : Except TransportError Unit}
    (hdoes : w.Does place
      (.acted (.transmitted destination datagram result) id) w') :
    PostedAs history destination datagram := by
  obtain ⟨th, rest, hth, hstep, -⟩ := hdoes.acted
  exact (h.honest.threads place th hth).postedAs hstep

/-- An answer that is told was received before, for a message that was posted
before. -/
theorem founded_of_told (h : Chronicle config first history w) {n : Notification}
    (hdoes : w.Does place (.acted (.told (.notified n)) id) w') :
    n.Founded config history := by
  obtain ⟨th, rest, hth, hstep, -⟩ := hdoes.acted
  exact (h.honest.threads place th hth).founded hstep

end Chronicle

end Coap
