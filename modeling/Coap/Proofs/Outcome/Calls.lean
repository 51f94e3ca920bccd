import Coap.Proofs.Outcome.Accounts

/-!
# The calls on an endpoint account for what they do

Each call is followed through its actions, once. What a call needs for its
debts is stated where the debts arise: the value of a part tells which entries
it took out of flight, and the part that comes next owes their outcomes.

## Main results

* `accounts_send`, `accounts_receiveNext`, `accounts_checkQueues` — the calls
  that put entries in flight or take them out owe nothing when they are over.
* `Operation.accounts` — so does every operation, with the right to queue its
  own ticket; one that is refused has not used that right.
-/

namespace Coap.Call

variable {α β : Type} {rights : Multiset Ticket} {debts : Multiset Due}

section Parts

variable {post : α → Multiset Ticket → Multiset Due → Prop}

/-! ## Actions -/

theorem accounts_update {change : Endpoint → Endpoint} {next : Endpoint → Call α}
    (hqueue : ∀ e, (change e).inFlight = e.inFlight)
    (h : ∀ e, (next e).Accounts rights debts post) :
    (update change next).Accounts rights debts post := by
  intro e he
  exact Accounts.unchanged he (hqueue e) (h e)

theorem accounts_endpoint
    {post : Endpoint → Multiset Ticket → Multiset Due → Prop}
    (h : ∀ e, post e rights debts) : endpoint.Accounts rights debts post :=
  accounts_update (fun _ => rfl) h

theorem accounts_perform {step : Endpoint → Endpoint × α}
    (hqueue : ∀ e, (step e).1.inFlight = e.inFlight)
    (h : ∀ a, post a rights debts) :
    (perform step).Accounts rights debts post :=
  accounts_update hqueue fun e => h (step e).2

theorem accounts_ofOption {o : Option α} (h : ∀ a, post a rights 0) :
    (ofOption o).Accounts rights 0 post := by
  cases o with
  | none => exact rfl
  | some a => exact h a

theorem accounts_locked {lock : Lock} {c : Call α}
    (h : c.Accounts rights debts post) :
    (locked lock c).Accounts rights debts post :=
  Accounts.bind h

end Parts

section Steps

variable {id : UInt16}

theorem accounts_noteRetransmission {now : Instant}
    {post : Unit → Multiset Ticket → Multiset Due → Prop}
    (h : post () rights debts) :
    (modify (·.noteRetransmission id now)).Accounts rights debts post := by
  intro e he
  refine ⟨he.evolves_update (InFlight.keeps_retransmitted now) id, rights, ?_, ?_⟩
  · simp only [Endpoint.noteRetransmission, InFlight.arrivals,
      InFlight.joined_update, List.map_nil, tickets_nil, zero_add]
  · simp only [Endpoint.noteRetransmission, InFlight.departures,
      InFlight.departed_update, List.map_nil, dues_nil, zero_add]
    exact h

/-- Who takes an entry out of flight owes its outcome. -/
theorem accounts_dequeue
    {post : Option Entry → Multiset Ticket → Multiset Due → Prop}
    (h : ∀ entry, post entry rights (dues entry.toList + debts)) :
    (perform (·.dequeue id)).Accounts rights debts post := by
  intro e he
  refine ⟨he.evolves_remove id, rights, ?_, ?_⟩
  · simp only [Endpoint.dequeue, InFlight.arrivals, InFlight.joined_remove,
      List.map_nil, tickets_nil, zero_add]
  · simp only [Endpoint.dequeue, InFlight.departures, he.departed_remove]
    exact h (e.inFlight.remove id).1

/-- Who puts an entry in flight needs the right to its ticket. -/
theorem accounts_enqueue {destination : SocketAddress} {message : Bytes}
    {ticket : Option Ticket} {now : Instant} {timeout : Duration}
    {post : Except SendError Unit → Multiset Ticket → Multiset Due → Prop}
    (hok : post (.ok ()) rights debts)
    (herror : ∀ err, post (.error err) (ticket.toList + rights) debts) :
    (perform (·.enqueue id destination message ticket now timeout)).Accounts
      (ticket.toList + rights) debts post := by
  intro e he
  cases hadd : e.inFlight.add id destination message ticket now timeout with
  | error err =>
      simp only [Endpoint.enqueue, hadd]
      exact Accounts.unchanged he rfl (herror err)
  | ok q =>
      simp only [Endpoint.enqueue, hadd]
      refine ⟨he.evolves_add hadd, rights, ?_, ?_⟩
      · rw [InFlight.arrivals, he.joined_add hadd, List.map_singleton,
          tickets_new]
      · rw [InFlight.departures, InFlight.departed_add hadd, List.map_nil,
          dues_nil, zero_add]
        exact hok

/-! ## Telling -/

theorem accounts_notifyAll {l : List Notification}
    {post : Unit → Multiset Ticket → Multiset Due → Prop}
    (h : post () rights debts) :
    (notifyAll l).Accounts rights (settled l + debts) post := by
  induction l with
  | nil =>
      rw [settled_nil, zero_add]
      exact h
  | cons n rest ih =>
      refine ⟨settled rest + debts, ?_, ih⟩
      rw [settled_cons, add_assoc]
      rfl

theorem accounts_notify {n : Option Notification}
    {post : Unit → Multiset Ticket → Multiset Due → Prop}
    (h : post () rights debts) :
    (notify n).Accounts rights (settled n.toList + debts) post := by
  cases n with
  | none =>
      rw [Option.toList_none, settled_nil, zero_add]
      exact h
  | some n => exact ⟨debts, rfl, h⟩

/-- Telling the outcome of an entry that was taken out of flight settles the
debt that arose there. -/
theorem accounts_notify_entry {entry : Option Entry} {outcome : Outcome}
    {post : Unit → Multiset Ticket → Multiset Due → Prop}
    (h : post () rights debts) :
    (notify (entry.bind (·.notify outcome))).Accounts rights
      (dues entry.toList + debts) post := by
  cases entry with
  | none =>
      rw [Option.toList_none, dues_nil, zero_add]
      exact h
  | some entry =>
      rw [Option.toList_some, ← settled_notify entry outcome]
      exact accounts_notify h

end Steps

/-! ## Scans -/

section Scans

variable {now : Instant}
  {post : List Finished → Multiset Ticket → Multiset Due → Prop}

/-- Nothing is owed where no entry has ended. -/
theorem post_nil (h : ∀ l : List Finished,
    post l rights (dues (l.map (·.1)) + debts)) : post [] rights debts := by
  have hnil := h []
  rw [List.map_nil, dues_nil, zero_add] at hnil
  exact hnil

theorem accounts_finish {id : UInt16} {outcome : Outcome}
    (h : ∀ l : List Finished,
      post l rights (dues (l.map (·.1)) + debts)) :
    (finish id outcome).Accounts rights debts post := by
  refine Accounts.bind (accounts_dequeue ?_)
  intro entry
  cases entry with
  | none => exact h []
  | some entry => exact h [(entry, outcome)]

theorem accounts_retry {entry : Entry}
    (h : ∀ l : List Finished,
      post l rights (dues (l.map (·.1)) + debts)) :
    (retry now entry).Accounts rights debts post := by
  refine Accounts.bind (accounts_endpoint ?_)
  intro e
  split
  · exact accounts_finish h
  · refine Accounts.bind ?_
    intro result
    cases result with
    | ok => exact Accounts.bind (accounts_noteRetransmission (post_nil h))
    | error cause => exact accounts_finish h

/-- A scan owes the outcomes of the entries that it reports to have ended. -/
theorem accounts_scan {ids : List UInt16}
    (h : ∀ l : List Finished,
      post l rights (dues (l.map (·.1)) + debts)) :
    (scan now ids).Accounts rights debts post := by
  induction ids generalizing debts post with
  | nil => exact post_nil h
  | cons id rest ih =>
      have hothers (first : List Finished) :
          (scan now rest >>= fun others => pure (first ++ others)).Accounts rights
            (dues (first.map (·.1)) + debts) post := by
        refine Accounts.bind (ih ?_)
        intro others
        have hboth := h (first ++ others)
        rw [List.map_append, dues_append, add_assoc, add_left_comm] at hboth
        exact hboth
      refine Accounts.bind (accounts_endpoint ?_)
      intro e
      split
      · exact Accounts.bind (accounts_retry hothers)
      · have hnone := hothers []
        rw [List.map_nil, dues_nil, zero_add] at hnone
        exact hnone

end Scans

/-- The notifications of entries that have ended tell what is due. -/
theorem settled_finished (l : List Finished) :
    settled (l.filterMap fun (entry, outcome) => entry.notify outcome) =
      dues (l.map (·.1)) := by
  induction l with
  | nil => rfl
  | cons p rest ih =>
      obtain ⟨entry, outcome⟩ := p
      have hsplit : dues (((entry, outcome) :: rest).map fun p => p.1) =
          dues [entry] + dues (rest.map fun p => p.1) :=
        dues_append [entry] _
      rw [hsplit, ← settled_notify entry outcome, ← ih, ← settled_append]
      congr 1
      cases hn : entry.notify outcome with
      | none => simp only [List.filterMap_cons, hn, Option.toList_none,
          List.nil_append]
      | some n => simp only [List.filterMap_cons, hn, Option.toList_some,
          List.singleton_append]

/-- A scan may break off before it takes anything out of flight, so nothing
must be owed when it begins. -/
theorem accounts_checkQueues {post : Unit → Multiset Ticket → Multiset Due → Prop}
    (h : post () rights 0) : checkQueues.Accounts rights 0 post := by
  refine Accounts.bind (accounts_locked (Accounts.bind ?_))
  intro now
  refine Accounts.bind (accounts_endpoint ?_)
  intro e
  refine Accounts.bind (accounts_ofOption ?_)
  intro due
  refine accounts_scan ?_
  intro finished
  rw [← settled_finished finished]
  exact accounts_notifyAll h

/-! ## Receiving -/

theorem accounts_settle {answer : Message}
    {post : Unit → Multiset Ticket → Multiset Due → Prop}
    (h : post () rights debts) : (settle answer).Accounts rights debts post := by
  refine Accounts.bind (accounts_locked (accounts_dequeue ?_))
  intro entry
  exact accounts_notify_entry h

section Receiving

variable {post : Except TransportError (Option Message) →
  Multiset Ticket → Multiset Due → Prop}

theorem accounts_receiveMessage (h : ∀ r, post r rights debts) :
    receiveMessage.Accounts rights debts post := by
  refine accounts_locked (Accounts.bind ?_)
  refine accounts_update (fun _ => rfl) ?_
  intro _
  refine Accounts.bind ?_
  intro reception
  match reception with
  | .error cause => exact h (.error cause)
  | .ok none => exact h (.ok none)
  | .ok (some (datagram, sender)) =>
      refine Accounts.bind (accounts_perform (fun _ => rfl) ?_)
      intro m
      exact h (.ok m)

theorem accounts_receiveNext (h : ∀ r, post r rights debts) :
    receiveNext.Accounts rights debts post := by
  refine Accounts.bind (accounts_receiveMessage ?_)
  intro r
  match r with
  | .error cause => exact h (.error cause)
  | .ok none => exact h (.ok none)
  | .ok (some m) =>
      dsimp only
      split
      · exact Accounts.bind (accounts_settle (h (.ok (some m))))
      · exact h (.ok (some m))

theorem accounts_poll (h : ∀ r, post r rights 0) :
    poll.Accounts rights 0 post := by
  refine Accounts.bind (accounts_receiveNext ?_)
  intro received
  exact Accounts.bind (accounts_checkQueues (h received))

end Receiving

/-! ## Sending -/

section Sending

/-- What a send comes to when its message was queued. -/
def NotRefused {α : Type} : Except SendError α → Prop
  | .ok _ => True
  | .error err => ¬err.IsRefusal

theorem NotRefused.map {α β : Type} {r : Except SendError α}
    (h : NotRefused r) (f : α → β) : NotRefused (r.map f) := by
  cases r with
  | ok a => exact trivial
  | error err => exact h

variable {ticket : Option Ticket}
  {post : Except SendError Unit → Multiset Ticket → Multiset Due → Prop}

theorem accounts_giveUp {id : UInt16} {cause : TransportError}
    (h : post (.error (.transport cause)) rights debts) :
    (giveUp id cause).Accounts rights debts post := by
  refine Accounts.bind (accounts_locked (accounts_dequeue ?_))
  intro entry
  exact Accounts.bind (accounts_notify_entry h)

theorem accounts_sendTracked {destination : SocketAddress} {id : UInt16}
    {datagram : Bytes} (hqueued : ∀ r, NotRefused r → post r rights 0)
    (hrefused : ∀ r, post r (ticket.toList + rights) 0) :
    (sendTracked destination id datagram ticket).Accounts
      (ticket.toList + rights) 0 post := by
  refine Accounts.bind ?_
  intro fraction
  refine Accounts.bind (accounts_endpoint ?_)
  intro e
  refine Accounts.bind (accounts_ofOption ?_)
  intro timeout
  refine Accounts.bind (accounts_locked (Accounts.bind ?_))
  intro now
  refine accounts_enqueue ?_ ?_
  · refine Accounts.bind ?_
    intro result
    cases result with
    | ok => exact hqueued (.ok ()) trivial
    | error cause => exact accounts_giveUp (hqueued _ fun hrefusal => hrefusal)
  · intro err
    exact hrefused (.error err)

/-- A send uses the right to its ticket only if it queues the message. -/
theorem accounts_send {destination : SocketAddress} {m : Message}
    (hqueued : ∀ r, NotRefused r → post r rights 0)
    (hrefused : ∀ r, post r (ticket.toList + rights) 0) :
    (send destination m ticket).Accounts (ticket.toList + rights) 0 post := by
  unfold send
  split
  · exact hrefused (.error .callbackRequiresConfirmable)
  · refine Accounts.bind (accounts_perform (fun _ => rfl) ?_)
    intro written
    cases written with
    | error err => exact hrefused (.error (.codec err))
    | ok datagram =>
        dsimp only
        split
        · exact accounts_sendTracked hqueued hrefused
        · refine Accounts.bind ?_
          intro sent
          exact hrefused (sent.mapError .transport)

theorem accounts_request {r : Request}
    {post : Except SendError UInt16 → Multiset Ticket → Multiset Due → Prop}
    (hqueued : ∀ a, NotRefused a → post a rights 0)
    (hrefused : ∀ a, post a (r.ticket.toList + rights) 0) :
    (request r).Accounts (r.ticket.toList + rights) 0 post := by
  unfold request
  split
  · next err _ => exact hrefused (.error (.uri err))
  · refine Accounts.bind (accounts_perform Endpoint.inFlight_takeId ?_)
    intro id
    refine Accounts.bind ?_
    intro random
    exact Accounts.bind
      (accounts_send (fun _ hsent => hqueued _ (hsent.map _))
        fun _ => hrefused _)

end Sending

end Coap.Call

namespace Coap

/-- How the rights and debts of an operation stand when it is over. -/
def Operation.Concluded (operation : Operation) (result : Result)
    (rights : Multiset Ticket) (debts : Multiset Due) : Prop :=
  debts = 0 ∧ (result.IsRefusal → rights = operation.ticket.toList)

/-- An operation may put its own ticket in flight. When it is over it owes
nothing, and if it was refused it has kept its ticket. -/
theorem Operation.accounts (operation : Operation) :
    operation.call.Accounts operation.ticket.toList 0 operation.Concluded := by
  rw [← add_zero (operation.ticket.toList : Multiset Ticket)]
  cases operation with
  | send destination m ticket =>
      refine Call.Accounts.bind (Call.accounts_send ?_ ?_)
      · intro r hr
        refine ⟨rfl, ?_⟩
        intro hrefusal
        cases r with
        | ok => exact hrefusal.elim
        | error err => exact absurd hrefusal hr
      · exact fun _ => ⟨rfl, fun _ => add_zero _⟩
  | request r =>
      refine Call.Accounts.bind (Call.accounts_request ?_ ?_)
      · intro a ha
        refine ⟨rfl, ?_⟩
        intro hrefusal
        cases a with
        | ok => exact hrefusal.elim
        | error err => exact absurd hrefusal ha
      · exact fun _ => ⟨rfl, fun _ => add_zero _⟩
  | receive =>
      exact Call.Accounts.bind (Call.accounts_receiveNext fun _ => ⟨rfl, nofun⟩)
  | poll => exact Call.Accounts.bind (Call.accounts_poll fun _ => ⟨rfl, nofun⟩)
  | checkQueues =>
      exact Call.Accounts.bind (Call.accounts_checkQueues ⟨rfl, nofun⟩)

end Coap
