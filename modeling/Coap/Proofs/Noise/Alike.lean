import Coap.Proofs.Runs.Chronicle

/-!
# What the read buffer holds

Receives leave bytes behind in the read buffer. No call looks at them: before a datagram
is received the whole buffer is brought into view, and what comes into view with the
datagram is the datagram. So two endpoints that differ in these bytes alone are alike to
all calls. Whatever a call does to the one it does to the other, and it goes on in the
same way.

## Main results

* `Operation.blind` — no operation tells two such endpoints apart.
* `Call.Blind.step` — an action of a call on the one endpoint is an action on the other.
-/

namespace Coap

namespace Endpoint

/-- Two endpoints differ in what the read buffer holds, if at all. -/
def Alike (e e' : Endpoint) : Prop :=
  ∃ b : Buffer, b.capacity = e.readBuffer.capacity ∧ e' = { e with readBuffer := b }

namespace Alike

variable {e e' e'' : Endpoint}

theorem refl (e : Endpoint) : e.Alike e := ⟨e.readBuffer, rfl, rfl⟩

theorem symm (h : e.Alike e') : e'.Alike e := by
  obtain ⟨b, hb, rfl⟩ := h
  exact ⟨e.readBuffer, hb.symm, rfl⟩

theorem trans (h : e.Alike e') (h' : e'.Alike e'') : e.Alike e'' := by
  obtain ⟨b, hb, rfl⟩ := h
  obtain ⟨b', hb', rfl⟩ := h'
  exact ⟨b', hb'.trans hb, rfl⟩

theorem inFlight_eq (h : e.Alike e') : e'.inFlight = e.inFlight := by
  obtain ⟨b, -, rfl⟩ := h
  rfl

end Alike

theorem alike_openReadBuffer (e : Endpoint) : e.Alike e.openReadBuffer.1 :=
  ⟨e.readBuffer.maximize, rfl, rfl⟩

theorem alike_accept (e : Endpoint) (exposed : Nat) (datagram : Bytes)
    (sender : SocketAddress) : e.Alike (e.accept exposed datagram sender).1 :=
  ⟨e.readBuffer.fill exposed datagram, Buffer.capacity_fill _ _ _, rfl⟩

/-- A step on the state overlooks the read buffer. -/
def Overlooks {α : Type} (step : Endpoint → Endpoint × α) : Prop :=
  ∀ e e', e.Alike e' → (step e).1.Alike (step e').1 ∧ (step e').2 = (step e).2

theorem overlooks_takeId : Overlooks takeId := by
  rintro e _ ⟨b, hb, rfl⟩
  unfold takeId
  dsimp only
  split
  · exact ⟨⟨b, hb, rfl⟩, rfl⟩
  · exact ⟨⟨b, hb, rfl⟩, rfl⟩

/-- Changes that are alike take the same id. -/
theorem Alike.issued?_eq {e e' f f' : Endpoint} (h : e.Alike e') (hf : f.Alike f') :
    e'.issued? f' = e.issued? f := by
  have hid := (overlooks_takeId e e' h).2
  obtain ⟨b, -, rfl⟩ := h
  obtain ⟨b', -, rfl⟩ := hf
  rw [issued?, issued?, hid]

theorem overlooks_serialize (m : Message) : Overlooks (·.serialize m) := by
  rintro e _ ⟨b, hb, rfl⟩
  exact ⟨⟨b, hb, rfl⟩, rfl⟩

theorem overlooks_enqueue (id : UInt16) (destination : SocketAddress) (message : Bytes)
    (ticket : Option Ticket) (now : Instant) (timeout : Duration) :
    Overlooks (·.enqueue id destination message ticket now timeout) := by
  rintro e _ ⟨b, hb, rfl⟩
  unfold enqueue
  dsimp only
  split
  · exact ⟨⟨b, hb, rfl⟩, rfl⟩
  · exact ⟨⟨b, hb, rfl⟩, rfl⟩

theorem overlooks_dequeue (id : UInt16) : Overlooks (·.dequeue id) := by
  rintro e _ ⟨b, hb, rfl⟩
  exact ⟨⟨b, hb, rfl⟩, rfl⟩

/-- Where the mark was left does not matter to what is in view of a datagram. -/
theorem overlooks_openReadBuffer : Overlooks openReadBuffer := by
  intro e e' h
  have hafter : e.openReadBuffer.1.Alike e'.openReadBuffer.1 :=
    e.alike_openReadBuffer.symm.trans (h.trans e'.alike_openReadBuffer)
  obtain ⟨b, hb, rfl⟩ := h
  refine ⟨hafter, ?_⟩
  rw [snd_openReadBuffer, snd_openReadBuffer, hb]

/-- What is read from a datagram depends on what was in view of it and on the size of the
buffer alone. -/
theorem overlooks_accept (exposed : Nat) (datagram : Bytes) (sender : SocketAddress) :
    Overlooks (·.accept exposed datagram sender) := by
  intro e e' h
  have hafter : (e.accept exposed datagram sender).1.Alike
      (e'.accept exposed datagram sender).1 :=
    (e.alike_accept exposed datagram sender).symm.trans
      (h.trans (e'.alike_accept exposed datagram sender))
  obtain ⟨b, hb, rfl⟩ := h
  refine ⟨hafter, ?_⟩
  rw [accept_snd, accept_snd, hb]

end Endpoint

namespace Call

variable {α β : Type}

/-- The call does not look at what the read buffer holds: whatever the answers are, each
update changes endpoints that are alike into such, and the call goes on with them in the
same way. -/
def Blind : Call α → Prop
  | done _ => True
  | fault => True
  | update change next =>
      (∀ e e', e.Alike e' → (change e).Alike (change e') ∧ next e' = next e) ∧
        ∀ e, (next e).Blind
  | askTime next => ∀ t, (next t).Blind
  | askWord next => ∀ word, (next word).Blind
  | askFraction next => ∀ fraction, (next fraction).Blind
  | tell _ next => next.Blind
  | acquire _ next => next.Blind
  | release _ next => next.Blind
  | transmit _ _ next => ∀ result, (next result).Blind
  | receive next => ∀ result, (next result).Blind

theorem Blind.bind {c : Call α} {f : α → Call β} (hc : c.Blind)
    (hf : ∀ a, (f a).Blind) : (c >>= f).Blind := by
  show (c.bind f).Blind
  induction c with
  | done a => exact hf a
  | fault => exact trivial
  | update change next ih =>
      refine ⟨?_, fun e => ih e (hc.2 e)⟩
      intro e e' h
      obtain ⟨hchange, hnext⟩ := hc.1 e e' h
      exact ⟨hchange, congrArg (·.bind f) hnext⟩
  | askTime next ih | askWord next ih | askFraction next ih
  | transmit _ _ next ih | receive next ih =>
      intro x
      exact ih x (hc x)
  | tell _ next ih | acquire _ next ih | release _ next ih => exact ih hc

/-- An action of the call on one of two endpoints that are alike is an action on the
other one. -/
theorem Blind.step {c c₁ : Call α} {e e' e₁ : Endpoint} {action : Action}
    (hc : c.Blind) (halike : e.Alike e') (hstep : c.Step e action e₁ c₁) :
    c₁.Blind ∧ ∃ e₁', e₁.Alike e₁' ∧ c.Step e' action e₁' c₁ := by
  cases hstep with
  | update change next =>
      obtain ⟨hchange, hnext⟩ := hc.1 e e' halike
      refine ⟨hc.2 e, change e', hchange, ?_⟩
      rw [← hnext]
      exact .update e' change next
  | askTime next t => exact ⟨hc t, e', halike, .askTime _ _ _⟩
  | askWord next word => exact ⟨hc word, e', halike, .askWord _ _ _⟩
  | askFraction next fraction => exact ⟨hc fraction, e', halike, .askFraction _ _ _⟩
  | tell event => exact ⟨hc, e', halike, .tell _ _ _⟩
  | acquire lock => exact ⟨hc, e', halike, .acquire _ _ _⟩
  | release lock => exact ⟨hc, e', halike, .release _ _ _⟩
  | transmit destination datagram next result =>
      exact ⟨hc result, e', halike, .transmit _ _ _ _ _⟩
  | receive next result => exact ⟨hc result, e', halike, .receive _ _ _⟩

/-! ## Parts of calls -/

/-- What a call makes of the state is blind if it is made of the other parts of it. -/
theorem blind_endpoint_bind {f : Endpoint → Call α}
    (hsame : ∀ e b, f { e with readBuffer := b } = f e) (hf : ∀ e, (f e).Blind) :
    (endpoint >>= f).Blind := by
  refine ⟨?_, hf⟩
  rintro e _ ⟨b, hb, rfl⟩
  exact ⟨⟨b, hb, rfl⟩, hsame e b⟩

theorem blind_perform {step : Endpoint → Endpoint × α}
    (h : Endpoint.Overlooks step) : (perform step).Blind := by
  refine ⟨?_, fun _ => trivial⟩
  intro e e' halike
  obtain ⟨hchange, hvalue⟩ := h e e' halike
  exact ⟨hchange, congrArg done hvalue⟩

theorem blind_modify {change : Endpoint → Endpoint}
    (h : ∀ e e', e.Alike e' → (change e).Alike (change e')) :
    (modify change).Blind :=
  ⟨fun e e' halike => ⟨h e e' halike, rfl⟩, fun _ => trivial⟩

theorem blind_time : time.Blind := fun _ => trivial

theorem blind_word : word.Blind := fun _ => trivial

theorem blind_fraction : fraction.Blind := fun _ => trivial

theorem blind_sendDatagram (destination : SocketAddress) (datagram : Bytes) :
    (sendDatagram destination datagram).Blind :=
  fun _ => trivial

theorem blind_nextDatagram : nextDatagram.Blind := fun _ => trivial

theorem blind_locked {lock : Lock} {c : Call α} (h : c.Blind) :
    (locked lock c).Blind :=
  Blind.bind h fun _ => trivial

theorem blind_ofOption (o : Option α) : (ofOption o).Blind := by
  cases o <;> exact trivial

theorem blind_notifyAll (l : List Notification) : (notifyAll l).Blind := by
  induction l with
  | nil => exact trivial
  | cons n rest ih => exact ih

theorem blind_notify (n : Option Notification) : (notify n).Blind := by
  cases n <;> exact trivial

theorem blind_dequeue (id : UInt16) : (perform (·.dequeue id)).Blind :=
  blind_perform (Endpoint.overlooks_dequeue id)

/-! ## Receiving and scanning -/

theorem blind_settle (answer : Message) : (settle answer).Blind :=
  Blind.bind (blind_locked (blind_dequeue _)) fun _ => blind_notify _

theorem blind_receiveMessage : receiveMessage.Blind := by
  refine blind_locked (Blind.bind (blind_perform Endpoint.overlooks_openReadBuffer) ?_)
  intro exposed
  refine Blind.bind blind_nextDatagram ?_
  rintro (cause | _ | ⟨datagram, sender⟩)
  · exact trivial
  · exact trivial
  · exact Blind.bind
      (blind_perform (Endpoint.overlooks_accept exposed datagram sender))
      fun _ => trivial

theorem blind_receiveNext : receiveNext.Blind := by
  refine Blind.bind blind_receiveMessage ?_
  rintro (cause | _ | m)
  · exact trivial
  · exact trivial
  · show Blind (if _ then _ else _)
    split
    · exact Blind.bind (blind_settle m) fun _ => trivial
    · exact trivial

theorem blind_finish (id : UInt16) (outcome : Outcome) : (finish id outcome).Blind :=
  Blind.bind (blind_dequeue id) fun _ => trivial

theorem blind_retry (now : Instant) (entry : Entry) : (retry now entry).Blind := by
  refine blind_endpoint_bind (fun e b => rfl) ?_
  intro e
  split
  · exact blind_finish _ _
  · refine Blind.bind (blind_sendDatagram _ _) ?_
    rintro (cause | _)
    · exact blind_finish _ _
    · refine Blind.bind (blind_modify ?_) fun _ => trivial
      rintro e _ ⟨b, hb, rfl⟩
      exact ⟨b, hb, rfl⟩

theorem blind_scan (now : Instant) (ids : List UInt16) : (scan now ids).Blind := by
  induction ids with
  | nil => exact trivial
  | cons id rest ih =>
      have hothers (first : List Finished) :
          (scan now rest >>= fun others => pure (first ++ others)).Blind :=
        Blind.bind ih fun _ => trivial
      refine blind_endpoint_bind (fun e b => rfl) ?_
      intro e
      split
      · exact Blind.bind (blind_retry now _) hothers
      · exact hothers []

theorem blind_checkQueues : checkQueues.Blind := by
  refine Blind.bind (blind_locked (Blind.bind blind_time fun now => ?_)) fun _ =>
    blind_notifyAll _
  refine blind_endpoint_bind (fun e b => rfl) ?_
  intro e
  exact Blind.bind (blind_ofOption _) fun due => blind_scan now due

theorem blind_poll : poll.Blind :=
  Blind.bind blind_receiveNext fun _ => Blind.bind blind_checkQueues fun _ => trivial

/-! ## Sending -/

theorem blind_giveUp (id : UInt16) (cause : TransportError) : (giveUp id cause).Blind :=
  Blind.bind (blind_locked (blind_dequeue id)) fun _ =>
    Blind.bind (blind_notify _) fun _ => trivial

theorem blind_sendTracked (destination : SocketAddress) (id : UInt16)
    (datagram : Bytes) (ticket : Option Ticket) :
    (sendTracked destination id datagram ticket).Blind := by
  refine Blind.bind blind_fraction fun fraction => ?_
  refine blind_endpoint_bind (fun e b => rfl) fun e => ?_
  refine Blind.bind (blind_ofOption _) fun timeout => ?_
  refine Blind.bind (blind_locked (Blind.bind blind_time fun now => ?_)) ?_
  · exact blind_perform (Endpoint.overlooks_enqueue id destination datagram ticket _ _)
  · rintro (err | _)
    · exact trivial
    · refine Blind.bind (blind_sendDatagram _ _) ?_
      rintro (cause | _)
      · exact blind_giveUp id cause
      · exact trivial

theorem blind_send (destination : SocketAddress) (m : Message)
    (ticket : Option Ticket) : (send destination m ticket).Blind := by
  unfold send
  split
  · exact trivial
  · refine Blind.bind (blind_perform (Endpoint.overlooks_serialize m)) ?_
    rintro (err | datagram)
    · exact trivial
    · dsimp only
      split
      · exact blind_sendTracked _ _ _ _
      · exact Blind.bind (blind_sendDatagram _ _) fun _ => trivial

theorem blind_request (r : Request) : (request r).Blind := by
  unfold request
  split
  · exact trivial
  · refine Blind.bind (blind_perform Endpoint.overlooks_takeId) fun id => ?_
    refine Blind.bind blind_word fun word => ?_
    exact Blind.bind (blind_send _ _ _) fun _ => trivial

end Call

/-- No operation looks at what the read buffer holds. -/
theorem Operation.blind (operation : Operation) : operation.call.Blind := by
  cases operation with
  | send destination m ticket =>
      exact Call.Blind.bind (Call.blind_send _ _ _) fun _ => trivial
  | request r => exact Call.Blind.bind (Call.blind_request r) fun _ => trivial
  | receive => exact Call.Blind.bind Call.blind_receiveNext fun _ => trivial
  | poll => exact Call.Blind.bind Call.blind_poll fun _ => trivial
  | checkQueues => exact Call.Blind.bind Call.blind_checkQueues fun _ => trivial

end Coap
