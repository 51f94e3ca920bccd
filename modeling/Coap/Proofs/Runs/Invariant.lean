import Coap.Proofs.Codec.Writing
import Coap.Proofs.InFlight.Index
import Coap.Proofs.Runs.Alone

/-!
# What every call keeps

A call changes an endpoint by its updates alone, so what every update of every
call keeps is never lost, whatever runs side by side. `Call.Moves` says of a call
that all its updates change the endpoint in some way, and `Call.Keeps` that none
of them loses a property. `Endpoint.Fits` is kept: the configuration stays, the
buffers keep the sizes it names, and the index of the messages in flight names
exactly the entries.

## Main results

* `Moves.bind`, `Moves.step` — a call moves an endpoint as its parts do, and so
  does each of its actions.
* `Operation.moves` — an operation moves an endpoint as the steps that it is
  made of.
* `Operation.keeps_fits`, `World.Reachable.fits` — every operation keeps an
  endpoint fit, so it is fit in every reachable world.
-/

namespace Coap

namespace Call

variable {α β : Type} {R : Endpoint → Endpoint → Prop}

/-- Whatever the answers are, every update of the call changes the endpoint as
the relation says. -/
def Moves (R : Endpoint → Endpoint → Prop) : Call α → Prop
  | done _ => True
  | fault => True
  | update change next => ∀ e, R e (change e) ∧ (next e).Moves R
  | askTime next => ∀ t, (next t).Moves R
  | askWord next => ∀ word, (next word).Moves R
  | askFraction next => ∀ fraction, (next fraction).Moves R
  | tell _ next => next.Moves R
  | acquire _ next => next.Moves R
  | release _ next => next.Moves R
  | transmit _ _ next => ∀ result, (next result).Moves R
  | receive next => ∀ result, (next result).Moves R

/-- No update of the call loses the property. -/
def Keeps (I : Endpoint → Prop) (c : Call α) : Prop :=
  c.Moves fun e e' => I e → I e'

theorem Moves.bind {c : Call α} {f : α → Call β} (hc : c.Moves R)
    (hf : ∀ a, (f a).Moves R) : (c >>= f).Moves R := by
  change (c.bind f).Moves R
  induction c with
  | done a => exact hf a
  | fault => exact trivial
  | update change next ih => exact fun e => ⟨(hc e).1, ih e (hc e).2⟩
  | askTime next ih | askWord next ih | askFraction next ih
  | transmit _ _ next ih | receive next ih =>
      intro x
      exact ih x (hc x)
  | tell _ next ih | acquire _ next ih | release _ next ih => exact ih hc

theorem Moves.step {c c' : Call α} {e e' : Endpoint} {action : Action}
    (hc : c.Moves R) (hrefl : ∀ e, R e e) (hstep : c.Step e action e' c') :
    R e e' ∧ c'.Moves R := by
  cases hstep with
  | update change next => exact hc e
  | askTime next t => exact ⟨hrefl e, hc t⟩
  | askWord next word => exact ⟨hrefl e, hc word⟩
  | askFraction next fraction => exact ⟨hrefl e, hc fraction⟩
  | tell event => exact ⟨hrefl e, hc⟩
  | acquire lock => exact ⟨hrefl e, hc⟩
  | release lock => exact ⟨hrefl e, hc⟩
  | transmit destination datagram next result => exact ⟨hrefl e, hc result⟩
  | receive next result => exact ⟨hrefl e, hc result⟩

theorem Keeps.step {I : Endpoint → Prop} {c c' : Call α} {e e' : Endpoint}
    {action : Action} (hc : c.Keeps I) (he : I e)
    (hstep : c.Step e action e' c') : I e' ∧ c'.Keeps I := by
  obtain ⟨hmove, hrest⟩ := Moves.step hc (fun _ h => h) hstep
  exact ⟨hmove he, hrest⟩

theorem Keeps.runs {I : Endpoint → Prop} {c : Call α} {e e' : Endpoint}
    {actions : List Action} {value : Option α} (hc : c.Keeps I) (he : I e)
    (h : c.Runs e actions e' value) : I e' := by
  induction h with
  | done => exact he
  | fault => exact he
  | step hstep hrest ih =>
      obtain ⟨hafter, hnext⟩ := hc.step he hstep
      exact ih hnext hafter

/-! ## Actions -/

theorem moves_endpoint (hrefl : ∀ e, R e e) : endpoint.Moves R :=
  fun e => ⟨hrefl e, trivial⟩

theorem moves_perform {step : Endpoint → Endpoint × α}
    (h : ∀ e, R e (step e).1) : (perform step).Moves R :=
  fun e => ⟨h e, trivial⟩

theorem moves_modify {change : Endpoint → Endpoint} (h : ∀ e, R e (change e)) :
    (modify change).Moves R :=
  fun e => ⟨h e, trivial⟩

theorem moves_time : time.Moves R := fun _ => trivial

theorem moves_word : word.Moves R := fun _ => trivial

theorem moves_fraction : fraction.Moves R := fun _ => trivial

theorem moves_sendDatagram (destination : SocketAddress) (datagram : Bytes) :
    (sendDatagram destination datagram).Moves R :=
  fun _ => trivial

theorem moves_nextDatagram : nextDatagram.Moves R := fun _ => trivial

theorem moves_notifyAll (l : List Notification) : (notifyAll l).Moves R := by
  induction l with
  | nil => exact trivial
  | cons n rest ih => exact ih

theorem moves_notify (n : Option Notification) : (notify n).Moves R := by
  cases n <;> exact trivial

theorem moves_ofOption (o : Option α) : (ofOption o).Moves R := by
  cases o <;> exact trivial

theorem moves_locked {lock : Lock} {c : Call α} (h : c.Moves R) :
    (locked lock c).Moves R :=
  Moves.bind h fun _ => trivial

end Call

/-! ## Fit endpoints -/

/-- An endpoint of a configuration, with buffers of the sizes that it names,
and a queue that finds its messages. -/
structure Endpoint.Fits (config : Config) (e : Endpoint) : Prop where
  config_eq : e.config = config
  readBuffer : e.readBuffer.capacity = config.readBufferSize + 1
  writeBuffer : e.writeBuffer.capacity = config.writeBufferSize
  sound : e.inFlight.Sound

namespace Endpoint

variable {config : Config} {e : Endpoint}

theorem fits_new {random : UInt32} (h : new config random = .ok e) :
    e.Fits config ∧ e.inFlight = .empty := by
  unfold new at h
  split at h
  · contradiction
  · cases h
    refine ⟨⟨rfl, ?_, ?_, InFlight.sound_empty⟩, rfl⟩
    · exact Buffer.capacity_new _
    · exact Buffer.capacity_new _

namespace Fits

variable (he : e.Fits config)

include he

theorem takeId : (e.takeId).1.Fits config := by
  unfold Endpoint.takeId
  split
  · exact ⟨he.1, he.2, he.3, he.4⟩
  · exact ⟨he.1, he.2, he.3, he.4⟩

theorem serialize (m : Message) : (e.serialize m).1.Fits config := by
  refine ⟨he.1, he.2, ?_, he.4⟩
  have hclear : e.writeBuffer.clear.capacity = config.writeBufferSize := by
    rw [Buffer.capacity_clear, he.writeBuffer]
  rw [← hclear]
  change (m.write e.writeBuffer.clear).1.capacity = _
  rw [Message.write_eq]
  split
  · rfl
  · split
    · rfl
    · next h => exact Buffer.capacity_append? h

theorem enqueue (id : UInt16) (destination : SocketAddress) (message : Bytes)
    (ticket : Option Ticket) (now : Instant) (timeout : Duration) :
    (e.enqueue id destination message ticket now timeout).1.Fits config := by
  unfold Endpoint.enqueue
  split
  · next q hadd => exact ⟨he.1, he.2, he.3, he.sound.add hadd⟩
  · exact he

theorem dequeue (id : UInt16) : (e.dequeue id).1.Fits config :=
  ⟨he.1, he.2, he.3, he.sound.remove id⟩

theorem noteRetransmission (id : UInt16) (now : Instant) :
    (e.noteRetransmission id now).Fits config :=
  ⟨he.1, he.2, he.3, he.sound.update (InFlight.keeps_retransmitted now) id⟩

theorem openReadBuffer : e.openReadBuffer.1.Fits config :=
  ⟨he.1, he.2, he.3, he.4⟩

theorem accept (exposed : Nat) (datagram : Bytes) (sender : SocketAddress) :
    (e.accept exposed datagram sender).1.Fits config :=
  ⟨he.1, (Buffer.capacity_fill _ _ _).trans he.2, he.3, he.4⟩

end Fits

end Endpoint

/-! ## Calls -/

/-- Every step of receiving, and doing nothing, is a change as the relation says. -/
structure Endpoint.Receptive (R : Endpoint → Endpoint → Prop) : Prop where
  refl : ∀ e, R e e
  openReadBuffer : ∀ e, R e e.openReadBuffer.1
  accept : ∀ e exposed datagram sender, R e (e.accept exposed datagram sender).1
  dequeue : ∀ e id, R e (e.dequeue id).1

/-- Every step of receiving and of sending again, and doing nothing, is a change
as the relation says. -/
structure Endpoint.Lasting (R : Endpoint → Endpoint → Prop) : Prop where
  refl : ∀ e, R e e
  openReadBuffer : ∀ e, R e e.openReadBuffer.1
  accept : ∀ e exposed datagram sender, R e (e.accept exposed datagram sender).1
  dequeue : ∀ e id, R e (e.dequeue id).1
  noteRetransmission : ∀ e id now, R e (e.noteRetransmission id now)

theorem Endpoint.Lasting.receptive {R : Endpoint → Endpoint → Prop} (hR : Lasting R) :
    Receptive R :=
  ⟨hR.refl, hR.openReadBuffer, hR.accept, hR.dequeue⟩

/-- So is every other step but the taking of an id. -/
structure Endpoint.Enduring (R : Endpoint → Endpoint → Prop) : Prop extends
    Endpoint.Lasting R where
  serialize : ∀ e m, R e (e.serialize m).1
  enqueue : ∀ e id destination message ticket now timeout,
    R e (e.enqueue id destination message ticket now timeout).1

theorem Endpoint.enduring_fits (config : Config) :
    Endpoint.Enduring fun e e' => e.Fits config → e'.Fits config where
  refl _ he := he
  openReadBuffer _ he := he.openReadBuffer
  accept _ exposed datagram sender he := he.accept exposed datagram sender
  dequeue _ id he := he.dequeue id
  noteRetransmission _ id now he := he.noteRetransmission id now
  serialize _ m he := he.serialize m
  enqueue _ id destination message ticket now timeout he :=
    he.enqueue id destination message ticket now timeout

namespace Call

variable {R : Endpoint → Endpoint → Prop}

theorem moves_settle (answer : Message) (h : ∀ e, R e (e.dequeue answer.id).1) :
    (settle answer).Moves R :=
  Moves.bind (moves_locked (moves_perform h)) fun _ => moves_notify _

theorem moves_receiveMessage (hopen : ∀ e, R e e.openReadBuffer.1)
    (haccept : ∀ e exposed datagram sender,
      R e (e.accept exposed datagram sender).1) :
    receiveMessage.Moves R := by
  refine moves_locked (Moves.bind (moves_perform hopen) ?_)
  intro exposed
  refine Moves.bind moves_nextDatagram ?_
  rintro (cause | _ | ⟨datagram, sender⟩)
  · exact trivial
  · exact trivial
  · exact Moves.bind (moves_perform fun e => haccept e exposed datagram sender)
      fun _ => trivial

theorem moves_receiveNext (hR : Endpoint.Receptive R) : receiveNext.Moves R := by
  refine Moves.bind (moves_receiveMessage hR.openReadBuffer hR.accept) ?_
  rintro (cause | _ | m)
  · exact trivial
  · exact trivial
  · dsimp only
    split
    · exact Moves.bind (moves_settle m fun e => hR.dequeue e m.id) fun _ => trivial
    · exact trivial

section Lasting

variable (hR : Endpoint.Lasting R)

include hR

theorem moves_finish (id : UInt16) (outcome : Outcome) :
    (finish id outcome).Moves R :=
  Moves.bind (moves_perform fun e => hR.dequeue e id) fun _ => trivial

theorem moves_retry (now : Instant) (entry : Entry) :
    (retry now entry).Moves R := by
  refine Moves.bind (moves_endpoint hR.refl) ?_
  intro e
  split
  · exact moves_finish hR _ _
  · refine Moves.bind (moves_sendDatagram _ _) ?_
    intro result
    cases result with
    | ok => exact Moves.bind (moves_modify fun e =>
        hR.noteRetransmission e entry.id now) fun _ => trivial
    | error cause => exact moves_finish hR _ _

theorem moves_scan (now : Instant) (ids : List UInt16) :
    (scan now ids).Moves R := by
  induction ids with
  | nil => exact trivial
  | cons id rest ih =>
      have hothers (first : List Finished) :
          (scan now rest >>= fun others => pure (first ++ others)).Moves R :=
        Moves.bind ih fun _ => trivial
      refine Moves.bind (moves_endpoint hR.refl) ?_
      intro e
      split
      · exact Moves.bind (moves_retry hR now _) hothers
      · exact hothers []

theorem moves_checkQueues : checkQueues.Moves R := by
  refine Moves.bind (moves_locked (Moves.bind moves_time ?_)) fun _ =>
    moves_notifyAll _
  intro now
  refine Moves.bind (moves_endpoint hR.refl) ?_
  intro e
  exact Moves.bind (moves_ofOption _) fun due => moves_scan hR now due

theorem moves_poll : poll.Moves R :=
  Moves.bind (moves_receiveNext hR.receptive) fun _ =>
    Moves.bind (moves_checkQueues hR) fun _ => trivial

theorem moves_giveUp (id : UInt16) (cause : TransportError) :
    (giveUp id cause).Moves R :=
  Moves.bind (moves_locked (moves_perform fun e => hR.dequeue e id)) fun _ =>
    Moves.bind (moves_notify _) fun _ => trivial

end Lasting

section Enduring

variable (hR : Endpoint.Enduring R)

include hR

theorem moves_sendTracked (destination : SocketAddress) (id : UInt16)
    (datagram : Bytes) (ticket : Option Ticket) :
    (sendTracked destination id datagram ticket).Moves R := by
  refine Moves.bind moves_fraction fun fraction => ?_
  refine Moves.bind (moves_endpoint hR.refl) fun e => ?_
  refine Moves.bind (moves_ofOption _) fun timeout => ?_
  refine Moves.bind (moves_locked (Moves.bind moves_time fun now => ?_)) ?_
  · exact moves_perform fun e => hR.enqueue e id destination datagram ticket _ _
  · rintro (err | _)
    · exact trivial
    · refine Moves.bind (moves_sendDatagram _ _) ?_
      rintro (cause | _)
      · exact moves_giveUp hR.toLasting id cause
      · exact trivial

theorem moves_send (destination : SocketAddress) (m : Message)
    (ticket : Option Ticket) : (send destination m ticket).Moves R := by
  unfold send
  split
  · exact trivial
  · refine Moves.bind (moves_perform fun e => hR.serialize e m) ?_
    rintro (err | datagram)
    · exact trivial
    · dsimp only
      split
      · exact moves_sendTracked hR _ _ _ _
      · exact Moves.bind (moves_sendDatagram _ _) fun _ => trivial

theorem moves_request (htake : ∀ e, R e e.takeId.1) (r : Request) :
    (request r).Moves R := by
  unfold request
  split
  · exact trivial
  · refine Moves.bind (moves_perform htake) fun id => ?_
    refine Moves.bind moves_word fun word => ?_
    exact Moves.bind (moves_send hR _ _ _) fun _ => trivial

end Enduring

end Call

/-- An operation moves an endpoint as its steps do. Only requests take ids. -/
theorem Operation.moves {R : Endpoint → Endpoint → Prop}
    (hR : Endpoint.Enduring R) (operation : Operation)
    (htake : ∀ r, operation = .request r → ∀ e, R e e.takeId.1) :
    operation.call.Moves R := by
  have hlasting := hR.toLasting
  cases operation with
  | send destination m ticket =>
      exact Call.Moves.bind (Call.moves_send hR _ _ _) fun _ => trivial
  | request r =>
      exact Call.Moves.bind (Call.moves_request hR (htake r rfl) r)
        fun _ => trivial
  | receive =>
      exact Call.Moves.bind (Call.moves_receiveNext hlasting.receptive) fun _ => trivial
  | poll => exact Call.Moves.bind (Call.moves_poll hlasting) fun _ => trivial
  | checkQueues =>
      exact Call.Moves.bind (Call.moves_checkQueues hlasting) fun _ => trivial

/-- Every operation keeps an endpoint fit. -/
theorem Operation.keeps_fits {config : Config} (operation : Operation) :
    operation.call.Keeps (Endpoint.Fits config) :=
  operation.moves (Endpoint.enduring_fits config) fun _ _ _ he => he.takeId

/-! ## Worlds -/

namespace World

/-- The endpoint is fit, and no call that is under way changes that. -/
structure Fits (config : Config) (w : World) : Prop where
  endpoint : w.endpoint.Fits config
  threads : ∀ th ∈ w.threads, th.rest.Keeps (Endpoint.Fits config)

variable {config : Config} {w w' : World}

theorem Fits.step (h : w.Fits config) (hstep : w.Step w') : w'.Fits config := by
  cases hstep with
  | start operation hfresh =>
      refine ⟨h.endpoint, List.forall_mem_append.mpr ⟨h.threads, ?_⟩⟩
      exact List.forall_mem_singleton.mpr operation.keeps_fits
  | act hthreads haction hfree =>
      have hall := h.threads
      rw [hthreads, List.forall_mem_append, List.forall_mem_cons] at hall
      obtain ⟨hfirst, hself, hlast⟩ := hall
      obtain ⟨hendpoint, hrest⟩ := hself.step h.endpoint haction
      exact ⟨hendpoint, List.forall_mem_append.mpr
        ⟨hfirst, List.forall_mem_cons.mpr ⟨hrest, hlast⟩⟩⟩
  | abandon hthreads hrest => exact ⟨h.endpoint, h.threads⟩

theorem Reachable.fits (h : w.Reachable) : ∃ config, w.Fits config := by
  induction h with
  | start hnew =>
      refine ⟨_, (Endpoint.fits_new hnew).1, ?_⟩
      intro th hth
      cases hth
  | step _ hstep ih =>
      obtain ⟨config, hfits⟩ := ih
      exact ⟨config, hfits.step hstep⟩

end World

end Coap
