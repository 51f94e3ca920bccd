import Coap.Proofs.Runs.Locks

/-!
# The opened read buffer

A receive opens the read buffer under its lock and then waits for a datagram. Other
calls go on meanwhile, so what the buffer is when the datagram comes is a matter of who
may change it. Only who has locked it does: to every thread that holds the lock the
buffer is what the thread itself has made of it, and no other thread changes it.

So while a receive waits the buffer is open, wherever the datagrams before had left its
mark. The datagram that ends the wait is received into the bytes that are then in view,
which are all there are.

## Main results

* `Operation.tends` — an operation changes the read buffer under its lock alone, and
  waits only for what it can store.
* `Chronicle.receives_in_view` — a datagram is received into an open buffer.
-/

namespace Coap

namespace Call

variable {α β : Type} {view : Option Buffer}

/-- The call goes on by receiving the datagram into so many bytes of the read buffer. -/
def Stores (c : Call α) (exposed : Nat) (datagram : Bytes) (sender : SocketAddress) :
    Prop :=
  ∃ next, c = update (fun e => (e.accept exposed datagram sender).1) next

/-- The call changes the read buffer while it has it locked and at no other time. The
buffer is `view` while it is locked. The call waits for a datagram with all of the buffer
in view, and stores there what it receives. It is over without the lock. -/
def Tends : Call α → Option Buffer → Prop
  | done _, view => view = none
  | fault, _ => True
  | update change next, none =>
      ∀ e, (change e).readBuffer = e.readBuffer ∧ (next e).Tends none
  | update change next, some b =>
      ∀ e, e.readBuffer = b → (next e).Tends (some (change e).readBuffer)
  | askTime next, view => ∀ t, (next t).Tends view
  | askWord next, view => ∀ word, (next word).Tends view
  | askFraction next, view => ∀ fraction, (next fraction).Tends view
  | tell _ next, view => next.Tends view
  | acquire .inFlight next, view => next.Tends view
  | acquire .readBuffer next, view => view = none ∧ ∀ b, next.Tends (some b)
  | release .inFlight next, view => next.Tends view
  | release .readBuffer next, view => view.isSome ∧ next.Tends none
  | transmit _ _ next, view => ∀ result, (next result).Tends view
  | receive next, view =>
      (∃ b, view = some b ∧ b.length = b.capacity ∧ ∀ datagram sender,
        (next (.ok (some (datagram, sender)))).Stores b.length datagram sender) ∧
      ∀ result, (next result).Tends view

theorem Stores.bind {c : Call α} {f : α → Call β} {exposed : Nat} {datagram : Bytes}
    {sender : SocketAddress} (h : c.Stores exposed datagram sender) :
    (c.bind f).Stores exposed datagram sender := by
  obtain ⟨next, rfl⟩ := h
  exact ⟨fun e => (next e).bind f, rfl⟩

theorem Tends.bind {c : Call α} {f : α → Call β} (hc : c.Tends view)
    (hf : ∀ a, (f a).Tends none) : (c >>= f).Tends view := by
  show (c.bind f).Tends view
  induction c generalizing view with
  | done a =>
      cases hc
      exact hf a
  | fault => exact trivial
  | update change next ih =>
      cases view with
      | none => exact fun e => ⟨(hc e).1, ih e (hc e).2⟩
      | some b => exact fun e he => ih e (hc e he)
  | askTime next ih | askWord next ih | askFraction next ih | transmit _ _ next ih =>
      intro x
      exact ih x (hc x)
  | tell _ next ih => exact ih hc
  | acquire lock next ih =>
      cases lock with
      | inFlight => exact ih hc
      | readBuffer => exact ⟨hc.1, fun b => ih (hc.2 b)⟩
  | release lock next ih =>
      cases lock with
      | inFlight => exact ih hc
      | readBuffer => exact ⟨hc.1, ih hc.2⟩
  | receive next ih =>
      obtain ⟨⟨b, hview, hopen, hstores⟩, hnext⟩ := hc
      refine ⟨⟨b, hview, hopen, fun datagram sender => ?_⟩, fun r => ih r (hnext r)⟩
      exact (hstores datagram sender).bind

/-! ## Parts of calls -/

theorem tends_endpoint : endpoint.Tends none := fun _ => ⟨rfl, rfl⟩

theorem tends_perform {step : Endpoint → Endpoint × α}
    (h : ∀ e, (step e).1.readBuffer = e.readBuffer) : (perform step).Tends none :=
  fun e => ⟨h e, rfl⟩

theorem tends_modify {change : Endpoint → Endpoint}
    (h : ∀ e, (change e).readBuffer = e.readBuffer) : (modify change).Tends none :=
  fun e => ⟨h e, rfl⟩

theorem tends_time : time.Tends none := fun _ => rfl

theorem tends_word : word.Tends none := fun _ => rfl

theorem tends_fraction : fraction.Tends none := fun _ => rfl

theorem tends_sendDatagram (destination : SocketAddress) (datagram : Bytes) :
    (sendDatagram destination datagram).Tends none :=
  fun _ => rfl

theorem tends_ofOption (o : Option α) : (ofOption o).Tends none := by
  cases o with
  | none => exact trivial
  | some a => exact rfl

theorem tends_notifyAll (l : List Notification) : (notifyAll l).Tends none := by
  induction l with
  | nil => exact rfl
  | cons n rest ih => exact ih

theorem tends_notify (n : Option Notification) : (notify n).Tends none := by
  cases n <;> exact rfl

/-- The lock of the messages in flight does not matter to the read buffer. -/
theorem tends_locked {c : Call α} (hc : c.Tends none) :
    (locked .inFlight c).Tends none :=
  Tends.bind hc fun _ => rfl

/-! ## Receiving and scanning -/

theorem tends_dequeue (id : UInt16) : (perform (·.dequeue id)).Tends none :=
  tends_perform fun _ => rfl

theorem tends_settle (answer : Message) : (settle answer).Tends none :=
  Tends.bind (tends_locked (tends_dequeue _)) fun _ => tends_notify _

/-- Here the buffer is opened. What the opening tells is how much of it is then in
view. -/
theorem tends_receiveMessage : receiveMessage.Tends none := by
  refine ⟨rfl, fun b e he => ⟨⟨b.maximize, ?_, rfl, ?_⟩, ?_⟩⟩
  · rw [← he]
    rfl
  · intro datagram sender
    rw [← he]
    exact ⟨_, rfl⟩
  · rintro (cause | _ | ⟨datagram, sender⟩)
    · exact ⟨rfl, rfl⟩
    · exact ⟨rfl, rfl⟩
    · exact fun _ _ => ⟨rfl, rfl⟩

theorem tends_receiveNext : receiveNext.Tends none := by
  refine Tends.bind tends_receiveMessage ?_
  rintro (cause | _ | m)
  · exact rfl
  · exact rfl
  · show Tends (if _ then _ else _) none
    split
    · exact Tends.bind (tends_settle m) fun _ => rfl
    · exact rfl

theorem tends_finish (id : UInt16) (outcome : Outcome) : (finish id outcome).Tends none :=
  Tends.bind (tends_dequeue id) fun _ => rfl

theorem tends_retry (now : Instant) (entry : Entry) : (retry now entry).Tends none := by
  refine Tends.bind tends_endpoint fun e => ?_
  split
  · exact tends_finish _ _
  · refine Tends.bind (tends_sendDatagram _ _) ?_
    rintro (cause | _)
    · exact tends_finish _ _
    · exact Tends.bind (tends_modify fun _ => rfl) fun _ => rfl

theorem tends_scan (now : Instant) (ids : List UInt16) : (scan now ids).Tends none := by
  induction ids with
  | nil => exact rfl
  | cons id rest ih =>
      have hothers (first : List Finished) :
          (scan now rest >>= fun others => pure (first ++ others)).Tends none :=
        Tends.bind ih fun _ => rfl
      refine Tends.bind tends_endpoint fun e => ?_
      split
      · exact Tends.bind (tends_retry now _) hothers
      · exact hothers []

theorem tends_checkQueues : checkQueues.Tends none := by
  refine Tends.bind (tends_locked (Tends.bind tends_time fun now => ?_)) fun _ =>
    tends_notifyAll _
  refine Tends.bind tends_endpoint fun e => ?_
  exact Tends.bind (tends_ofOption _) fun due => tends_scan now due

theorem tends_poll : poll.Tends none :=
  Tends.bind tends_receiveNext fun _ => Tends.bind tends_checkQueues fun _ => rfl

/-! ## Sending -/

theorem tends_giveUp (id : UInt16) (cause : TransportError) :
    (giveUp id cause).Tends none :=
  Tends.bind (tends_locked (tends_dequeue id)) fun _ =>
    Tends.bind (tends_notify _) fun _ => rfl

theorem tends_enqueue (id : UInt16) (destination : SocketAddress) (datagram : Bytes)
    (ticket : Option Ticket) (now : Instant) (timeout : Duration) :
    (perform (·.enqueue id destination datagram ticket now timeout)).Tends none := by
  refine tends_perform fun e => ?_
  unfold Endpoint.enqueue
  split <;> rfl

theorem tends_sendTracked (destination : SocketAddress) (id : UInt16)
    (datagram : Bytes) (ticket : Option Ticket) :
    (sendTracked destination id datagram ticket).Tends none := by
  refine Tends.bind tends_fraction fun fraction => ?_
  refine Tends.bind tends_endpoint fun e => ?_
  refine Tends.bind (tends_ofOption _) fun timeout => ?_
  refine Tends.bind (tends_locked (Tends.bind tends_time fun now => ?_)) ?_
  · exact tends_enqueue _ _ _ _ _ _
  · rintro (err | _)
    · exact rfl
    · refine Tends.bind (tends_sendDatagram _ _) ?_
      rintro (cause | _)
      · exact tends_giveUp id cause
      · exact rfl

theorem tends_send (destination : SocketAddress) (m : Message)
    (ticket : Option Ticket) : (send destination m ticket).Tends none := by
  unfold send
  split
  · exact rfl
  · refine Tends.bind (tends_perform fun _ => rfl) ?_
    rintro (err | datagram)
    · exact rfl
    · dsimp only
      split
      · exact tends_sendTracked _ _ _ _
      · exact Tends.bind (tends_sendDatagram _ _) fun _ => rfl

theorem tends_request (r : Request) : (request r).Tends none := by
  unfold request
  split
  · exact rfl
  · refine Tends.bind (tends_perform fun e => ?_) fun id => ?_
    · unfold Endpoint.takeId
      split <;> rfl
    · refine Tends.bind tends_word fun word => ?_
      exact Tends.bind (tends_send _ _ _) fun _ => rfl

end Call

/-- No operation changes the read buffer unless it has it locked. -/
theorem Operation.tends (operation : Operation) : operation.call.Tends none := by
  cases operation with
  | send destination m ticket =>
      exact Call.Tends.bind (Call.tends_send _ _ _) fun _ => rfl
  | request r => exact Call.Tends.bind (Call.tends_request r) fun _ => rfl
  | receive => exact Call.Tends.bind Call.tends_receiveNext fun _ => rfl
  | poll => exact Call.Tends.bind Call.tends_poll fun _ => rfl
  | checkQueues => exact Call.Tends.bind Call.tends_checkQueues fun _ => rfl

/-! ## Threads -/

namespace World

variable {w w' : World} {place : Nat} {deed : Deed} {action : Action}

/-- The read buffer, to the thread at a place: it sees the buffer if it has it locked. -/
def viewAt (w : World) (place : Nat) : Option Buffer :=
  if w.holder .readBuffer = some place then some w.endpoint.readBuffer else none

/-- Every thread tends the read buffer as far as it sees it. -/
def Tended (w : World) : Prop := w.All fun place th => th.rest.Tends (w.viewAt place)

theorem viewAt_of_holder (h : w.holder .readBuffer = some place) :
    w.viewAt place = some w.endpoint.readBuffer :=
  if_pos h

theorem viewAt_of_not_holder (h : w.holder .readBuffer ≠ some place) :
    w.viewAt place = none :=
  if_neg h

/-- A thread that takes an action goes on to tend the buffer. -/
theorem tends_after {α : Type} {c c' : Call α} {e : Endpoint} {threads : List Thread}
    (hc : c.Tends (w.viewAt place)) (hstep : c.Step w.endpoint action e c') :
    c'.Tends (viewAt ⟨e, w.holderAfter place action, threads⟩ place) := by
  cases hstep with
  | update change next =>
      show (next _).Tends (if w.holder .readBuffer = some place then _ else _)
      -- who holds the lock sees its own change, and others may not make one
      by_cases hholder : w.holder .readBuffer = some place
      · rw [viewAt_of_holder hholder] at hc
        rw [if_pos hholder]
        exact hc _ rfl
      · rw [viewAt_of_not_holder hholder] at hc
        rw [if_neg hholder]
        exact (hc _).2
  | acquire lock =>
      cases lock with
      | inFlight => exact hc
      | readBuffer =>
          rw [viewAt_of_holder rfl]
          exact hc.2 _
  | release lock =>
      cases lock with
      | inFlight => exact hc
      | readBuffer =>
          rw [viewAt_of_not_holder (show none ≠ some place from nofun)]
          exact hc.2
  | receive next result => exact hc.2 result
  | askTime next x | askWord next x | askFraction next x | transmit _ _ next x =>
      exact hc x
  | tell event => exact hc

/-- Without the lock it leaves the buffer as it is. -/
theorem readBuffer_eq_of_step {α : Type} {c c' : Call α} {e : Endpoint}
    (hc : c.Tends (w.viewAt place)) (hstep : c.Step w.endpoint action e c')
    (hholder : w.holder .readBuffer ≠ some place) :
    e.readBuffer = w.endpoint.readBuffer := by
  rw [viewAt_of_not_holder hholder] at hc
  cases hstep with
  | update change next => exact (hc _).1
  | _ => rfl

/-- What a thread sees depends on whether it holds the lock, and on the buffer if it
does. -/
theorem viewAt_eq (hholder : w'.holder .readBuffer = some place ↔
      w.holder .readBuffer = some place)
    (hbuffer : w.holder .readBuffer = some place →
      w'.endpoint.readBuffer = w.endpoint.readBuffer) :
    w'.viewAt place = w.viewAt place := by
  by_cases h : w.holder .readBuffer = some place
  · rw [viewAt_of_holder h, viewAt_of_holder (hholder.mpr h), hbuffer h]
  · rw [viewAt_of_not_holder h, viewAt_of_not_holder (mt hholder.mp h)]

/-- The buffer is changed by the thread that has it locked, so nobody else sees a
change. -/
theorem Tended.does (h : w.Tended) (hcustody : w.Custody) (hdoes : w.Does place deed w') :
    w'.Tended := by
  cases hdoes with
  | start operation hfresh =>
      intro p th hth
      by_cases hp : p = w.threads.length
      · subst hp
        rw [getElem?_here] at hth
        cases hth
        show operation.call.Tends (w.viewAt w.threads.length)
        rw [viewAt_of_not_holder fun hholder =>
          absurd (hcustody.places _ _ hholder) (Nat.lt_irrefl _)]
        exact operation.tends
      · obtain ⟨hlt, -⟩ := List.getElem?_eq_some_iff.mp hth
        rw [List.length_append, List.length_singleton] at hlt
        rw [List.getElem?_append_left (by omega)] at hth
        exact h p th hth
  | @act first last th action e rest hthreads hstep hfree =>
      have hhere : w.threads[first.length]? = some th := by
        rw [hthreads, getElem?_here]
      intro p th' hth'
      by_cases hp : p = first.length
      · subst hp
        rw [getElem?_here] at hth'
        cases hth'
        exact tends_after (h _ th hhere) hstep
      · rw [getElem?_elsewhere hp, ← hthreads] at hth'
        obtain ⟨held, hlocks, hheld⟩ := hcustody.threads _ th hhere
        obtain ⟨held', haction, -⟩ := hlocks.step hstep
        rw [viewAt_eq (holderAfter_elsewhere hheld haction hfree hp _)]
        · exact h p th' hth'
        · intro hholder
          refine readBuffer_eq_of_step (h _ th hhere) hstep fun hhere' => hp ?_
          exact Option.some.inj (hholder.symm.trans hhere')
  | @abandon first last th hthreads hrest =>
      intro p th' hth'
      by_cases hp : p = first.length
      · subst hp
        rw [hthreads, getElem?_here] at hth'
        cases hth'
        rw [hrest]
        exact trivial
      · have hview : viewAt { w with holder := w.holderWithout first.length } p =
            w.viewAt p :=
          viewAt_eq (holderWithout_elsewhere hp _) fun _ => rfl
        rw [hview]
        exact h p th' hth'

end World

namespace Chronicle

variable {config : Config} {first : Endpoint} {history : List (Nat × Deed)} {w : World}

theorem tended (h : Chronicle config first history w) : w.Tended := by
  induction h with
  | start =>
      intro place th hth
      cases hth
  | step hbefore hdoes ih => exact ih.does hbefore.custody hdoes

/-- While a receive waits, it has the read buffer locked and all of the buffer is in view,
whatever other calls do. A datagram that comes is received into what is in view. -/
theorem receives_in_view (h : Chronicle config first history w) {place : Nat} {th : Thread}
    (hth : w.threads[place]? = some th)
    {next : Except TransportError Reception → Call Result}
    (hwaits : th.rest = .receive next) :
    w.holder .readBuffer = some place ∧
      w.endpoint.readBuffer.length = w.endpoint.readBuffer.capacity ∧
      ∀ datagram sender, (next (.ok (some (datagram, sender)))).Stores
        w.endpoint.readBuffer.length datagram sender := by
  have htends : th.rest.Tends (w.viewAt place) := h.tended place th hth
  rw [hwaits] at htends
  obtain ⟨⟨b, hview, hopen, hstores⟩, -⟩ := htends
  by_cases hholder : w.holder .readBuffer = some place
  · rw [World.viewAt_of_holder hholder] at hview
    cases hview
    exact ⟨hholder, hopen, hstores⟩
  · rw [World.viewAt_of_not_holder hholder] at hview
    cases hview

end Chronicle

end Coap
