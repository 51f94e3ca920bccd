import Coap.Proofs.Runs.Chronicle
import Coap.Proofs.Runs.Sections

/-!
# Who holds the locks

A call holds one lock at a time. It gives back the lock that it has taken, before it
takes another one and before it is over. This is said of a call by itself, whatever the
answers are.

So among calls that run side by side, the locks tell what each of them holds: a thread
gives back only what is its own, and what a thread has taken is its own until then. No
thread holds a lock before its first action.

## Main results

* `Operation.locks` — every operation begins and ends without a lock.
* `Chronicle.custody` — a lock is held by the thread that has taken it.
-/

namespace Coap

namespace Call

variable {α β : Type} {held held₁ held₂ : Option Lock}

/-- The call holds the one lock when it begins and the other one when it is over, and in
between it gives back the lock that it holds before it takes another one. -/
def Locks : Call α → Option Lock → Option Lock → Prop
  | done _, held, held' => held' = held
  | fault, _, _ => True
  | update _ next, held, held' => ∀ e, (next e).Locks held held'
  | askTime next, held, held' => ∀ t, (next t).Locks held held'
  | askWord next, held, held' => ∀ word, (next word).Locks held held'
  | askFraction next, held, held' => ∀ fraction, (next fraction).Locks held held'
  | tell _ next, held, held' => next.Locks held held'
  | acquire lock next, held, held' => held = none ∧ next.Locks (some lock) held'
  | release lock next, held, held' => held = some lock ∧ next.Locks none held'
  | transmit _ _ next, held, held' => ∀ result, (next result).Locks held held'
  | receive next, held, held' => ∀ result, (next result).Locks held held'

theorem Locks.bind {c : Call α} {f : α → Call β} (hc : c.Locks held held₁)
    (hf : ∀ a, (f a).Locks held₁ held₂) : (c >>= f).Locks held held₂ := by
  show (c.bind f).Locks held held₂
  induction c generalizing held with
  | done a =>
      cases hc
      exact hf a
  | fault => exact trivial
  | update _ next ih | askTime next ih | askWord next ih | askFraction next ih
  | transmit _ _ next ih | receive next ih =>
      intro x
      exact ih x (hc x)
  | tell _ next ih => exact ih hc
  | acquire _ next ih | release _ next ih => exact ⟨hc.1, ih hc.2⟩

/-- The locks of a call are those of its actions. -/
theorem Locks.step {c c' : Call α} {e e' : Endpoint} {action : Action}
    (hc : c.Locks held held₁) (hstep : c.Step e action e' c') :
    ∃ held', action.Locks held held' ∧ c'.Locks held' held₁ := by
  cases hstep with
  | update change next => exact ⟨held, rfl, hc e⟩
  | askTime next t => exact ⟨held, rfl, hc t⟩
  | askWord next word => exact ⟨held, rfl, hc word⟩
  | askFraction next fraction => exact ⟨held, rfl, hc fraction⟩
  | tell event => exact ⟨held, rfl, hc⟩
  | acquire lock => exact ⟨some lock, ⟨hc.1, rfl⟩, hc.2⟩
  | release lock => exact ⟨none, ⟨hc.1, rfl⟩, hc.2⟩
  | transmit destination datagram next result => exact ⟨held, rfl, hc result⟩
  | receive next result => exact ⟨held, rfl, hc result⟩

/-! ## Parts of calls -/

theorem locks_endpoint : endpoint.Locks held held := fun _ => rfl

theorem locks_perform (step : Endpoint → Endpoint × α) :
    (perform step).Locks held held :=
  fun _ => rfl

theorem locks_modify (change : Endpoint → Endpoint) : (modify change).Locks held held :=
  fun _ => rfl

theorem locks_time : time.Locks held held := fun _ => rfl

theorem locks_word : word.Locks held held := fun _ => rfl

theorem locks_fraction : fraction.Locks held held := fun _ => rfl

theorem locks_sendDatagram (destination : SocketAddress) (datagram : Bytes) :
    (sendDatagram destination datagram).Locks held held :=
  fun _ => rfl

theorem locks_nextDatagram : nextDatagram.Locks held held := fun _ => rfl

theorem locks_ofOption (o : Option α) : (ofOption o).Locks held held := by
  cases o with
  | none => exact trivial
  | some a => exact rfl

theorem locks_notifyAll (l : List Notification) : (notifyAll l).Locks held held := by
  induction l with
  | nil => exact rfl
  | cons n rest ih => exact ih

theorem locks_notify (n : Option Notification) : (notify n).Locks held held := by
  cases n <;> exact rfl

/-- What keeps the lock that it is under may be done by a call that holds none. -/
theorem locks_locked {lock : Lock} {c : Call α} (hc : c.Locks (some lock) (some lock)) :
    (locked lock c).Locks none none :=
  ⟨rfl, Locks.bind hc fun _ => ⟨rfl, rfl⟩⟩

/-! ## Receiving and scanning -/

theorem locks_settle (answer : Message) : (settle answer).Locks none none :=
  Locks.bind (locks_locked (locks_perform _)) fun _ => locks_notify _

theorem locks_receiveMessage : receiveMessage.Locks none none := by
  refine locks_locked (Locks.bind (locks_perform _) fun exposed => ?_)
  refine Locks.bind locks_nextDatagram ?_
  rintro (cause | _ | ⟨datagram, sender⟩)
  · exact rfl
  · exact rfl
  · exact Locks.bind (locks_perform _) fun _ => rfl

theorem locks_receiveNext : receiveNext.Locks none none := by
  refine Locks.bind locks_receiveMessage ?_
  rintro (cause | _ | m)
  · exact rfl
  · exact rfl
  · show Locks (if _ then _ else _) none none
    split
    · exact Locks.bind (locks_settle m) fun _ => rfl
    · exact rfl

theorem locks_finish (id : UInt16) (outcome : Outcome) :
    (finish id outcome).Locks held held :=
  Locks.bind (locks_perform _) fun _ => rfl

theorem locks_retry (now : Instant) (entry : Entry) :
    (retry now entry).Locks held held := by
  refine Locks.bind locks_endpoint fun e => ?_
  split
  · exact locks_finish _ _
  · refine Locks.bind (locks_sendDatagram _ _) ?_
    rintro (cause | _)
    · exact locks_finish _ _
    · exact Locks.bind (locks_modify _) fun _ => rfl

theorem locks_scan (now : Instant) (ids : List UInt16) :
    (scan now ids).Locks held held := by
  induction ids with
  | nil => exact rfl
  | cons id rest ih =>
      have hothers (first : List Finished) :
          (scan now rest >>= fun others => pure (first ++ others)).Locks held held :=
        Locks.bind ih fun _ => rfl
      refine Locks.bind locks_endpoint fun e => ?_
      split
      · exact Locks.bind (locks_retry now _) hothers
      · exact hothers []

theorem locks_checkQueues : checkQueues.Locks none none := by
  refine Locks.bind (locks_locked (Locks.bind locks_time fun now => ?_)) fun _ =>
    locks_notifyAll _
  refine Locks.bind locks_endpoint fun e => ?_
  exact Locks.bind (locks_ofOption _) fun due => locks_scan now due

theorem locks_poll : poll.Locks none none :=
  Locks.bind locks_receiveNext fun _ => Locks.bind locks_checkQueues fun _ => rfl

/-! ## Sending -/

theorem locks_giveUp (id : UInt16) (cause : TransportError) :
    (giveUp id cause).Locks none none :=
  Locks.bind (locks_locked (locks_perform _)) fun _ =>
    Locks.bind (locks_notify _) fun _ => rfl

theorem locks_sendTracked (destination : SocketAddress) (id : UInt16)
    (datagram : Bytes) (ticket : Option Ticket) :
    (sendTracked destination id datagram ticket).Locks none none := by
  refine Locks.bind locks_fraction fun fraction => ?_
  refine Locks.bind locks_endpoint fun e => ?_
  refine Locks.bind (locks_ofOption _) fun timeout => ?_
  refine Locks.bind (locks_locked (Locks.bind locks_time fun now => ?_)) ?_
  · exact locks_perform _
  · rintro (err | _)
    · exact rfl
    · refine Locks.bind (locks_sendDatagram _ _) ?_
      rintro (cause | _)
      · exact locks_giveUp id cause
      · exact rfl

theorem locks_send (destination : SocketAddress) (m : Message)
    (ticket : Option Ticket) : (send destination m ticket).Locks none none := by
  unfold send
  split
  · exact rfl
  · refine Locks.bind (locks_perform _) ?_
    rintro (err | datagram)
    · exact rfl
    · dsimp only
      split
      · exact locks_sendTracked _ _ _ _
      · exact Locks.bind (locks_sendDatagram _ _) fun _ => rfl

theorem locks_request (r : Request) : (request r).Locks none none := by
  unfold request
  split
  · exact rfl
  · refine Locks.bind (locks_perform _) fun id => ?_
    refine Locks.bind locks_word fun word => ?_
    exact Locks.bind (locks_send _ _ _) fun _ => rfl

end Call

/-- No operation is under a lock when it begins or when it is over. -/
theorem Operation.locks (operation : Operation) : operation.call.Locks none none := by
  cases operation with
  | send destination m ticket =>
      exact Call.Locks.bind (Call.locks_send _ _ _) fun _ => rfl
  | request r => exact Call.Locks.bind (Call.locks_request r) fun _ => rfl
  | receive => exact Call.Locks.bind Call.locks_receiveNext fun _ => rfl
  | poll => exact Call.Locks.bind Call.locks_poll fun _ => rfl
  | checkQueues => exact Call.Locks.bind Call.locks_checkQueues fun _ => rfl

/-! ## Threads -/

namespace World

variable {w w' : World} {place : Nat} {deed : Deed} {action : Action}
  {held held' : Option Lock}

/-- The thread at a place holds this lock and no other one, or none at all. -/
def HoldsAt (w : World) (place : Nat) (held : Option Lock) : Prop :=
  ∀ lock, w.holder lock = some place ↔ held = some lock

/-- Every lock that is held is held by the thread that took it. -/
structure Custody (w : World) : Prop where
  threads : w.All fun place th =>
    ∃ held, th.rest.Locks held none ∧ w.HoldsAt place held
  places : ∀ lock place, w.holder lock = some place → place < w.threads.length

/-- An action changes what the thread that took it holds. -/
theorem holderAfter_here (hheld : w.HoldsAt place held)
    (hlocks : action.Locks held held') (lock : Lock) :
    w.holderAfter place action lock = some place ↔ held' = some lock := by
  cases action with
  | acquired lock' =>
      obtain ⟨rfl, rfl⟩ := hlocks
      show (if lock = lock' then some place else w.holder lock) = some place ↔ _
      by_cases hlock : lock = lock'
      · simp [hlock]
      · rw [if_neg hlock, hheld lock]
        simp [Ne.symm hlock]
  | released lock' =>
      obtain ⟨rfl, rfl⟩ := hlocks
      show (if lock = lock' then none else w.holder lock) = some place ↔ _
      by_cases hlock : lock = lock'
      · simp [hlock]
      · rw [if_neg hlock, hheld lock]
        simp [Ne.symm hlock]
  | _ =>
      cases hlocks
      exact hheld lock

/-- It changes nothing for the others. -/
theorem holderAfter_elsewhere (hheld : w.HoldsAt place held)
    (hlocks : action.Locks held held')
    (hfree : ∀ lock, action = .acquired lock → w.holder lock = none) {p : Nat}
    (hp : p ≠ place) (lock : Lock) :
    w.holderAfter place action lock = some p ↔ w.holder lock = some p := by
  cases action with
  | acquired lock' =>
      show (if lock = lock' then some place else w.holder lock) = some p ↔ _
      by_cases hlock : lock = lock'
      · subst hlock
        simp [hfree lock rfl, Ne.symm hp]
      · rw [if_neg hlock]
  | released lock' =>
      obtain ⟨rfl, rfl⟩ := hlocks
      show (if lock = lock' then none else w.holder lock) = some p ↔ _
      by_cases hlock : lock = lock'
      · subst hlock
        simp [(hheld lock).mpr rfl, Ne.symm hp]
      · rw [if_neg hlock]
  | _ => rfl

/-- A thread that is over holds no lock. -/
theorem Custody.holder_ne_of_done (h : w.Custody) {th : Thread}
    (hth : w.threads[place]? = some th) {result : Result} (hdone : th.rest = .done result)
    {lock : Lock} : w.holder lock ≠ some place := by
  intro hholder
  obtain ⟨held, hlocks, hheld⟩ := h.threads place th hth
  rw [hdone] at hlocks
  have hnone : none = held := hlocks
  have hsome := (hheld lock).mp hholder
  rw [← hnone] at hsome
  cases hsome

theorem holderWithout_ne (w : World) (place : Nat) (lock : Lock) :
    w.holderWithout place lock ≠ some place := by
  unfold holderWithout
  split
  · nofun
  · assumption

theorem holderWithout_elsewhere {p : Nat} (hp : p ≠ place) (lock : Lock) :
    w.holderWithout place lock = some p ↔ w.holder lock = some p := by
  unfold holderWithout
  split
  · next hown => simp [hown, Ne.symm hp]
  · rfl

/-- A thread that acts on its own locks only leaves everybody theirs. -/
theorem Custody.does (h : w.Custody) (hdoes : w.Does place deed w') : w'.Custody := by
  cases hdoes with
  | start operation hfresh =>
      have hnobody (lock : Lock) : w.holder lock ≠ some w.threads.length := fun hholder =>
        absurd (h.places lock _ hholder) (Nat.lt_irrefl _)
      constructor
      · intro p th hth
        by_cases hp : p = w.threads.length
        · subst hp
          rw [getElem?_here] at hth
          cases hth
          refine ⟨none, operation.locks, fun lock => ?_⟩
          exact iff_of_false (hnobody lock) nofun
        · obtain ⟨hlt, -⟩ := List.getElem?_eq_some_iff.mp hth
          rw [List.length_append, List.length_singleton] at hlt
          rw [List.getElem?_append_left (by omega)] at hth
          exact h.threads p th hth
      · intro lock p hholder
        have hlt := h.places lock p hholder
        rw [List.length_append]
        omega
  | @act first last th action e rest hthreads hstep hfree =>
      have hhere : w.threads[first.length]? = some th := by
        rw [hthreads, getElem?_here]
      obtain ⟨held, hlocks, hheld⟩ := h.threads _ th hhere
      obtain ⟨held', haction, hrest⟩ := hlocks.step hstep
      constructor
      · intro p th' hth'
        by_cases hp : p = first.length
        · subst hp
          rw [getElem?_here] at hth'
          cases hth'
          exact ⟨held', hrest, holderAfter_here hheld haction⟩
        · rw [getElem?_elsewhere hp, ← hthreads] at hth'
          obtain ⟨held₁, hlocks₁, hheld₁⟩ := h.threads p th' hth'
          refine ⟨held₁, hlocks₁, fun lock => ?_⟩
          exact (holderAfter_elsewhere hheld haction hfree hp lock).trans (hheld₁ lock)
      · intro lock p hholder
        have hlength : w.threads.length = first.length + (last.length + 1) := by
          rw [hthreads, List.length_append, List.length_cons]
        rw [List.length_append, List.length_cons, ← hlength]
        by_cases hp : p = first.length
        · omega
        · exact h.places lock p
            ((holderAfter_elsewhere hheld haction hfree hp lock).mp hholder)
  | @abandon first last th hthreads hrest =>
      constructor
      · intro p th' hth'
        by_cases hp : p = first.length
        · subst hp
          rw [hthreads, getElem?_here] at hth'
          cases hth'
          refine ⟨none, hrest ▸ trivial, fun lock => ?_⟩
          exact iff_of_false (w.holderWithout_ne _ lock) nofun
        · obtain ⟨held, hlocks, hheld⟩ := h.threads p th' hth'
          exact ⟨held, hlocks, fun lock =>
            (holderWithout_elsewhere hp lock).trans (hheld lock)⟩
      · intro lock p hholder
        by_cases hp : p = first.length
        · subst hp
          exact absurd hholder (w.holderWithout_ne _ lock)
        · exact h.places lock p ((holderWithout_elsewhere hp lock).mp hholder)

end World

theorem Chronicle.custody {config : Config} {first : Endpoint}
    {history : List (Nat × Deed)} {w : World} (h : Chronicle config first history w) :
    w.Custody := by
  induction h with
  | start =>
      constructor
      · intro place th hth
        cases hth
      · intro lock place hholder
        cases hholder
  | step _ hdoes ih => exact ih.does hdoes

end Coap
