import Coap.Proofs.Runs.Invariant

/-!
# The books of a call

A call knows of the endpoint only what it has done itself: which messages it
put in flight and took out, what it told, and which of its own messages it has
found to be gone. Other calls cannot make any of this untrue, since a number
that was used is never used again. `Call.Upholds` says of a call that its
books are at every point as `I` says, where `I` may ask for more while the call
waits; and that they are as `post` says when the call is over.

## Main results

* `Upholds.bind` — calls that are put together uphold what their parts do.
* `Upholds.step` — every action of a call that upholds something enters the
  books, and the rest upholds it from there.
* `upholds_dequeue` — what a call takes out has the id it was asked for, and
  its own message with that id is gone then.
-/

namespace Coap

/-! ## Books -/

/-- What a call has done so far, and the numbers of messages of its own that
it has found to be gone. -/
structure Books where
  queued : List (Nat × Entry)
  taken : List (Nat × Entry)
  told : List Notification
  gone : List Nat

namespace Books

/-- The books of a call that has done nothing. -/
def empty : Books := ⟨[], [], [], []⟩

/-- A call with these books may find the queue in this state: what is kept
under the number of a message of its own has the id of that message. -/
def Recognizes (b : Books) (q : InFlight) : Prop :=
  ∀ p ∈ b.queued, ∀ p' ∈ q.entries, p'.1 = p.1 → p'.2.id = p.2.id

/-- What may be found to be gone by a change that leaves this queue. -/
def MayMiss (b : Books) (q' : InFlight) (gone : List Nat) : Prop :=
  ∀ seq ∈ gone, seq ∈ b.gone ∨ seq ∈ b.queued.map (·.1) ∧ seq ∉ q'.seqs

/-- The books after a change of the queue. -/
def after (b : Books) (q q' : InFlight) (gone : List Nat) : Books where
  queued := b.queued ++ q.joined q'
  taken := b.taken ++ q.departed q'
  told := b.told
  gone := gone

theorem mayMiss_gone (b : Books) (q' : InFlight) : b.MayMiss q' b.gone :=
  fun _ h => .inl h

theorem after_self (b : Books) (q : InFlight) : b.after q q b.gone = b := by
  rw [after, InFlight.joined_self, InFlight.departed_self, List.append_nil,
    List.append_nil]

end Books

namespace Call

variable {α β : Type}

/-- Whether a call is at an action at which it may have to wait. -/
def waits : Call α → Bool
  | acquire _ _ => true
  | transmit _ _ _ => true
  | receive _ => true
  | _ => false

/-- From these books on, whatever the state and the answers it meets, the
books of a call are at every point as `I` says, which is told whether the call
waits there; and they are as `post` says in the end. -/
def Upholds (I : Bool → Books → Prop) :
    Call α → Books → (α → Books → Prop) → Prop
  | done a, b, post => post a b
  | fault, b, _ => I false b
  | update change next, b, post =>
      I false b ∧ ∀ e : Endpoint, e.inFlight.Sound →
        b.Recognizes e.inFlight → ∃ gone,
          b.MayMiss (change e).inFlight gone ∧
          (next e).Upholds I (b.after e.inFlight (change e).inFlight gone) post
  | askTime next, b, post => I false b ∧ ∀ t, (next t).Upholds I b post
  | askWord next, b, post => I false b ∧ ∀ word, (next word).Upholds I b post
  | askFraction next, b, post =>
      I false b ∧ ∀ fraction, (next fraction).Upholds I b post
  | tell event next, b, post =>
      I false b ∧ next.Upholds I
        { b with told := b.told ++ (Action.told event).notification?.toList } post
  | acquire _ next, b, post => I true b ∧ next.Upholds I b post
  | release _ next, b, post => I false b ∧ next.Upholds I b post
  | transmit _ _ next, b, post =>
      I true b ∧ ∀ result, (next result).Upholds I b post
  | receive next, b, post =>
      I true b ∧ ∀ result, (next result).Upholds I b post

variable {I : Bool → Books → Prop} {b : Books}

section Rules

variable {post : α → Books → Prop}

/-- A call that goes on with another one upholds what the other one upholds
from the books that the first one ends with. -/
theorem Upholds.bind {c : Call α} {f : α → Call β} {post' : β → Books → Prop}
    (h : c.Upholds I b fun a b => (f a).Upholds I b post') :
    (c >>= f).Upholds I b post' := by
  change (c.bind f).Upholds I b post'
  induction c generalizing b with
  | done a => exact h
  | fault => exact h
  | update change next ih =>
      refine ⟨h.1, ?_⟩
      intro e he hb
      obtain ⟨gone, hgone, hnext⟩ := h.2 e he hb
      exact ⟨gone, hgone, ih e hnext⟩
  | askTime next ih | askWord next ih | askFraction next ih
  | transmit _ _ next ih | receive next ih =>
      exact ⟨h.1, fun x => ih x (h.2 x)⟩
  | tell event next ih | acquire lock next ih | release lock next ih =>
      exact ⟨h.1, ih h.2⟩

theorem Upholds.mono {c : Call α} {post' : α → Books → Prop}
    (h : c.Upholds I b post) (hpost : ∀ a b, post a b → post' a b) :
    c.Upholds I b post' := by
  induction c generalizing b with
  | done a => exact hpost a b h
  | fault => exact h
  | update change next ih =>
      refine ⟨h.1, ?_⟩
      intro e he hb
      obtain ⟨gone, hgone, hnext⟩ := h.2 e he hb
      exact ⟨gone, hgone, ih e hnext⟩
  | askTime next ih | askWord next ih | askFraction next ih
  | transmit _ _ next ih | receive next ih =>
      exact ⟨h.1, fun x => ih x (h.2 x)⟩
  | tell event next ih | acquire lock next ih | release lock next ih =>
      exact ⟨h.1, ih h.2⟩

/-- The books are as they should be at every point. -/
theorem Upholds.holds {c : Call α} (h : c.Upholds I b post)
    (hpost : ∀ a b, post a b → I false b) : I c.waits b := by
  cases c with
  | done a => exact hpost a b h
  | fault => exact h
  | _ => exact h.1

/-- An action enters the books, and the rest goes on from there. -/
theorem Upholds.step {c c' : Call α} {e e' : Endpoint} {action : Action}
    (h : c.Upholds I b post) (he : e.inFlight.Sound)
    (hb : b.Recognizes e.inFlight) (hstep : c.Step e action e' c') :
    ∃ gone, b.MayMiss e'.inFlight gone ∧
      c'.Upholds I
        { b.after e.inFlight e'.inFlight gone with
          told := b.told ++ action.notification?.toList } post := by
  -- all actions but an update leave the queue as it is
  have hidle {told : List Notification} {c' : Call α}
      (hnext : c'.Upholds I { b with told := told } post) :
      ∃ gone, b.MayMiss e.inFlight gone ∧
        c'.Upholds I
          { b.after e.inFlight e.inFlight gone with told := told } post := by
    refine ⟨b.gone, b.mayMiss_gone _, ?_⟩
    rw [Books.after_self]
    exact hnext
  have hsilent {c' : Call α} (hnext : c'.Upholds I b post) :
      c'.Upholds I { b with told := b.told ++ [] } post := by
    rw [List.append_nil]
    exact hnext
  cases hstep with
  | update change next =>
      obtain ⟨gone, hgone, hnext⟩ := h.2 e he hb
      refine ⟨gone, hgone, ?_⟩
      have htold : b.told ++ (Action.updated.notification?).toList = b.told :=
        List.append_nil _
      rw [htold]
      exact hnext
  | askTime next t => exact hidle (hsilent (h.2 t))
  | askWord next word => exact hidle (hsilent (h.2 word))
  | askFraction next fraction => exact hidle (hsilent (h.2 fraction))
  | tell event => exact hidle h.2
  | acquire lock => exact hidle (hsilent h.2)
  | release lock => exact hidle (hsilent h.2)
  | transmit destination datagram next result => exact hidle (hsilent (h.2 result))
  | receive next result => exact hidle (hsilent (h.2 result))

/-! ## Actions -/

theorem upholds_update {change : Endpoint → Endpoint} {next : Endpoint → Call α}
    (hb : I false b) (hqueue : ∀ e, (change e).inFlight = e.inFlight)
    (h : ∀ e, (next e).Upholds I b post) :
    (update change next).Upholds I b post := by
  refine ⟨hb, ?_⟩
  intro e _ _
  refine ⟨b.gone, b.mayMiss_gone _, ?_⟩
  rw [hqueue, Books.after_self]
  exact h e

theorem upholds_endpoint {post : Endpoint → Books → Prop} (hb : I false b)
    (h : ∀ e, post e b) : endpoint.Upholds I b post :=
  upholds_update hb (fun _ => rfl) h

theorem upholds_perform {step : Endpoint → Endpoint × α} (hb : I false b)
    (hqueue : ∀ e, (step e).1.inFlight = e.inFlight) (h : ∀ a, post a b) :
    (perform step).Upholds I b post :=
  upholds_update hb hqueue fun e => h (step e).2

theorem upholds_ofOption {o : Option α} (hb : I false b) (h : ∀ a, post a b) :
    (ofOption o).Upholds I b post := by
  cases o with
  | none => exact hb
  | some a => exact h a

theorem upholds_locked {lock : Lock} {c : Call α} (hb : I true b)
    (h : c.Upholds I b fun a b => I false b ∧ post a b) :
    (locked lock c).Upholds I b post :=
  ⟨hb, Upholds.bind h⟩

end Rules

theorem upholds_notify {n : Option Notification} {post : Unit → Books → Prop}
    (hb : I false b) (h : post () { b with told := b.told ++ n.toList }) :
    (notify n).Upholds I b post := by
  cases n with
  | none =>
      rw [Option.toList_none, List.append_nil] at h
      exact h
  | some n => exact ⟨hb, h⟩

theorem upholds_notifyAll {l : List Notification} {post : Unit → Books → Prop}
    (hb : ∀ told, I false { b with told := told })
    (h : ∀ told, post () { b with told := told }) :
    (notifyAll l).Upholds I b post := by
  induction l generalizing b with
  | nil => exact h b.told
  | cons n rest ih => exact ⟨hb b.told, ih (fun told => hb told) fun told => h told⟩

theorem upholds_noteRetransmission {id : UInt16} {now : Instant}
    {post : Unit → Books → Prop} (hb : I false b) (h : post () b) :
    (modify (·.noteRetransmission id now)).Upholds I b post := by
  refine ⟨hb, ?_⟩
  intro e _ _
  refine ⟨b.gone, b.mayMiss_gone _, ?_⟩
  simp only [Upholds, Endpoint.noteRetransmission, Books.after,
    InFlight.joined_update, InFlight.departed_update, List.append_nil]
  exact h

theorem upholds_enqueue {id : UInt16} {destination : SocketAddress}
    {message : Bytes} {ticket : Option Ticket} {now : Instant}
    {timeout : Duration} {post : Except SendError Unit → Books → Prop}
    (hb : I false b)
    (hok : ∀ seq, post (.ok ()) { b with queued := b.queued ++
      [(seq, .new id destination message ticket now timeout)] })
    (herror : ∀ err, post (.error err) b) :
    (perform (·.enqueue id destination message ticket now timeout)).Upholds
      I b post := by
  refine ⟨hb, ?_⟩
  intro e he _
  refine ⟨b.gone, b.mayMiss_gone _, ?_⟩
  cases hadd : e.inFlight.add id destination message ticket now timeout with
  | error err =>
      simp only [Endpoint.enqueue, hadd, Books.after_self]
      exact herror err
  | ok q =>
      simp only [Endpoint.enqueue, hadd, Books.after,
        he.toOrdered.joined_add hadd, InFlight.departed_add hadd,
        List.append_nil]
      exact hok e.inFlight.nextSeq

end Call

/-- What departs when an id is removed has that id. -/
theorem InFlight.Sound.departed_remove_eq {q : InFlight} (hq : q.Sound)
    (id : UInt16) : ∃ found : Option (Nat × Entry),
      q.departed (q.remove id).2 = found.toList ∧
      (q.remove id).1 = found.map (·.2) ∧ ∀ p ∈ found, p.2.id = id := by
  have hid : ∀ p ∈ q.departed (q.remove id).2, p.2.id = id := by
    intro p hp
    obtain ⟨hmem, hgone⟩ := List.mem_filter.mp hp
    by_contra hne
    have hstays := hq.mem_remove.mpr ⟨hmem, hne⟩
    exact (of_decide_eq_true hgone) (mem_seqs_of_mem hstays)
  have hentry := hq.toOrdered.departed_remove id
  cases hfound : (q.remove id).1 with
  | none =>
      rw [hfound, Option.toList_none, List.map_eq_nil_iff] at hentry
      exact ⟨none, hentry, rfl, fun _ h => by cases h⟩
  | some entry =>
      rw [hfound, Option.toList_some, List.map_eq_singleton_iff] at hentry
      obtain ⟨p, hp, rfl⟩ := hentry
      refine ⟨some p, hp, rfl, ?_⟩
      intro p' hp'
      cases hp'
      exact hid p (hp ▸ List.mem_cons_self)

namespace Call

variable {I : Bool → Books → Prop} {b : Books}

/-- A call that takes out the message with some id finds a message with that
id or none, and its own message with that id is gone then. -/
theorem upholds_dequeue {id : UInt16} {post : Option Entry → Books → Prop}
    (hb : I false b)
    (h : ∀ found : Option (Nat × Entry), (∀ p ∈ found, p.2.id = id) →
      post (found.map (·.2))
        { b with
          taken := b.taken ++ found.toList
          gone := b.gone ++ (b.queued.filter (·.2.id == id)).map (·.1) }) :
    (perform (·.dequeue id)).Upholds I b post := by
  refine ⟨hb, ?_⟩
  intro e he hrecognizes
  refine ⟨b.gone ++ (b.queued.filter (·.2.id == id)).map (·.1), ?_, ?_⟩
  · intro seq hseq
    rcases List.mem_append.mp hseq with hgone | hown
    · exact .inl hgone
    · obtain ⟨own, hmem, rfl⟩ := List.mem_map.mp hown
      obtain ⟨hqueued, hid⟩ := List.mem_filter.mp hmem
      refine .inr ⟨List.mem_map_of_mem hqueued, ?_⟩
      intro hstays
      obtain ⟨entry, hentry⟩ := InFlight.mem_seqs.mp hstays
      obtain ⟨hold, hne⟩ := he.mem_remove.mp hentry
      exact hne ((hrecognizes own hqueued _ hold rfl).trans (beq_iff_eq.mp hid))
  · obtain ⟨found, hdeparted, hentry, hid⟩ := he.departed_remove_eq id
    have hafter := h found hid
    rw [← hdeparted] at hafter
    simp only [Upholds, Endpoint.dequeue, Books.after, InFlight.joined_remove,
      List.append_nil, hentry]
    exact hafter

end Call

end Coap
