import Coap.Proofs.Runs.World

/-!
# What a call owes

A call that takes an entry out of flight owes its outcome to the holder of the
entry's ticket, until it tells it. `Call.Accounts` says of a call that,
whatever the state and the answers it meets, it puts no ticket in flight but
those it has a right to, tells nobody to whom it owes nothing, and breaks off
only when it owes nothing; and it says what is left of its rights and debts
when it is over.

## Main results

* `Accounts.bind` — calls that are put together account for what their parts
  do.
* `Accounts.step` — every action of a call that accounts for what it does is
  covered by its rights and debts.
-/

namespace Coap

/-! ## Debts -/

/-- Who is to be told of which message. -/
abbrev Due := Ticket × UInt16

/-- Who is to be told when an entry departs. -/
def Entry.due (entry : Entry) : Option Due :=
  entry.ticket.map fun ticket => (ticket, entry.id)

/-- Who is to be told when some entries have departed. -/
def dues (l : List Entry) : Multiset Due := l.filterMap Entry.due

/-- Who was told of which message. -/
def Notification.due (n : Notification) : Due := (n.ticket, n.id)

/-- What was told in some notifications. -/
def settled (l : List Notification) : Multiset Due := l.map Notification.due

/-- The tickets of some entries. -/
def tickets (l : List Entry) : Multiset Ticket := l.filterMap (·.ticket)

@[simp] theorem dues_nil : dues [] = 0 := rfl

@[simp] theorem dues_append (l₁ l₂ : List Entry) :
    dues (l₁ ++ l₂) = dues l₁ + dues l₂ := by
  simp only [dues, List.filterMap_append, Multiset.coe_add]

@[simp] theorem settled_nil : settled [] = 0 := rfl

@[simp] theorem settled_append (l₁ l₂ : List Notification) :
    settled (l₁ ++ l₂) = settled l₁ + settled l₂ := by
  simp only [settled, List.map_append, Multiset.coe_add]

theorem settled_cons (n : Notification) (l : List Notification) :
    settled (n :: l) = settled [n] + settled l :=
  settled_append [n] l

@[simp] theorem tickets_nil : tickets [] = 0 := rfl

@[simp] theorem tickets_append (l₁ l₂ : List Entry) :
    tickets (l₁ ++ l₂) = tickets l₁ + tickets l₂ := by
  simp only [tickets, List.filterMap_append, Multiset.coe_add]

theorem tickets_new (id : UInt16) (destination : SocketAddress) (message : Bytes)
    (ticket : Option Ticket) (now : Instant) (timeout : Duration) :
    tickets [.new id destination message ticket now timeout] = ticket.toList := by
  cases ticket <;> rfl

/-- The notification that an entry departed tells what is due. -/
theorem settled_notify (entry : Entry) (outcome : Outcome) :
    settled (entry.notify outcome).toList = dues [entry] := by
  rcases entry with ⟨id, destination, message, ticket, transmissions, timer⟩
  cases ticket <;> rfl

/-- The entries that joined in a change of the queue. -/
def InFlight.arrivals (q q' : InFlight) : List Entry := (q.joined q').map (·.2)

/-- The entries that departed in a change of the queue. -/
def InFlight.departures (q q' : InFlight) : List Entry :=
  (q.departed q').map (·.2)

@[simp] theorem InFlight.arrivals_self (q : InFlight) : q.arrivals q = [] := by
  rw [arrivals, joined_self, List.map_nil]

@[simp] theorem InFlight.departures_self (q : InFlight) : q.departures q = [] := by
  rw [departures, departed_self, List.map_nil]

/-! ## Accounts -/

namespace Call

variable {α β : Type}

/-- The notifications that an event is. -/
def notifications : Event → List Notification
  | .notified n => [n]
  | _ => []

/-- From the given rights and debts on, a call accounts for what it does, and
its value, rights and debts in the end are as `post` says. -/
def Accounts : Call α → Multiset Ticket → Multiset Due →
    (α → Multiset Ticket → Multiset Due → Prop) → Prop
  | done a, rights, debts, post => post a rights debts
  | fault, _, debts, _ => debts = 0
  | update change next, rights, debts, post =>
      ∀ e : Endpoint, e.inFlight.Ordered →
        e.inFlight.Evolves (change e).inFlight ∧
        ∃ rights', rights =
            tickets (e.inFlight.arrivals (change e).inFlight) + rights' ∧
          (next e).Accounts rights'
            (dues (e.inFlight.departures (change e).inFlight) + debts) post
  | askTime next, rights, debts, post => ∀ t, (next t).Accounts rights debts post
  | askWord next, rights, debts, post => ∀ w, (next w).Accounts rights debts post
  | askFraction next, rights, debts, post =>
      ∀ x, (next x).Accounts rights debts post
  | tell event next, rights, debts, post =>
      ∃ debts', debts = settled (notifications event) + debts' ∧
        next.Accounts rights debts' post
  | acquire _ next, rights, debts, post => next.Accounts rights debts post
  | release _ next, rights, debts, post => next.Accounts rights debts post
  | transmit _ _ next, rights, debts, post =>
      ∀ r, (next r).Accounts rights debts post
  | receive next, rights, debts, post => ∀ r, (next r).Accounts rights debts post

variable {rights : Multiset Ticket} {debts : Multiset Due}
  {post : α → Multiset Ticket → Multiset Due → Prop}

/-- A change that leaves the queue as it is needs no rights and makes no
debts. -/
theorem Accounts.unchanged {c : Call α} {q q' : InFlight} (hq : q.Ordered)
    (hqueue : q' = q) (h : c.Accounts rights debts post) :
    q.Evolves q' ∧ ∃ rights',
      rights = tickets (q.arrivals q') + rights' ∧
      c.Accounts rights' (dues (q.departures q') + debts) post := by
  subst hqueue
  refine ⟨hq.evolves_self, rights, ?_, ?_⟩
  · rw [InFlight.arrivals_self, tickets_nil, zero_add]
  · rw [InFlight.departures_self, dues_nil, zero_add]
    exact h

/-- A call that goes on with another one accounts for what it does if what it
ends with suffices for the other one. -/
theorem Accounts.bind {c : Call α} {f : α → Call β}
    {post' : β → Multiset Ticket → Multiset Due → Prop}
    (h : c.Accounts rights debts fun a rights debts =>
      (f a).Accounts rights debts post') :
    (c >>= f).Accounts rights debts post' := by
  change (c.bind f).Accounts rights debts post'
  induction c generalizing rights debts with
  | done a => exact h
  | fault => exact h
  | update change next ih =>
      intro e he
      obtain ⟨hevolves, rights', hrights, hnext⟩ := h e he
      exact ⟨hevolves, rights', hrights, ih e hnext⟩
  | askTime next ih | askWord next ih | askFraction next ih
  | transmit _ _ next ih | receive next ih =>
      intro x
      exact ih x (h x)
  | tell event next ih =>
      obtain ⟨debts', hdebts, hnext⟩ := h
      exact ⟨debts', hdebts, ih hnext⟩
  | acquire lock next ih | release lock next ih => exact ih h

theorem notification?_told (event : Event) :
    (Action.told event).notification?.toList = notifications event := by
  cases event <;> rfl

/-- An action of a call is covered by its rights and debts, and what is left
of them covers the rest. -/
theorem Accounts.step {c c' : Call α} {e e' : Endpoint} {action : Action}
    (h : c.Accounts rights debts post) (he : e.inFlight.Ordered)
    (hstep : c.Step e action e' c') :
    e.inFlight.Evolves e'.inFlight ∧ ∃ rights' debts',
      rights = tickets (e.inFlight.arrivals e'.inFlight) + rights' ∧
      dues (e.inFlight.departures e'.inFlight) + debts =
        settled action.notification?.toList + debts' ∧
      c'.Accounts rights' debts' post := by
  -- all actions but an update leave the queue as it is
  have hidle {debts' : Multiset Due} {c' : Call α}
      (hdebts : debts = settled action.notification?.toList + debts')
      (hnext : c'.Accounts rights debts' post) :
      e.inFlight.Evolves e.inFlight ∧ ∃ rights' debts',
        rights = tickets (e.inFlight.arrivals e.inFlight) + rights' ∧
        dues (e.inFlight.departures e.inFlight) + debts =
          settled action.notification?.toList + debts' ∧
        c'.Accounts rights' debts' post := by
    refine ⟨he.evolves_self, rights, debts', ?_, ?_, hnext⟩
    · rw [InFlight.arrivals_self, tickets_nil, zero_add]
    · rw [InFlight.departures_self, dues_nil, zero_add]
      exact hdebts
  have hsilent : debts = settled [] + debts := (zero_add debts).symm
  cases hstep with
  | update change next =>
      obtain ⟨hevolves, rights', hrights, hnext⟩ := h e he
      refine ⟨hevolves, rights', _, hrights, ?_, hnext⟩
      exact (zero_add _).symm
  | askTime next t => exact hidle hsilent (h t)
  | askWord next word => exact hidle hsilent (h word)
  | askFraction next fraction => exact hidle hsilent (h fraction)
  | tell event =>
      obtain ⟨debts', hdebts, hnext⟩ := h
      rw [← notification?_told] at hdebts
      exact hidle hdebts hnext
  | acquire lock => exact hidle hsilent h
  | release lock => exact hidle hsilent h
  | transmit destination datagram next result => exact hidle hsilent (h result)
  | receive next result => exact hidle hsilent (h result)

/-- A call that is over owes nothing if it never ends owing something. -/
theorem Accounts.debts_eq_zero {c : Call α} (h : c.Accounts rights debts post)
    (hpost : ∀ a rights debts, post a rights debts → debts = 0)
    (hover : c.IsOver) : debts = 0 := by
  cases c with
  | done a => exact hpost a rights debts h
  | fault => exact h
  | _ => cases hover

end Call

end Coap
