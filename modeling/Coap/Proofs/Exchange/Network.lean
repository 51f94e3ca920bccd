import Coap.Proofs.Exchange.Ids
import Coap.Proofs.Exchange.Origins
import Coap.Proofs.Runs.Sections

/-!
# Two endpoints on a network

A client and a server exchange datagrams. The users of the client have it send
requests and nothing else; those of the server have it answer messages that it
has received, under their ids, and send nothing else. Both receive and scan as
often and as much at once as they like; a loop in the background is one poll after
another, and what its handler sends is sent like anything else.

What the network delivers to one side was sent by the other side before, but
nothing is said of how often, in which order or whether at all it is delivered;
and no datagram has 2³² bytes or more, which is more than any packet holds.

An exchange is told by one history of both sides. What happened on one side is a
chronicle of that side.

## Main results

* `Exchange.chronicle` — each side has its chronicle.
* `Exchange.split` — all that happened was permitted by what had happened before.
* `Exchange.posted_of_received` — a datagram that is received comes from a message
  that the other side was to send.
* `Exchange.carryOut` — what runs alone may be carried out in an exchange.
-/

namespace Coap

/-! ## Histories -/

/-- The two that talk to each other. -/
inductive Side where
  | client
  | server
  deriving DecidableEq

/-- The one that a side talks to. -/
def Side.other : Side → Side
  | client => server
  | server => client

/-- What a thread does on one side. -/
structure Happening where
  side : Side
  /-- The place of the thread. -/
  place : Nat
  deed : Deed

/-- What happened on one side. -/
def deedsOf (side : Side) (history : List Happening) : List (Nat × Deed) :=
  history.filterMap fun x => if x.side = side then some (x.place, x.deed) else none

section Histories

variable {side : Side} {history : List Happening} {place : Nat} {deed : Deed}

theorem mem_deedsOf :
    (place, deed) ∈ deedsOf side history ↔ ⟨side, place, deed⟩ ∈ history := by
  simp only [deedsOf, List.mem_filterMap]
  constructor
  · rintro ⟨⟨side', place', deed'⟩, hmem, hsame⟩
    split at hsame
    · next hside =>
        cases hsame
        cases hside
        exact hmem
    · cases hsame
  · intro hmem
    exact ⟨_, hmem, if_pos rfl⟩

theorem deedsOf_concat (x : Happening) :
    deedsOf side (history ++ [x]) = deedsOf side history ++
      if x.side = side then [(x.place, x.deed)] else [] := by
  rw [deedsOf, List.filterMap_append]
  refine congrArg (deedsOf side history ++ ·) ?_
  by_cases hside : x.side = side
  · simp only [List.filterMap_cons, if_pos hside, List.filterMap_nil]
  · simp only [List.filterMap_cons, if_neg hside, List.filterMap_nil]

end Histories

/-! ## What is permitted -/

/-- The messages that answer a message: acknowledgements with its id, with a
response to it or without, and its rejection. -/
inductive AnswerTo (m : Message) : Message → Prop where
  | ack (token : Token) : AnswerTo m (.ack token m.id)
  | piggyback (code : Code) (options : Options) (payload : Option Bytes) :
      AnswerTo m (m.piggyback code options payload)
  | reset : AnswerTo m (.reset m.id)

/-- What the users may have a side do. -/
inductive May (config : Side → Config) (history : List Happening) :
    Side → Operation → Prop where
  | receive (side) : May config history side .receive
  | poll (side) : May config history side .poll
  | checkQueues (side) : May config history side .checkQueues
  | request (r : Request) : May config history .client (.request r)
  | answer {place : Nat} {r : Except TransportError Reception}
      {m answer : Message} (destination : SocketAddress) (ticket : Option Ticket)
      (hreceived : ⟨.server, place, .acted (.received r) none⟩ ∈ history)
      (hmessage : Call.messageIn (config .server) r = some m)
      (hanswer : AnswerTo m answer) :
      May config history .server (.send destination answer ticket)

/-- A side has sent a datagram, or has at least tried to. -/
def Sent (history : List Happening) (side : Side) (datagram : Bytes) : Prop :=
  ∃ place destination result,
    ⟨side, place, .acted (.transmitted destination datagram result) none⟩ ∈
      history

/-- What may happen on a side, by what has happened on both. -/
def Permitted (config : Side → Config) (history : List Happening) (side : Side) :
    Deed → Prop
  | .started operation => May config history side operation
  | .acted (.received (.ok (some (datagram, _)))) _ =>
      Sent history side.other datagram ∧ datagram.length < 4294967296
  | _ => True

theorem permitted_acted {config : Side → Config} {history : List Happening}
    {side : Side} {action : Action} {id : Option UInt16}
    (hsent : ∀ datagram sender,
      action = .received (.ok (some (datagram, sender))) →
      Sent history side.other datagram ∧ datagram.length < 4294967296) :
    Permitted config history side (.acted action id) := by
  cases action with
  | received r =>
      match r with
      | .error cause => exact trivial
      | .ok none => exact trivial
      | .ok (some (datagram, sender)) => exact hsent datagram sender rfl
  | _ => exact trivial

theorem Sent.append {history : List Happening} {side : Side} {datagram : Bytes}
    (h : Sent history side datagram) (more : List Happening) :
    Sent (history ++ more) side datagram := by
  obtain ⟨place, destination, result, hmem⟩ := h
  exact ⟨place, destination, result, List.mem_append_left _ hmem⟩

/-- What has happened on both sides since there were two new endpoints, and how
far the sides have come. -/
inductive Exchange (config : Side → Config) :
    List Happening → (Side → World) → Prop where
  | start {random : Side → UInt32} {e : Side → Endpoint}
      (h : ∀ side, Endpoint.new (config side) (random side) = .ok (e side)) :
      Exchange config [] fun side => .start (e side)
  | step {history : List Happening} {worlds : Side → World} {side : Side}
      {place : Nat} {deed : Deed} {w : World} (h : Exchange config history worlds)
      (hdoes : (worlds side).Does place deed w)
      (hpermitted : Permitted config history side deed) :
      Exchange config (history ++ [⟨side, place, deed⟩])
        (Function.update worlds side w)

/-- The lock that is held after some actions, by the lock held before. -/
def Locks : List Action → Option Lock → Option Lock → Prop
  | [], held, held' => held' = held
  | action :: rest, held, held' =>
      ∃ held₁, action.Locks held held₁ ∧ Locks rest held₁ held'

namespace Exchange

variable {config : Side → Config} {history : List Happening}
  {worlds : Side → World}

/-! ## Taking an exchange apart -/

/-- What happens on one side is a chronicle of this side. -/
theorem chronicle (h : Exchange config history worlds) (side : Side) :
    ∃ first, Chronicle (config side) first (deedsOf side history)
      (worlds side) := by
  induction h with
  | start hnew => exact ⟨_, .start (hnew side)⟩
  | @step history worlds side' place deed w _ hdoes hpermitted ih =>
      obtain ⟨first, hbefore⟩ := ih
      refine ⟨first, ?_⟩
      rw [deedsOf_concat]
      by_cases hside : side' = side
      · subst hside
        rw [if_pos rfl, Function.update_self]
        exact hbefore.step hdoes
      · rw [if_neg hside, List.append_nil, Function.update_of_ne (Ne.symm hside)]
        exact hbefore

/-- All that happened was done by a thread of its side, and was permitted. -/
theorem split (h : Exchange config history worlds) {earlier later : List Happening}
    {side : Side} {place : Nat} {deed : Deed}
    (hsplit : history = earlier ++ ⟨side, place, deed⟩ :: later) :
    ∃ worlds₁ w, Exchange config earlier worlds₁ ∧
      (worlds₁ side).Does place deed w ∧ Permitted config earlier side deed := by
  induction h generalizing later with
  | start => 
      have hmem := List.mem_append_right earlier
        (List.mem_cons_self (a := (⟨side, place, deed⟩ : Happening)) (l := later))
      rw [← hsplit] at hmem
      cases hmem
  | step hbefore hdoes hpermitted ih =>
      rcases later.eq_nil_or_concat with rfl | ⟨rest, last, rfl⟩
      · obtain ⟨rfl, hlast⟩ := List.append_inj' hsplit rfl
        cases hlast
        exact ⟨_, _, hbefore, hdoes, hpermitted⟩
      · rw [List.concat_eq_append, ← List.cons_append,
          ← List.append_assoc] at hsplit
        exact ih (List.append_inj' hsplit rfl).1

/-- The users of a side have it do only what they may. -/
theorem may_of_started (h : Exchange config history worlds) {side : Side}
    {place : Nat} {operation : Operation}
    (hstarted : ⟨side, place, .started operation⟩ ∈ history) :
    ∃ earlier later, history =
        earlier ++ ⟨side, place, .started operation⟩ :: later ∧
      May config earlier side operation ∧
      ∃ worlds₁, Exchange config earlier worlds₁ := by
  obtain ⟨earlier, later, hsplit⟩ := List.append_of_mem hstarted
  obtain ⟨worlds₁, w, hearlier, -, hpermitted⟩ := h.split hsplit
  exact ⟨earlier, later, hsplit, hpermitted, worlds₁, hearlier⟩

/-- A datagram that is received comes from a message that the other side was to
send before. -/
theorem posted_of_received (h : Exchange config history worlds) {side : Side}
    {place : Nat} {datagram : Bytes} {sender : SocketAddress}
    (hreceived : ⟨side, place,
      .acted (.received (.ok (some (datagram, sender)))) none⟩ ∈ history) :
    ∃ earlier later place' destination result,
      history = earlier ++ ⟨side.other, place',
        .acted (.transmitted destination datagram result) none⟩ :: later ∧
      PostedAs (deedsOf side.other earlier) destination datagram ∧
      datagram.length < 4294967296 ∧
      ∃ worlds₁, Exchange config earlier worlds₁ := by
  obtain ⟨before, after, rfl⟩ := List.append_of_mem hreceived
  obtain ⟨_, _, hbefore, -, ⟨place', destination, result, hsent⟩, hlength⟩ :=
    h.split rfl
  obtain ⟨earlier, between, rfl⟩ := List.append_of_mem hsent
  obtain ⟨worlds₁, w, hearlier, hdoes, -⟩ := hbefore.split rfl
  obtain ⟨first, hchronicle⟩ := hearlier.chronicle side.other
  exact ⟨earlier, _, place', destination, result, List.append_assoc _ _ _,
    hchronicle.posted_of_transmitted hdoes, hlength, worlds₁, hearlier⟩

/-! ## Putting an exchange together -/

/-- A call that runs alone may take its actions in an exchange, one after the
other, if the datagrams that it receives were sent. -/
theorem proceed {side : Side} {first : List Thread} {c : Call Result}
    {e e' : Endpoint} {actions : List Action} {value : Option Result}
    (hruns : c.Runs e actions e' value) {history : List Happening}
    {worlds : Side → World} {held held' : Option Lock} {th : Thread}
    (h : Exchange config history worlds)
    (hworld : worlds side =
      ⟨e, World.heldBy first.length held, first ++ [th]⟩)
    (hrest : th.rest = c) (hlocks : Locks actions held held')
    (hsent : ∀ datagram sender,
      .received (.ok (some (datagram, sender))) ∈ actions →
      Sent history side.other datagram ∧ datagram.length < 4294967296) :
    ∃ history' th', history <+: history' ∧
      Exchange config history' (Function.update worlds side
        ⟨e', World.heldBy first.length held', first ++ [th']⟩) ∧
      ∀ action ∈ actions, action ≠ .updated →
        ⟨side, first.length, .acted action none⟩ ∈ history' := by
  induction hruns generalizing history worlds held th with
  | done e a | fault e =>
      cases hlocks
      refine ⟨history, th, List.prefix_rfl, ?_, fun _ hmem => by cases hmem⟩
      rw [← hworld, Function.update_eq_self]
      exact h
  | @step e e₁ e₂ c c₁ action actions value hstep hmore ih =>
      obtain ⟨held₁, hlock, hlocks⟩ := hlocks
      subst hrest
      have hfree : ∀ lock, action = .acquired lock →
          World.heldBy first.length held lock = none := by
        rintro lock rfl
        rw [hlock.1]
        rfl
      have hholder := World.holderAfter_eq_heldBy
        ⟨e, World.heldBy first.length held, first ++ [th]⟩ rfl hlock
      have hdoes : (worlds side).Does first.length (.acted action (e.issued? e₁))
          ⟨e₁, World.heldBy first.length held₁,
            first ++ [th.after e.inFlight e₁.inFlight action c₁]⟩ := by
        rw [hworld, ← hholder]
        exact .act rfl hstep hfree
      have hbefore := h.step hdoes (permitted_acted fun datagram sender hreceived =>
        hsent datagram sender (hreceived ▸ List.mem_cons_self))
      obtain ⟨history', th', hprefix, hexchange, hacted⟩ := ih hbefore
        (Function.update_self _ _ _) rfl hlocks fun datagram sender hreceived =>
          (hsent datagram sender (List.mem_cons_of_mem _ hreceived)).imp_left
            fun hsent => hsent.append _
      rw [Function.update_idem] at hexchange
      refine ⟨history', th', (List.prefix_append _ _).trans hprefix, hexchange, ?_⟩
      intro action' hmem hother
      rcases List.mem_cons.mp hmem with rfl | hlater
      · have hcounter := congrArg Endpoint.counter (hstep.endpoint_eq hother)
        rw [Endpoint.issued?_of_counter_eq hcounter] at hprefix
        exact hprefix.subset (List.mem_append_right _ (List.mem_singleton_self _))
      · exact hacted action' hlater hother

/-- An operation that runs alone may be carried out in an exchange, from its start
to its end. -/
theorem carryOut (h : Exchange config history worlds) (side : Side)
    (operation : Operation) {e e' : Endpoint} {threads : List Thread}
    {actions : List Action} {value : Option Result}
    (hworld : worlds side = ⟨e, fun _ => none, threads⟩)
    (hmay : May config history side operation)
    (hfresh : ∀ ticket ∈ (worlds side).issued, operation.ticket ≠ some ticket)
    (hruns : operation.call.Runs e actions e' value)
    (hlocks : Locks actions none none)
    (hsent : ∀ datagram sender,
      .received (.ok (some (datagram, sender))) ∈ actions →
      Sent history side.other datagram ∧ datagram.length < 4294967296) :
    ∃ history' th, history <+: history' ∧
      Exchange config history' (Function.update worlds side
        ⟨e', fun _ => none, threads ++ [th]⟩) ∧
      ⟨side, threads.length, .started operation⟩ ∈ history' ∧
      ∀ action ∈ actions, action ≠ .updated →
        ⟨side, threads.length, .acted action none⟩ ∈ history' := by
  have hstart : (worlds side).Does threads.length (.started operation)
      ⟨e, fun _ => none, threads ++ [.start operation]⟩ := by
    rw [hworld] at hfresh ⊢
    exact .start operation hfresh
  have hbegun : Exchange config
      (history ++ [⟨side, threads.length, .started operation⟩]) _ :=
    h.step hstart hmay
  obtain ⟨history', th, hprefix, hexchange, hacted⟩ :=
    proceed hruns hbegun (Function.update_self _ _ _) rfl hlocks
      fun datagram sender hreceived =>
        (hsent datagram sender hreceived).imp_left fun hsent => hsent.append _
  rw [Function.update_idem] at hexchange
  exact ⟨history', th, (List.prefix_append _ _).trans hprefix, hexchange,
    hprefix.subset (List.mem_append_right _ (List.mem_singleton_self _)), hacted⟩

end Exchange

end Coap
