import Coap.Proofs.Calls.Precedence
import Coap.Proofs.Noise.Beside
import Coap.Proofs.Noise.Moments
import Coap.Proofs.Noise.Opened
import Coap.Proofs.Outcome.Cancellation

/-!
# Noise goes unnoticed

What a receive gives is the message in its own datagram, and what it does to the messages
in flight is to take out the one that this message answers. If there is none, nobody else
can tell that the datagram came.

That is said of whole runs. From a run with a receive that took nothing out, its actions
can be left out, wherever they stand among those of others: all other threads go on as
they did, and so does the queue. And where the locks are free, a receive that has not
begun may be given such a datagram, whatever the others go on to do.

## Main results

* `Chronicle.still` — a receive that took nothing out can be left out.
* `Chronicle.exists_noise` — noise can be put in.
* `noise_changes_nothing` — both, with what a single receive makes of its datagram.
-/

namespace Coap

namespace World

variable {v w : World} {k : Nat}

/-- Nothing tells two worlds apart but what the thread at one place has come to, and the
bytes that are left in the read buffer. -/
structure SameBut (k : Nat) (v w : World) : Prop where
  endpoint : v.endpoint.Alike w.endpoint
  told : ∀ ticket, w.told ticket = v.told ticket
  threads : ∀ p, p ≠ k → w.threads[p]? = v.threads[p]?

theorem Beside.sameBut {other : Thread} (h : Beside k other v w) : v.SameBut k w where
  endpoint := h.endpoint
  told := h.told_eq
  threads := by
    intro p hp
    rw [h.threads, List.getElem?_set_ne (Ne.symm hp)]

/-- The datagram answers no message that is in flight, and the locks that are taken to
receive it are free. -/
structure Noise (config : Config) (v : World) (datagram : Bytes) (sender : SocketAddress) :
    Prop where
  unanswered : ∀ m, Call.messageIn config (.ok (some (datagram, sender))) = some m →
    ∀ seq entry, ¬v.endpoint.Answered m seq entry
  readBuffer : v.holder .readBuffer = none
  inFlight : ∀ m, Call.answerIn config (.ok (some (datagram, sender))) = some m →
    v.holder .inFlight = none

end World

/-! ## Leaving noise out -/

/-- The thread is started. -/
def Deed.IsStart : Deed → Prop
  | .started _ => True
  | _ => False

instance : DecidablePred Deed.IsStart
  | .started _ => .isTrue trivial
  | .acted _ _ => .isFalse id
  | .abandoned => .isFalse id

/-- The history in which the thread at a place is started and does nothing. -/
def stilled (k : Nat) (history : List (Nat × Deed)) : List (Nat × Deed) :=
  history.filter fun p => p.1 ≠ k ∨ p.2.IsStart

theorem stilled_concat (k : Nat) (history : List (Nat × Deed)) (place : Nat)
    (deed : Deed) :
    stilled k (history ++ [(place, deed)]) = stilled k history ++
      if place ≠ k ∨ deed.IsStart then [(place, deed)] else [] := by
  rw [stilled, List.filter_append]
  refine congrArg (stilled k history ++ ·) ?_
  by_cases hkept : place ≠ k ∨ deed.IsStart
  · rw [if_pos hkept]
    exact List.filter_eq_self.mpr (by simpa using hkept)
  · rw [if_neg hkept]
    exact List.filter_eq_nil_iff.mpr (by simpa using hkept)

namespace Chronicle

variable {config : Config} {first : Endpoint} {history : List (Nat × Deed)}
  {v v₁ : World} {k place : Nat} {deed : Deed}

/-- Who has taken nothing out has told nobody. -/
theorem told_of_taken_eq_nil (h : Chronicle config first history v) {th : Thread}
    (hth : v.threads[k]? = some th) (htaken : th.taken = []) : th.told = [] := by
  rw [List.eq_nil_iff_forall_not_mem]
  intro n hn
  have hticket := h.reachable.balanced.ticket_of_told (List.mem_of_getElem? hth) hn
  rw [htaken] at hticket
  cases hticket

/-- A step of a receive that takes nothing out makes no difference. -/
theorem alike_of_idle (h : Chronicle config first history v) (hdoes : v.Does k deed v₁)
    (hidle : ∀ th, v₁.threads[k]? = some th →
      th.operation = .receive ∧ th.taken = []) :
    v.endpoint.Alike v₁.endpoint := by
  have hsound := h.fits.endpoint.sound
  have htraced := h.traced
  cases hdoes with
  | start => exact .refl _
  | abandon => exact .refl _
  | @act front back th action e rest hthreads hstep hfree =>
      obtain ⟨hreceive, htaken⟩ := hidle _ (World.getElem?_here _ _ _)
      have hhere : v.threads[front.length]? = some th := by
        rw [hthreads, World.getElem?_here]
      obtain ⟨moments, hpath, -, -, -⟩ := htraced _ th hhere
      have hoperation : th.operation = .receive := hreceive
      rw [hoperation] at hpath
      have hmoves : Operation.receive.call.Moves Endpoint.Picks :=
        Call.Moves.bind (Call.moves_receiveNext Endpoint.receptive_picks)
          fun _ => trivial
      have hrefl := Endpoint.receptive_picks.refl
      have hrest := (Call.Moves.path hmoves hrefl hpath).2
      have hpicks := (hrest.step hrefl hstep).1
      exact hpicks.alike hsound (List.append_eq_nil_iff.mp htaken).2

/-- The receive at a place may have done nothing, if it has taken nothing out. -/
theorem still (h : Chronicle config first history v)
    (hidle : ∀ th, v.threads[k]? = some th → th.operation = .receive ∧ th.taken = []) :
    ∃ w, Chronicle config first (stilled k history) w ∧
      World.Beside k (.start .receive) v w := by
  induction h with
  | start hnew =>
      refine ⟨_, .start hnew, .refl _, ?_, ?_, ?_⟩
      · intro lock p
        exact iff_of_false nofun fun h => nomatch h.2
      · rfl
      · intro th hth
        cases hth
  | @step first history v v₁ place deed hbefore hdoes ih =>
      have hbegun : ∀ th, v.threads[k]? = some th →
          th.operation = .receive ∧ th.taken = [] := by
        intro th hth
        obtain ⟨th', hth', hoperation, htaken⟩ := hdoes.taken_prefix hth
        obtain ⟨hreceive, hnone⟩ := hidle th' hth'
        rw [hnone] at htaken
        exact ⟨hoperation.symm.trans hreceive, List.prefix_nil.mp htaken⟩
      have htold : ∀ th, v₁.threads[k]? = some th →
          th.told = (Thread.start .receive).told := fun th hth =>
        (hbefore.step hdoes).told_of_taken_eq_nil hth (hidle th hth).2
      obtain ⟨w, hw, hbeside⟩ := ih hbegun
      by_cases hplace : place = k
      · subst hplace
        cases deed with
        | started operation =>
            have hreceive : operation = .receive := (hidle _ hdoes.started.2).1
            subst hreceive
            obtain ⟨w₁, hdoes', hbeside'⟩ := hbeside.start hdoes fun _ => rfl
            rw [stilled_concat, if_pos (.inr trivial)]
            exact ⟨w₁, hw.step hdoes', hbeside'⟩
        | acted action id =>
            rw [stilled_concat, if_neg (by simp [Deed.IsStart]), List.append_nil]
            exact ⟨w, hw, hbeside.own hbefore.custody hdoes nofun
              (hbefore.alike_of_idle hdoes hidle) htold⟩
        | abandoned =>
            rw [stilled_concat, if_neg (by simp [Deed.IsStart]), List.append_nil]
            exact ⟨w, hw, hbeside.own hbefore.custody hdoes nofun
              (hbefore.alike_of_idle hdoes hidle) htold⟩
      · obtain ⟨w₁, hdoes', hbeside'⟩ := hbeside.does hbefore.blind hdoes hplace
        rw [stilled_concat, if_pos (.inl hplace)]
        exact ⟨w₁, hw.step hdoes', hbeside'⟩

end Chronicle

/-! ## Putting noise in -/

namespace World

variable {v v' : World} {k : Nat} {front back : List Thread} {th : Thread}
  {actions : List Action} {deeds : List (Nat × Deed)}

/-- The thread at a place has taken these actions while all others stood still, and this is
where it has come to. -/
structure Advances (k : Nat) (actions : List Action) (th : Thread) (v : World)
    (deeds : List (Nat × Deed)) (v' : World) : Prop where
  follows : v.Follows deeds v'
  own : ∀ p ∈ deeds, p.1 = k
  acted : ∀ action ∈ actions, ∃ id, (k, .acted action id) ∈ deeds
  threads : v'.threads = v.threads.set k th
  holder : ∀ lock p, p ≠ k → (v'.holder lock = some p ↔ v.holder lock = some p)

/-- A thread that may take the locks that it needs can go on alone to its end. -/
theorem Custody.advances {c : Call Result} {e e' : Endpoint} {result : Result}
    (hruns : c.Runs e actions e' (some result)) (h : v.Custody)
    (hthreads : v.threads = front ++ th :: back) (hendpoint : v.endpoint = e)
    (hrest : th.rest = c)
    (hfree : ∀ lock p, .acquired lock ∈ actions → v.holder lock = some p →
      p = front.length) :
    ∃ deeds v' th', v.Advances front.length actions th' deeds v' ∧ v'.endpoint = e' ∧
      th'.rest = .done result ∧ th'.operation = th.operation ∧
      th'.told = th.told ++ announced actions := by
  generalize hvalue : some result = value at hruns
  induction hruns generalizing v th with
  | done e a =>
      cases hvalue
      refine ⟨[], v, th, ⟨.here v, by simp, by simp, ?_, fun _ _ _ => Iff.rfl⟩,
        hendpoint, hrest, rfl, (List.append_nil _).symm⟩
      rw [hthreads, set_here]
  | fault => cases hvalue
  | @step e e₁ e₂ c c₁ action actions value hstep hmore ih =>
      subst hrest hendpoint
      have hhere : v.threads[front.length]? = some th := by
        rw [hthreads, getElem?_here]
      obtain ⟨held, hlocks, hheld⟩ := h.threads _ th hhere
      obtain ⟨held', haction, -⟩ := hlocks.step hstep
      have hnow : ∀ lock, action = .acquired lock → v.holder lock = none := by
        rintro lock rfl
        cases hholder : v.holder lock with
        | none => rfl
        | some p =>
            obtain rfl := hfree lock p List.mem_cons_self hholder
            have hsome := (hheld lock).mp hholder
            rw [haction.1] at hsome
            cases hsome
      have hothers (lock : Lock) (p : Nat) (hp : p ≠ front.length) :
          v.holderAfter front.length action lock = some p ↔ v.holder lock = some p :=
        holderAfter_elsewhere hheld haction hnow hp lock
      have hstill : ∀ lock p, .acquired lock ∈ actions →
          v.holderAfter front.length action lock = some p → p = front.length := by
        intro lock p hacquired hholder
        by_contra hp
        exact hp (hfree lock p (List.mem_cons_of_mem _ hacquired)
          ((hothers lock p hp).mp hholder))
      have hdoes := Does.act hthreads hstep hnow
      obtain ⟨deeds, v', th', hadvances, hend, hdone, hoperation, htold⟩ :=
        ih (h.does hdoes) rfl rfl rfl hstill hvalue
      refine ⟨_ :: deeds, v', th', ⟨.step hdoes hadvances.follows, ?_, ?_, ?_, ?_⟩,
        hend, hdone, hoperation, ?_⟩
      · rw [List.forall_mem_cons]
        exact ⟨rfl, hadvances.own⟩
      · rw [List.forall_mem_cons]
        refine ⟨⟨_, List.mem_cons_self⟩, ?_⟩
        intro action' haction'
        obtain ⟨id, hmem⟩ := hadvances.acted action' haction'
        exact ⟨id, List.mem_cons_of_mem _ hmem⟩
      · rw [hadvances.threads, hthreads, set_here, set_here]
      · intro lock p hp
        exact (hadvances.holder lock p hp).trans (hothers lock p hp)
      · rw [htold]
        show (th.told ++ action.notification?.toList) ++ _ = _
        rw [List.append_assoc]
        exact congrArg (th.told ++ ·) (announced_append [action] actions).symm

end World

section Noise

variable {config : Config} {e e' : Endpoint} {actions : List Action}
  {datagram : Bytes} {sender : SocketAddress}

theorem Endpoint.alike_afterWait (e : Endpoint) (r : Except TransportError Reception) :
    e.Alike (e.afterWait r) := by
  unfold afterWait
  split
  · exact e.alike_openReadBuffer.trans (alike_accept _ _ _ _)
  · exact e.alike_openReadBuffer

theorem Endpoint.dequeue_eq_self {id : UInt16}
    (h : (e.dequeue id).1.inFlight = e.inFlight) : (e.dequeue id).1 = e := by
  have hremove : (e.inFlight.remove id).2 = e.inFlight := h
  show { e with inFlight := (e.inFlight.remove id).2 } = e
  rw [hremove]

/-- A receive after which the queue is the same has changed nothing but what is in the
read buffer. -/
theorem Call.Runs.alike_of_receiveNext {r : Except TransportError Reception}
    {value : Option (Except TransportError (Option Message))} (he : e.Fits config)
    (h : receiveNext.Runs e actions e' value) (hreceived : .received r ∈ actions)
    (hsame : e'.inFlight = e.inFlight) : e.Alike e' := by
  have hwaited := e.alike_afterWait r
  obtain ⟨-, hrest⟩ := h.receiveNext_reception he hreceived
  cases hanswer : answerIn config r with
  | none =>
      rw [hanswer] at hrest
      rw [hrest.2]
      exact hwaited
  | some m =>
      rw [hanswer] at hrest
      rw [hrest.2] at hsame ⊢
      rw [Endpoint.dequeue_eq_self (hsame.trans (e.inFlight_afterWait r).symm)]
      exact hwaited

/-- A receive that is given noise gives what is in it, and makes no difference. -/
theorem World.Noise.runs {v : World} (h : v.Noise config datagram sender)
    (he : v.endpoint.Fits config) :
    ∃ actions e', Call.receiveNext.Runs v.endpoint actions e'
        (some (.ok (Call.messageIn config (.ok (some (datagram, sender)))))) ∧
      .received (.ok (some (datagram, sender))) ∈ actions ∧
      v.endpoint.Alike e' ∧ announced actions = [] ∧
      ∀ lock, .acquired lock ∈ actions → v.holder lock = none := by
  obtain ⟨actions, e', hruns, hreceived⟩ :=
    Call.exists_receiveNext he (.ok (some (datagram, sender)))
  have hanswer := hruns.receiveNext_of_received he hreceived
  obtain ⟨message, hvalue, hdid⟩ := he.receiveDid hruns hreceived
  cases hvalue
  obtain ⟨hsame, htold⟩ := hdid.unanswered fun m hm => h.unanswered m hm
  refine ⟨actions, e', hruns, hreceived,
    hruns.alike_of_receiveNext he hreceived hsame, htold, ?_⟩
  intro lock hacquired
  rcases hruns.receiveNext_acquired he hreceived hacquired with rfl | ⟨rfl, m, hanswer⟩
  · exact h.readBuffer
  · exact h.inFlight m hanswer

/-- A receive that has not begun may be given noise, and then the others go on as they
would have gone on. -/
theorem Chronicle.exists_noise {first : Endpoint} {history later : List (Nat × Deed)}
    {v v₂ : World} {k : Nat} (h : Chronicle config first history v)
    (hth : v.threads[k]? = some (.start .receive))
    (hnoise : v.Noise config datagram sender) (hfollows : v.Follows later v₂)
    (helse : ∀ p ∈ later, p.1 ≠ k) :
    ∃ deeds w id th, Chronicle config first (history ++ deeds ++ later) w ∧
      (∀ p ∈ deeds, p.1 = k) ∧
      (k, .acted (.received (.ok (some (datagram, sender)))) id) ∈ deeds ∧
      th.rest = .done (.received
        (.ok (Call.messageIn config (.ok (some (datagram, sender)))))) ∧
      World.Beside k th v₂ w := by
  obtain ⟨actions, e', hruns, hreceived, halike, htold, hfree⟩ :=
    hnoise.runs h.fits.endpoint
  obtain ⟨hlt, hget⟩ := List.getElem?_eq_some_iff.mp hth
  have hthreads : v.threads = v.threads.take k ++
      Thread.start .receive :: v.threads.drop (k + 1) := by
    rw [← hget, List.getElem_cons_drop, List.take_append_drop]
  have hlength : (v.threads.take k).length = k := List.length_take_of_le (Nat.le_of_lt hlt)
  have hcall : Operation.receive.call.Runs v.endpoint (actions ++ []) e' _ :=
    hruns.bind (.done _ _)
  rw [List.append_nil] at hcall
  have hopen : ∀ lock p, .acquired lock ∈ actions → v.holder lock = some p →
      p = (v.threads.take k).length := by
    intro lock p hacquired hholder
    rw [hfree lock hacquired] at hholder
    cases hholder
  obtain ⟨deeds, v', th, hadvances, rfl, hdone, hoperation, hsaid⟩ :=
    h.custody.advances hcall hthreads rfl rfl hopen
  rw [hlength] at hadvances
  have hchronicle := hadvances.follows.chronicle h
  have hend : v'.threads[k]? = some th := by
    rw [hadvances.threads, List.getElem?_set_self hlt]
  have hbeside : World.Beside k th v v' := by
    refine ⟨halike, ?_, hadvances.threads, ?_⟩
    · intro lock p
      by_cases hp : p = k
      · subst hp
        exact iff_of_false (hchronicle.custody.holder_ne_of_done hend hdone) fun hboth =>
          hboth.1 rfl
      · rw [hadvances.holder lock p hp]
        exact (and_iff_right hp).symm
    · intro th' hth'
      cases hth.symm.trans hth'
      rw [hsaid, htold]
      exact ⟨hoperation.symm, rfl⟩
  obtain ⟨w, hfollows', hlater⟩ := hbeside.follows h hfollows helse
  obtain ⟨id, hmem⟩ := hadvances.acted _ hreceived
  exact ⟨deeds, w, id, th, hfollows'.chronicle hchronicle, hadvances.own, hmem, hdone,
    hlater⟩

end Noise

/-- A receive gives the message in its own datagram, if there is one, whatever state the
endpoint has come to: nothing that came before matters. Wherever the datagrams before had
left the mark of the read buffer, all of it is in view while a receive waits, and a
datagram is received into what is in view. The queue changes only by the message that
this one answers, which is taken out. So noise changes nothing. What a receive took out in
any run was answered by what it received. From a run with one that took nothing out, what
it did can be left out; and one that has not begun may be given a datagram that answers
nothing, while the locks that it needs are free, whatever happens later. Neither makes a
difference to the endpoint, to anyone who is told, or to any other call. -/
theorem noise_changes_nothing (config : Config) :
    (∀ e : Endpoint, e.Reached config → ∀ datagram sender,
      (∃ actions e' value, Call.receiveNext.Runs e actions e' value ∧
        .received (.ok (some (datagram, sender))) ∈ actions) ∧
      ∀ actions e' value, Call.receiveNext.Runs e actions e' value →
        .received (.ok (some (datagram, sender))) ∈ actions →
        ∃ message, value = some (.ok message) ∧
          e.ReceiveDid config datagram sender actions e' message) ∧
    (∀ first history v, Chronicle config first history v →
      ∀ (k : Nat) (th : Thread) next, v.threads[k]? = some th →
        th.rest = .receive next →
        v.endpoint.readBuffer.length = config.readBufferSize + 1 ∧
        ∀ datagram sender, (next (.ok (some (datagram, sender)))).Stores
          v.endpoint.readBuffer.length datagram sender) ∧
    ∀ first history v, Chronicle config first history v →
      ∀ k th, v.threads[k]? = some th → th.operation = .receive →
        (∀ p ∈ th.taken, ∃ datagram sender id m,
          (k, .acted (.received (.ok (some (datagram, sender)))) id) ∈ history ∧
          Call.messageIn config (.ok (some (datagram, sender))) = some m ∧
          (m.isAck || m.isReset) = true ∧ p.2.id = m.id) ∧
        (th.taken = [] → ∃ w, Chronicle config first (stilled k history) w ∧
          v.SameBut k w) ∧
        (th = .start .receive → ∀ datagram sender, v.Noise config datagram sender →
          ∀ later v₂, v.Follows later v₂ → (∀ p ∈ later, p.1 ≠ k) →
          ∃ deeds w id th', Chronicle config first (history ++ deeds ++ later) w ∧
            (∀ p ∈ deeds, p.1 = k) ∧
            (k, .acted (.received (.ok (some (datagram, sender)))) id) ∈ deeds ∧
            w.threads[k]? = some th' ∧
            th'.rest = .done (.received
              (.ok (Call.messageIn config (.ok (some (datagram, sender)))))) ∧
            v₂.SameBut k w) := by
  refine ⟨?_, ?_, ?_⟩
  · intro e hreached datagram sender
    have he := hreached.fits
    constructor
    · obtain ⟨actions, e', hruns, hreceived⟩ :=
        Call.exists_receiveNext he (.ok (some (datagram, sender)))
      exact ⟨actions, e', _, hruns, hreceived⟩
    · intro actions e' value hruns hreceived
      exact he.receiveDid hruns hreceived
  · intro first history v h k th next hth hwaits
    obtain ⟨-, hopen, hstores⟩ := h.receives_in_view hth hwaits
    exact ⟨hopen.trans h.fits.endpoint.readBuffer, hstores⟩
  · intro first history v h k th hth hreceive
    refine ⟨?_, ?_, ?_⟩
    · intro p hp
      exact h.answer_of_taken hth hreceive hp
    · intro htaken
      have hidle : ∀ th', v.threads[k]? = some th' →
          th'.operation = .receive ∧ th'.taken = [] := by
        intro th' hth'
        cases hth.symm.trans hth'
        exact ⟨hreceive, htaken⟩
      obtain ⟨w, hw, hbeside⟩ := h.still hidle
      exact ⟨w, hw, hbeside.sameBut⟩
    · rintro rfl datagram sender hnoise later v₂ hfollows helse
      obtain ⟨deeds, w, id, th', hw, hown, hreceived, hdone, hbeside⟩ :=
        h.exists_noise hth hnoise hfollows helse
      have hstarted := h.started k _ hth
      obtain ⟨th₂, hth₂, -⟩ := (hfollows.chronicle h).operation_of_started
        (List.mem_append_left later hstarted)
      obtain ⟨hlt, -⟩ := List.getElem?_eq_some_iff.mp hth₂
      refine ⟨deeds, w, id, th', hw, hown, hreceived, ?_, hdone, hbeside.sameBut⟩
      rw [hbeside.threads, List.getElem?_set_self hlt]

/-! ## Three datagrams -/

section Sample

open Interrupted World Endpoint

/-- The last thread there is takes its next action. -/
theorem Chronicle.actLast {config : Config} {first e e' : Endpoint}
    {history : List (Nat × Deed)} {holder : Lock → Option Nat} (others : List Thread)
    {th : Thread} {action : Action} {rest : Call Result}
    (h : Chronicle config first history ⟨e, holder, others ++ [th]⟩)
    (hstep : th.rest.Step e action e' rest)
    (hfree : ∀ lock, action = .acquired lock → holder lock = none) :
    Chronicle config first
      (history ++ [(others.length, .acted action (e.issued? e'))])
      ⟨e', holderAfter ⟨e, holder, others ++ [th]⟩ others.length action,
        others ++ [th.after e.inFlight e'.inFlight action rest]⟩ :=
  h.step (@Does.act _ others [] th action e' rest rfl hstep hfree)

/-- Before anything has been sent an empty datagram is received. -/
def emptyReceived : List (Nat × Deed) :=
  [(0, .started .receive), (0, .acted (.acquired .readBuffer) none),
    (0, .acted .updated none),
    (0, .acted (.received (.ok (some ([], refusedEntry.destination)))) none),
    (0, .acted .updated none), (0, .acted (.released .readBuffer) none)]

/-- Then another receive begins to wait. -/
def nextWaits : List (Nat × Deed) :=
  emptyReceived ++ [(1, .started .receive), (1, .acted (.acquired .readBuffer) none),
    (1, .acted .updated none)]

theorem chronicle_nextWaits :
    (∃ v th, Chronicle sampleEndpoint.config sampleEndpoint emptyReceived v ∧
      v.threads[0]? = some th ∧ th.operation = .receive ∧ th.taken = [] ∧
      v.endpoint.readBuffer.length = 0) ∧
    ∃ v th next, Chronicle sampleEndpoint.config sampleEndpoint nextWaits v ∧
      v.threads[1]? = some th ∧ th.rest = .receive next := by
  have hnew : Endpoint.new sampleEndpoint.config 1 = .ok sampleEndpoint := rfl
  have h := (Chronicle.start hnew).step (.start .receive nofun)
  have h := h.actLast [] (.acquire _ _ _) fun _ _ => rfl
  have h := h.actLast [] (.update _ _ _) nofun
  have h := h.actLast [] (.receive _ _ (.ok (some ([], refusedEntry.destination)))) nofun
  have h := h.actLast [] (.update _ _ _) nofun
  have h := h.actLast [] (.release _ _ _) nofun
  refine ⟨⟨_, _, h, rfl, rfl, rfl, rfl⟩, ?_⟩
  have h := h.step (.start .receive nofun)
  have h := h.actLast [_] (.acquire _ _ _) fun lock hlock => by cases hlock; rfl
  have h := h.actLast [_] (.update _ _ _) nofun
  exact ⟨_, _, _, h, rfl, rfl⟩

/-- A datagram without a message is received in any state, and changes nothing. -/
theorem Endpoint.Reached.exists_ignored {config : Config} {e : Endpoint}
    (h : e.Reached config) {datagram : Bytes} {sender : SocketAddress}
    (hnone : Call.messageIn config (.ok (some (datagram, sender))) = none) :
    ∃ actions e', Call.receiveNext.Runs e actions e' (some (.ok none)) ∧
      .received (.ok (some (datagram, sender))) ∈ actions ∧ e'.Reached config ∧
      e'.inFlight = e.inFlight ∧ announced actions = [] := by
  obtain ⟨actions, e', hruns, hreceived⟩ :=
    Call.exists_receiveNext h.fits (.ok (some (datagram, sender)))
  obtain ⟨-, -, heffect⟩ := hruns.receiveNext_of_received h.fits hreceived
  rw [Except.map, hnone] at hruns
  rw [Call.answerIn, hnone] at heffect
  obtain ⟨_, hturn⟩ := (Turn.Taken.receive hruns).runs
  exact ⟨actions, e', hruns, hreceived, h.runs hturn, heffect⟩

/-- Two datagrams come before the answer to the first of two messages: one is too long,
the other is empty. The answer takes its message out all the same. After an empty datagram
a receive waits with as much of the buffer in view as ever, and the datagram can be left
out. With nothing in flight the same answer may come or not, whatever is done later. -/
theorem noise_changes_nothing_firstAnswer :
    (∃ long e₁ empty e₂ actions e',
      Call.receiveNext.Runs (launchedWith bothInFlight 3) long e₁ (some (.ok none)) ∧
      .received (.ok (some (List.replicate 65 0xFF, refusedEntry.destination))) ∈ long ∧
      Call.receiveNext.Runs e₁ empty e₂ (some (.ok none)) ∧
      .received (.ok (some ([], refusedEntry.destination))) ∈ empty ∧
      e₂.inFlight = bothInFlight ∧ announced (long ++ empty) = [] ∧
      Call.receiveNext.Runs e₂ actions e'
        (some (.ok (some (firstAnswer.withSender refusedEntry.destination)))) ∧
      .received (.ok (some (firstAnswerDatagram, refusedEntry.destination))) ∈ actions ∧
      e'.inFlight.entries = [(1, delayedEntry)] ∧
      announced actions = [⟨7, 2, .acknowledged⟩]) ∧
    (∃ v th next, Chronicle sampleEndpoint.config sampleEndpoint nextWaits v ∧
      v.threads[1]? = some th ∧ th.rest = .receive next ∧
      v.endpoint.readBuffer.length = 65 ∧
      (next (.ok (some (firstAnswerDatagram, refusedEntry.destination)))).Stores 65
        firstAnswerDatagram refusedEntry.destination) ∧
    (∃ v w, Chronicle sampleEndpoint.config sampleEndpoint emptyReceived v ∧
      v.endpoint.readBuffer.length = 0 ∧
      Chronicle sampleEndpoint.config sampleEndpoint [(0, .started .receive)] w ∧
      v.SameBut 0 w) ∧
    ∃ deeds w id, Chronicle sampleEndpoint.config sampleEndpoint
        ([(0, .started .receive)] ++ deeds ++ [(1, .started .checkQueues)]) w ∧
      (0, .acted (.received (.ok (some
        (firstAnswerDatagram, refusedEntry.destination)))) id) ∈ deeds ∧
      w.endpoint.inFlight = .empty := by
  obtain ⟨hone, hview, hruns⟩ := noise_changes_nothing sampleEndpoint.config
  obtain ⟨⟨v, th, h, hth, hreceive, htaken, hmark⟩, ⟨v₂, th₂, next, h₂, hth₂, hwaits⟩⟩ :=
    chronicle_nextWaits
  refine ⟨?_, ?_, ?_, ?_⟩
  · have hread : Message.read firstAnswerDatagram = .ok firstAnswer := by
      decide +kernel
    have hlong : Call.messageIn sampleEndpoint.config
        (.ok (some (List.replicate 65 0xFF, refusedEntry.destination))) = none := by
      decide +kernel
    have hempty : Call.messageIn sampleEndpoint.config
        (.ok (some ([], refusedEntry.destination))) = none := by
      decide +kernel
    obtain ⟨long, e₁, hreceive₁, hin₁, hreached₁, hqueue₁, htold₁⟩ :=
      reached_bothInFlight.exists_ignored hlong
    obtain ⟨empty, e₂, hreceive₂, hin₂, hreached₂, hqueue₂, htold₂⟩ :=
      hreached₁.exists_ignored hempty
    have hqueue : e₂.inFlight = bothInFlight := hqueue₂.trans hqueue₁
    obtain ⟨⟨actions, e', value, hreceive, hreceived⟩, hdid⟩ := hone _
      hreached₂ firstAnswerDatagram refusedEntry.destination
    obtain ⟨message, rfl, hdid⟩ := hdid actions e' value hreceive hreceived
    have hmessage : message = some (firstAnswer.withSender refusedEntry.destination) :=
      (hdid.message_eq _).mpr ⟨by decide, firstAnswer, hread, rfl, rfl⟩
    have hmem : (0, refusedEntry) ∈ e₂.inFlight.entries := by
      rw [hqueue]
      exact List.mem_cons_self
    obtain ⟨hentries, htold⟩ := hdid.answered _ 0 refusedEntry hmessage ⟨rfl, hmem, rfl⟩
    rw [hqueue] at hentries
    rw [hmessage] at hreceive
    refine ⟨long, e₁, empty, e₂, actions, e', hreceive₁, hin₁, hreceive₂, hin₂, hqueue,
      ?_, hreceive, hreceived, hentries, htold⟩
    rw [announced_append, htold₁, htold₂]
    rfl
  · obtain ⟨hlength, hstores⟩ := hview _ _ v₂ h₂ 1 th₂ next hth₂ hwaits
    have hsize : sampleEndpoint.config.readBufferSize + 1 = 65 := rfl
    rw [hsize] at hlength
    rw [hlength] at hstores
    exact ⟨v₂, th₂, next, h₂, hth₂, hwaits, hlength, hstores _ _⟩
  · obtain ⟨-, hout, -⟩ := hruns _ _ v h 0 th hth hreceive
    obtain ⟨w, hw, hsame⟩ := hout htaken
    exact ⟨v, w, h, hmark, hw, hsame⟩
  · have hnew : Endpoint.new sampleEndpoint.config 1 = .ok sampleEndpoint := rfl
    have h := (Chronicle.start hnew).step (.start .receive nofun)
    have hnoise : Noise sampleEndpoint.config
        ⟨sampleEndpoint, fun _ => none, [.start .receive]⟩ firstAnswerDatagram
        refusedEntry.destination := by
      refine ⟨?_, rfl, fun _ _ => rfl⟩
      intro m _ seq entry hanswered
      cases hanswered.mem
    obtain ⟨-, -, hin⟩ := hruns _ _ _ h 0 _ rfl rfl
    obtain ⟨deeds, w, id, th, hw, -, hreceived, -, -, hsame⟩ := hin rfl _ _ hnoise
      [(1, .started .checkQueues)] _ (.step (.start .checkQueues nofun) (.here _))
      (by simp)
    exact ⟨deeds, w, id, hw, hreceived, hsame.endpoint.inFlight_eq⟩

end Sample

end Coap
