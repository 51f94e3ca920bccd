import Coap.Proofs.Outcome.ExactlyOnce
import Coap.Proofs.Runs.Invariant

/-!
# Chronicles

A world shows how far its threads have come, but not in which order they came
there. A chronicle keeps this: it tells one after the other which thread did
what, since the endpoint was new. A thread is known by its place, and an update
tells which message id it took, if it took one.

## Main results

* `World.step_iff_does` — all that may happen in a world can be told.
* `World.Does.all` — what holds of every thread goes on to hold if it holds of
  new threads and no action of a thread loses it.
* `Chronicle.operation_of_started`, `Chronicle.place_eq_of_ticket` — a thread
  carries out the operation that it was started with, and no other thread brings
  the same ticket.
-/

namespace Coap

/-- The message id that was taken in a change of an endpoint, if one was. -/
def Endpoint.issued? (e e' : Endpoint) : Option UInt16 :=
  if e'.counter = e.counter then none else some e.takeId.2

theorem Endpoint.issued?_of_counter_eq {e e' : Endpoint}
    (h : e'.counter = e.counter) : e.issued? e' = none :=
  if_pos h

theorem Endpoint.issued?_takeId (e : Endpoint) :
    e.issued? e.takeId.1 = some e.takeId.2 := by
  refine if_neg ?_
  unfold takeId
  split
  · next hzero =>
      rw [hzero]
      exact (by decide : (2 : UInt16) ≠ 0)
  · intro hsame
    have hnat := congrArg UInt16.toNat hsame
    have hlt := e.counter.toNat_lt
    simp only [UInt16.toNat_add] at hnat
    have hone : (1 : UInt16).toNat = 1 := rfl
    omega

/-- Only updates change the endpoint. -/
theorem Call.Step.endpoint_eq {α : Type} {c c' : Call α} {e e' : Endpoint}
    {action : Action} (h : c.Step e action e' c') (hother : action ≠ .updated) :
    e' = e := by
  cases h with
  | update change next => exact absurd rfl hother
  | _ => rfl

/-- What a thread does. -/
inductive Deed where
  /-- It is started. -/
  | started (operation : Operation)
  /-- It takes an action, and with it a message id or none. -/
  | acted (action : Action) (id : Option UInt16)
  /-- It gives its locks back, having broken off. -/
  | abandoned

namespace World

/-- The thread at a place does something. -/
inductive Does : World → Nat → Deed → World → Prop where
  | start {w : World} (operation : Operation)
      (hfresh : ∀ ticket ∈ w.issued, operation.ticket ≠ some ticket) :
      Does w w.threads.length (.started operation)
        { w with threads := w.threads ++ [.start operation] }
  | act {w : World} {first last : List Thread} {th : Thread} {action : Action}
      {e : Endpoint} {rest : Call Result}
      (hthreads : w.threads = first ++ th :: last)
      (hstep : th.rest.Step w.endpoint action e rest)
      (hfree : ∀ lock, action = .acquired lock → w.holder lock = none) :
      Does w first.length (.acted action (w.endpoint.issued? e))
        { endpoint := e
          holder := w.holderAfter first.length action
          threads := first ++
            th.after w.endpoint.inFlight e.inFlight action rest :: last }
  | abandon {w : World} {first last : List Thread} {th : Thread}
      (hthreads : w.threads = first ++ th :: last) (hrest : th.rest = .fault) :
      Does w first.length .abandoned
        { w with holder := w.holderWithout first.length }

variable {w w' : World} {place : Nat} {deed : Deed}

theorem step_iff_does : w.Step w' ↔ ∃ place deed, w.Does place deed w' := by
  constructor
  · intro h
    cases h with
    | start operation hfresh => exact ⟨_, _, .start operation hfresh⟩
    | act hthreads hstep hfree => exact ⟨_, _, .act hthreads hstep hfree⟩
    | abandon hthreads hrest => exact ⟨_, _, .abandon hthreads hrest⟩
  · rintro ⟨place, deed, h⟩
    cases h with
    | start operation hfresh => exact .start operation hfresh
    | act hthreads hstep hfree => exact .act hthreads hstep hfree
    | abandon hthreads hrest => exact .abandon hthreads hrest

/-- Something holds of every thread, by its place. -/
def All (w : World) (P : Nat → Thread → Prop) : Prop :=
  ∀ place th, w.threads[place]? = some th → P place th

/-- The threads at all other places are who they were. -/
theorem getElem?_elsewhere {first last : List Thread} {th th' : Thread}
    {place : Nat} (h : place ≠ first.length) :
    (first ++ th' :: last)[place]? = (first ++ th :: last)[place]? := by
  rcases Nat.lt_or_gt_of_ne h with hlt | hgt
  · rw [List.getElem?_append_left hlt, List.getElem?_append_left hlt]
  · obtain ⟨k, hk⟩ := Nat.exists_eq_add_of_lt hgt
    have hpast : place - first.length = k + 1 := by omega
    rw [List.getElem?_append_right (Nat.le_of_lt hgt),
      List.getElem?_append_right (Nat.le_of_lt hgt), hpast,
      List.getElem?_cons_succ, List.getElem?_cons_succ]

/-- What holds of every thread goes on to hold of every thread, if it holds of new
threads and of the one that took an action. -/
theorem Does.all {P : Nat → Thread → Prop} (h : w.Does place deed w')
    (hall : ∀ p th, w.threads[p]? = some th → (p = place → deed = .abandoned) →
      P p th)
    (hstart : ∀ operation, deed = .started operation →
      P place (.start operation))
    (hact : ∀ action rest th, w.threads[place]? = some th →
      deed = .acted action (w.endpoint.issued? w'.endpoint) →
      th.rest.Step w.endpoint action w'.endpoint rest →
      P place (th.after w.endpoint.inFlight w'.endpoint.inFlight action rest)) :
    w'.All P := by
  intro p th hth
  cases h with
  | start operation hfresh =>
      by_cases hlast : p = w.threads.length
      · subst hlast
        rw [getElem?_here] at hth
        cases hth
        exact hstart operation rfl
      · obtain ⟨hlt, -⟩ := List.getElem?_eq_some_iff.mp hth
        rw [List.length_append, List.length_singleton] at hlt
        rw [List.getElem?_append_left (by omega)] at hth
        exact hall p th hth fun hself => absurd hself hlast
  | @act first last th₁ action e rest hthreads hstep hfree =>
      by_cases hself : p = first.length
      · subst hself
        rw [getElem?_here] at hth
        cases hth
        refine hact action rest th₁ ?_ rfl hstep
        rw [hthreads, getElem?_here]
      · rw [getElem?_elsewhere hself, ← hthreads] at hth
        exact hall p th hth fun hsame => absurd hsame hself
  | abandon hthreads hrest => exact hall p th hth fun _ => rfl

/-- A thread never gets another operation, and what it has taken out of flight stays in
its books. -/
theorem Does.taken_prefix (h : w.Does place deed w') {p : Nat} {th : Thread}
    (hth : w.threads[p]? = some th) :
    ∃ th', w'.threads[p]? = some th' ∧ th'.operation = th.operation ∧
      th.taken <+: th'.taken := by
  cases h with
  | start operation hfresh =>
      obtain ⟨hlt, -⟩ := List.getElem?_eq_some_iff.mp hth
      refine ⟨th, ?_, rfl, List.prefix_rfl⟩
      rw [List.getElem?_append_left hlt]
      exact hth
  | @act first last th₁ action e rest hthreads hstep hfree =>
      by_cases hself : p = first.length
      · subst hself
        rw [hthreads, getElem?_here] at hth
        cases hth
        exact ⟨_, getElem?_here _ _ _, rfl, List.prefix_append _ _⟩
      · refine ⟨th, ?_, rfl, List.prefix_rfl⟩
        rw [getElem?_elsewhere hself, ← hthreads]
        exact hth
  | abandon hthreads hrest => exact ⟨th, hth, rfl, List.prefix_rfl⟩

theorem Does.operation_eq (h : w.Does place deed w') {p : Nat} {th : Thread}
    (hth : w.threads[p]? = some th) :
    ∃ th', w'.threads[p]? = some th' ∧ th'.operation = th.operation := by
  obtain ⟨th', hth', hoperation, -⟩ := h.taken_prefix hth
  exact ⟨th', hth', hoperation⟩

/-- A thread that takes an action is there before. -/
theorem Does.acted {action : Action} {id : Option UInt16}
    (h : w.Does place (.acted action id) w') :
    ∃ th rest, w.threads[place]? = some th ∧
      th.rest.Step w.endpoint action w'.endpoint rest ∧
      id = w.endpoint.issued? w'.endpoint := by
  generalize hdeed : Deed.acted action id = deed at h
  cases h with
  | start => cases hdeed
  | @act first last th _ e rest hthreads hstep hfree =>
      cases hdeed
      refine ⟨th, rest, ?_, hstep, rfl⟩
      rw [hthreads, getElem?_here]
  | abandon => cases hdeed

/-- Only actions change the endpoint. -/
theorem Does.endpoint_eq (h : w.Does place deed w')
    (hdeed : ∀ action id, deed ≠ .acted action id) :
    w'.endpoint = w.endpoint := by
  cases h with
  | start => rfl
  | act => exact absurd rfl (hdeed _ _)
  | abandon => rfl

/-- A thread that is started stands at the place that is told, which was empty. -/
theorem Does.started {operation : Operation}
    (h : w.Does place (.started operation) w') :
    w.threads[place]? = none ∧ w'.threads[place]? = some (.start operation) := by
  generalize hdeed : Deed.started operation = deed at h
  cases h with
  | start =>
      cases hdeed
      exact ⟨List.getElem?_eq_none (Nat.le_refl _), getElem?_here _ _ _⟩
  | act => cases hdeed
  | abandon => cases hdeed

end World

/-! ## Chronicles -/

/-- What has happened, with the places of the threads that did it, since there
was a new endpoint. -/
inductive Chronicle (config : Config) :
    Endpoint → List (Nat × Deed) → World → Prop where
  | start {random : UInt32} {e : Endpoint}
      (h : Endpoint.new config random = .ok e) :
      Chronicle config e [] (.start e)
  | step {first : Endpoint} {history : List (Nat × Deed)} {w w' : World}
      {place : Nat} {deed : Deed} (h : Chronicle config first history w)
      (hdoes : w.Does place deed w') :
      Chronicle config first (history ++ [(place, deed)]) w'

namespace Chronicle

variable {config : Config} {first : Endpoint} {history : List (Nat × Deed)}
  {w : World}

theorem reachable (h : Chronicle config first history w) : w.Reachable := by
  induction h with
  | start hnew => exact .start hnew
  | step _ hdoes ih => exact ih.step (World.step_iff_does.mpr ⟨_, _, hdoes⟩)

theorem fits (h : Chronicle config first history w) : w.Fits config := by
  induction h with
  | start hnew =>
      refine ⟨(Endpoint.fits_new hnew).1, ?_⟩
      intro th hth
      cases hth
  | step _ hdoes ih => exact ih.step (World.step_iff_does.mpr ⟨_, _, hdoes⟩)

/-- A thread that was started carries out its operation. -/
theorem operation_of_started (h : Chronicle config first history w) {place : Nat}
    {operation : Operation} (hstarted : (place, .started operation) ∈ history) :
    ∃ th, w.threads[place]? = some th ∧ th.operation = operation := by
  induction h with
  | start => cases hstarted
  | step _ hdoes ih =>
      rcases List.mem_append.mp hstarted with hbefore | hnow
      · obtain ⟨th, hth, hoperation⟩ := ih hbefore
        obtain ⟨th', hth', hsame⟩ := hdoes.operation_eq hth
        exact ⟨th', hth', hsame.trans hoperation⟩
      · cases List.mem_singleton.mp hnow
        exact ⟨_, hdoes.started.2, rfl⟩

/-- Nothing else is started at the place of a thread. -/
theorem operation_unique (h : Chronicle config first history w) {place : Nat}
    {operation operation' : Operation}
    (hstarted : (place, .started operation) ∈ history)
    (hstarted' : (place, .started operation') ∈ history) :
    operation = operation' := by
  obtain ⟨th, hth, rfl⟩ := h.operation_of_started hstarted
  obtain ⟨th', hth', rfl⟩ := h.operation_of_started hstarted'
  cases hth.symm.trans hth'
  rfl

/-- All threads were started. -/
theorem started (h : Chronicle config first history w) :
    w.All fun place th => (place, .started th.operation) ∈ history := by
  induction h with
  | start =>
      intro place th hth
      cases hth
  | step _ hdoes ih =>
      refine hdoes.all ?_ ?_ ?_
      · intro p th hth _
        exact List.mem_append_left _ (ih p th hth)
      · rintro operation rfl
        exact List.mem_append_right _ (List.mem_singleton_self _)
      · intro action rest th hth _ _
        exact List.mem_append_left _ (ih _ th hth)

/-- The tickets of operations tell them apart. -/
theorem place_eq_of_ticket (h : Chronicle config first history w)
    {place place' : Nat} {operation operation' : Operation}
    (hstarted : (place, .started operation) ∈ history)
    (hstarted' : (place', .started operation') ∈ history) {ticket : Ticket}
    (hticket : operation.ticket = some ticket)
    (hticket' : operation'.ticket = some ticket) : place = place' := by
  obtain ⟨th, hth, rfl⟩ := h.operation_of_started hstarted
  obtain ⟨th', hth', rfl⟩ := h.operation_of_started hstarted'
  exact World.place_eq_of_nodup_flatMap h.reachable.balanced.unique hth hth'
    (Option.mem_toList.mpr hticket) (Option.mem_toList.mpr hticket')

end Chronicle

end Coap
