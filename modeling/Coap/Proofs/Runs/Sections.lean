import Coap.Proofs.Runs.World

/-!
# Sections of threads

While no other thread acts, a thread takes a section of its actions. It holds
at most one lock at a time, so a section is told by the lock held, the endpoint
and the thread, before and after. Runs of a world in which the threads take
turns at few points are put together from sections.

## Main results

* `World.Reachable.goes` — if one thread holds all locks that are held, any
  section of it may come next.
-/

namespace Coap

/-- The lock that is held after an action, by the lock held before. -/
def Action.Locks : Action → Option Lock → Option Lock → Prop
  | .acquired lock, held, held' => held = none ∧ held' = some lock
  | .released lock, held, held' => held = some lock ∧ held' = none
  | _, held, held' => held' = held

/-- A thread goes on for a while, with nothing else in between. -/
inductive Thread.Goes :
    Option Lock → Endpoint → Thread → Option Lock → Endpoint → Thread → Prop where
  | here (held e th) : Goes held e th held e th
  | step {held held₁ held₂ : Option Lock} {e e₁ e₂ : Endpoint}
      {th th₂ : Thread} {action : Action} {rest : Call Result}
      (hstep : th.rest.Step e action e₁ rest)
      (hlocks : action.Locks held held₁)
      (hmore : Goes held₁ e₁ (th.after e.inFlight e₁.inFlight action rest)
        held₂ e₂ th₂) :
      Goes held e th held₂ e₂ th₂

namespace World

/-- The holders of the locks when one thread holds all that are held. -/
def heldBy (place : Nat) (held : Option Lock) (lock : Lock) : Option Nat :=
  if held = some lock then some place else none

theorem holderAfter_eq_heldBy (w : World) {place : Nat} {action : Action}
    {held held' : Option Lock} (hholder : w.holder = heldBy place held)
    (h : action.Locks held held') :
    w.holderAfter place action = heldBy place held' := by
  cases action with
  | acquired lock =>
      obtain ⟨rfl, rfl⟩ := h
      funext l
      simp only [holderAfter, hholder, heldBy, Option.some.injEq, eq_comm]
      rfl
  | released lock =>
      obtain ⟨rfl, rfl⟩ := h
      funext l
      simp only [holderAfter, hholder, heldBy]
      by_cases hl : l = lock
      · rw [if_pos hl]
        rfl
      · have hne : some lock ≠ some l := fun heq =>
          hl (Option.some.inj heq).symm
        rw [if_neg hl, if_neg hne]
        rfl
  | _ =>
      cases h
      exact hholder

/-- A section of the thread that holds all locks may come next. -/
theorem Reachable.goes (first last : List Thread)
    {held held' : Option Lock} {e e' : Endpoint} {th th' : Thread}
    (hgoes : th.Goes held e held' e' th')
    (h : Reachable ⟨e, heldBy first.length held, first ++ th :: last⟩) :
    Reachable ⟨e', heldBy first.length held', first ++ th' :: last⟩ := by
  induction hgoes with
  | here held e th => exact h
  | @step held held₁ held₂ e e₁ e₂ th th₂ action rest hstep hlocks hmore ih =>
      have hholder := holderAfter_eq_heldBy
        ⟨e, heldBy first.length held, first ++ th :: last⟩ rfl hlocks
      apply ih
      rw [← hholder]
      refine h.step (Step.act rfl hstep ?_)
      intro lock hlock
      subst hlock
      rw [show held = none from hlocks.1]
      rfl

end World

end Coap
