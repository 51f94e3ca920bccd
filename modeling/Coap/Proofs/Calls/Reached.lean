import Mathlib.Logic.Relation
import Coap.Proofs.Loop.Paths
import Coap.Proofs.Outcome.Cancellation
import Coap.Proofs.Runs.Turns

/-!
# States that calls lead to

What a single call does is said of every state that an endpoint can be in. A call
changes the state by its actions alone, so a state is reached by one action after
another, each of some call that has come to it. The call need not go on after that:
it may have failed, it may have been cancelled, and others may act in between. What
it has met before is left open too, so nothing has to be said of who holds a lock,
and a state that is reached here is one that the users of an endpoint can come to or
one more.

To take a message id is the first action of a request, so a user who takes ids without
sending anything leads to no other states.

## Main results

* `Endpoint.Reached.fits` — an endpoint is fit in every such state.
* `Endpoint.Reached.runs` — a call that runs alone leads from such a state to
  another one.
* `Interrupted.Reachable.reached` — calls that run side by side and may be cancelled
  lead to no other states.
-/

namespace Coap

namespace Call

variable {α : Type} {R : Endpoint → Endpoint → Prop} {c c' : Call α}
  {moments : List Moment}

/-- A call moves an endpoint at each of its moments, and what is left of it goes on to
do so. -/
theorem Moves.path (hc : c.Moves R) (hrefl : ∀ e, R e e) (h : c.Path moments c') :
    (∀ moment ∈ moments, R moment.before moment.after) ∧ c'.Moves R := by
  induction h with
  | here => exact ⟨by simp, hc⟩
  | step hstep hrest ih =>
      obtain ⟨hmove, hnext⟩ := Moves.step hc hrefl hstep
      obtain ⟨hall, hleft⟩ := ih hnext
      exact ⟨List.forall_mem_cons.mpr ⟨hmove, hall⟩, hleft⟩

end Call

namespace Endpoint

variable {config : Config} {e e' : Endpoint}

/-- An action of some call turns the one state into the other. -/
def Acts (e e' : Endpoint) : Prop :=
  ∃ (operation : Operation) (moments : List Moment) (c c' : Call Result)
    (action : Action), operation.call.Path moments c ∧ c.Step e action e' c'

/-- A new endpoint of the configuration may come to this state. -/
def Reached (config : Config) (e : Endpoint) : Prop :=
  ∃ random first, Endpoint.new config random = .ok first ∧
    Relation.ReflTransGen Acts first e

theorem Acts.fits (h : e.Acts e') (he : e.Fits config) : e'.Fits config := by
  obtain ⟨operation, moments, c, c', action, hpath, hstep⟩ := h
  have hkeeps : c.Keeps (Fits config) :=
    (Call.Moves.path operation.keeps_fits (fun _ h => h) hpath).2
  exact (hkeeps.step he hstep).1

/-- Every step but the taking of an id, which it does not concern, keeps the balance of
the messages in flight. -/
theorem enduring_evolves (config : Config) :
    Enduring fun e e' => e.Fits config → e.inFlight.Evolves e'.inFlight where
  refl _ he := he.sound.evolves_self
  openReadBuffer _ he := he.sound.evolves_self
  accept _ _ _ _ he := he.sound.evolves_self
  dequeue _ id he := he.sound.evolves_remove id
  noteRetransmission _ id now he :=
    he.sound.evolves_update (InFlight.keeps_retransmitted now) id
  serialize _ _ he := he.sound.evolves_self
  enqueue e id destination message ticket now timeout he := by
    unfold enqueue
    split
    · next q hadd => exact he.sound.evolves_add hadd
    · exact he.sound.evolves_self

theorem Acts.evolves (h : e.Acts e') (he : e.Fits config) :
    e.inFlight.Evolves e'.inFlight := by
  obtain ⟨operation, moments, c, c', action, hpath, hstep⟩ := h
  have hlasting := (enduring_evolves config).toLasting
  have hmoves := operation.moves (enduring_evolves config) fun _ _ e he => by
    rw [inFlight_takeId]
    exact he.sound.evolves_self
  exact ((Call.Moves.path hmoves hlasting.refl hpath).2.step hlasting.refl hstep).1 he

/-- Later states are fit if earlier ones are. -/
theorem fits_of_acts (h : Relation.ReflTransGen Acts e e') (he : e.Fits config) :
    e'.Fits config := by
  induction h with
  | refl => exact he
  | tail _ hacts ih => exact hacts.fits ih

namespace Reached

theorem fits (h : e.Reached config) : e.Fits config := by
  obtain ⟨random, first, hnew, hacts⟩ := h
  exact fits_of_acts hacts (fits_new hnew).1

theorem new {random : UInt32} (h : Endpoint.new config random = .ok e) :
    e.Reached config :=
  ⟨random, e, h, .refl⟩

theorem acts (h : e.Reached config) (hacts : e.Acts e') : e'.Reached config := by
  obtain ⟨random, first, hnew, hbefore⟩ := h
  exact ⟨random, first, hnew, hbefore.tail hacts⟩

end Reached

/-- What is left of a call that runs alone acts, one action after the other. -/
theorem acts_of_path_runs {operation : Operation} {moments : List Moment}
    {c : Call Result} {actions : List Action} {value : Option Result}
    (hpath : operation.call.Path moments c) (h : c.Runs e actions e' value) :
    Relation.ReflTransGen Acts e e' := by
  induction h generalizing moments with
  | done => exact .refl
  | fault => exact .refl
  | step hstep hrest ih =>
      exact .head ⟨operation, moments, _, _, _, hpath, hstep⟩
        (ih (hpath.snoc hstep))

theorem acts_of_runs {operation : Operation} {actions : List Action}
    {value : Option Result} (h : operation.call.Runs e actions e' value) :
    Relation.ReflTransGen Acts e e' :=
  acts_of_path_runs (.here _) h

theorem Reached.runs {operation : Operation} {actions : List Action}
    {value : Option Result} (he : e.Reached config)
    (h : operation.call.Runs e actions e' value) : e'.Reached config := by
  obtain ⟨random, first, hnew, hbefore⟩ := he
  exact ⟨random, first, hnew, hbefore.trans (acts_of_runs h)⟩

end Endpoint

/-! ## Calls that run side by side -/

namespace World

/-- What is left of a thread's call is what the call has come to. -/
def Underway (w : World) : Prop :=
  ∀ th ∈ w.threads, ∃ moments, th.operation.call.Path moments th.rest

variable {config : Config} {w w' : World}

theorem Underway.step (h : w.Underway) (hstep : w.Step w') : w'.Underway := by
  cases hstep with
  | start operation hfresh =>
      refine List.forall_mem_append.mpr ⟨h, ?_⟩
      exact List.forall_mem_singleton.mpr ⟨[], .here _⟩
  | act hthreads haction hfree =>
      have hall := h
      rw [Underway, hthreads, List.forall_mem_append, List.forall_mem_cons] at hall
      obtain ⟨hfirst, ⟨moments, hself⟩, hlast⟩ := hall
      exact List.forall_mem_append.mpr
        ⟨hfirst, List.forall_mem_cons.mpr ⟨⟨_, hself.snoc haction⟩, hlast⟩⟩
  | abandon hthreads hrest => exact h

theorem Underway.reached (h : w.Underway) (hstep : w.Step w')
    (he : w.endpoint.Reached config) : w'.endpoint.Reached config := by
  cases hstep with
  | start operation hfresh => exact he
  | @act first last th action e rest hthreads haction hfree =>
      have hth : th ∈ w.threads := by
        rw [hthreads]
        exact List.mem_append_right _ List.mem_cons_self
      obtain ⟨moments, hself⟩ := h th hth
      exact he.acts ⟨_, moments, _, _, _, hself, haction⟩
  | abandon hthreads hrest => exact he

end World

/-- Calls that run side by side, and may be cancelled where they wait, lead to states
that are reached. -/
theorem Interrupted.Reachable.reached {w : Interrupted} (h : w.Reachable) :
    w.world.Underway ∧ ∃ config, w.world.endpoint.Reached config := by
  induction h with
  | start hnew =>
      refine ⟨?_, _, .new hnew⟩
      intro th hth
      cases hth
  | step _ hstep ih =>
      obtain ⟨hunderway, config, hreached⟩ := ih
      cases hstep with
      | proceed hworld hstill =>
          exact ⟨hunderway.step hworld, config, hunderway.reached hworld hreached⟩
      | cancel hthreads hwaits => exact ⟨hunderway, config, hreached⟩

/-! ## Two messages in flight -/

namespace Endpoint

open Interrupted

/-- Two messages have been sent, one after the other. -/
theorem reached_bothInFlight :
    (launchedWith bothInFlight 3).Reached World.sampleEndpoint.config := by
  have hnew : Endpoint.new World.sampleEndpoint.config 1 =
      .ok World.sampleEndpoint := rfl
  have htimeout : World.sampleEndpoint.config.transmission.initialTimeout? 0.0 =
      some shortestWait := by decide +kernel
  have hfirst : (Call.send refusedEntry.destination
      (.confirmable ⟨1⟩ 2 .empty .empty none) (some 7)).Runs World.sampleEndpoint
      _ (launchedWith ⟨[(0, refusedEntry)], [(2, 0)], 1⟩ 2) (some (.ok ())) :=
    Call.runs_send_iff.mpr (.tracked rfl rfl (.launched htimeout rfl))
  have hsecond : (Call.send delayedEntry.destination
      (.confirmable ⟨1⟩ 3 .empty .empty none) (some 8)).Runs
      (launchedWith ⟨[(0, refusedEntry)], [(2, 0)], 1⟩ 2) _
      (launchedWith bothInFlight 3) (some (.ok ())) :=
    Call.runs_send_iff.mpr (.tracked rfl rfl (.launched htimeout rfl))
  obtain ⟨_, hfirst⟩ := (Turn.Taken.send hfirst).runs
  obtain ⟨_, hsecond⟩ := (Turn.Taken.send hsecond).runs
  exact ((Reached.new hnew).runs hfirst).runs hsecond

/-- Both of them are to be sent again at the same time. -/
theorem deadline_bothInFlight :
    ∀ p ∈ bothInFlight.entries, p.2.timer.deadline? = some ⟨2000000000⟩ := by
  decide +kernel

theorem tellsDeadlines_bothInFlight :
    (launchedWith bothInFlight 3).TellsDeadlines := by
  intro p hp
  rw [deadline_bothInFlight p hp]
  exact Option.some_ne_none _

end Endpoint

end Coap
