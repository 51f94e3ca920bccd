import Coap.Proofs.Runs.World

/-!
# Calls that run alone

A call runs alone when nothing else happens between its actions: each action
finds the endpoint as the one before has left it. The clock, the random
numbers and the socket may still answer anything, and their answers are in the
list of actions, so that a call, a state and a list of actions leave nothing
open. A run of a call is taken apart along the call, one action at a time, and
where one call goes on with another.

## Main results

* `runs_bind_iff` — a call that goes on with another runs as the one and then
  as the other, unless the first one breaks off.
* `runs_update_iff` and its like — how a run begins tells how the call begins.
-/

namespace Coap.Call

/-- A call takes these actions, with nothing else in between, until it is
over. It has a value then, unless it broke off. -/
inductive Runs {α : Type} :
    Endpoint → Call α → List Action → Endpoint → Option α → Prop where
  | done (e a) : Runs e (.done a) [] e (some a)
  | fault (e) : Runs e .fault [] e none
  | step {e e₁ e₂ : Endpoint} {c c₁ : Call α} {action : Action}
      {actions : List Action} {value : Option α}
      (hstep : c.Step e action e₁ c₁) (hrest : Runs e₁ c₁ actions e₂ value) :
      Runs e c (action :: actions) e₂ value

variable {α β : Type} {e e' : Endpoint} {actions : List Action}
  {value : Option α}

/-! ## First actions -/

theorem runs_done_iff {a : α} :
    Runs e (done a) actions e' value ↔
      actions = [] ∧ e' = e ∧ value = some a := by
  constructor
  · intro h
    cases h with
    | done => exact ⟨rfl, rfl, rfl⟩
    | step hstep => cases hstep
  · rintro ⟨rfl, rfl, rfl⟩
    exact .done _ _

theorem runs_fault_iff :
    Runs e (fault : Call α) actions e' value ↔
      actions = [] ∧ e' = e ∧ value = none := by
  constructor
  · intro h
    cases h with
    | fault => exact ⟨rfl, rfl, rfl⟩
    | step hstep => cases hstep
  · rintro ⟨rfl, rfl, rfl⟩
    exact .fault _

theorem runs_update_iff {change : Endpoint → Endpoint}
    {next : Endpoint → Call α} :
    Runs e (update change next) actions e' value ↔
      ∃ rest, actions = .updated :: rest ∧
        Runs (change e) (next e) rest e' value := by
  constructor
  · intro h
    cases h with
    | step hstep hrest =>
        cases hstep
        exact ⟨_, rfl, hrest⟩
  · rintro ⟨rest, rfl, hrest⟩
    exact .step (.update _ _ _) hrest

theorem runs_askTime_iff {next : Instant → Call α} :
    Runs e (askTime next) actions e' value ↔
      ∃ t rest, actions = .readTime t :: rest ∧
        Runs e (next t) rest e' value := by
  constructor
  · intro h
    cases h with
    | step hstep hrest =>
        cases hstep
        exact ⟨_, _, rfl, hrest⟩
  · rintro ⟨t, rest, rfl, hrest⟩
    exact .step (.askTime _ _ _) hrest

theorem runs_askWord_iff {next : UInt32 → Call α} :
    Runs e (askWord next) actions e' value ↔
      ∃ word rest, actions = .drewWord word :: rest ∧
        Runs e (next word) rest e' value := by
  constructor
  · intro h
    cases h with
    | step hstep hrest =>
        cases hstep
        exact ⟨_, _, rfl, hrest⟩
  · rintro ⟨word, rest, rfl, hrest⟩
    exact .step (.askWord _ _ _) hrest

theorem runs_askFraction_iff {next : Float → Call α} :
    Runs e (askFraction next) actions e' value ↔
      ∃ fraction rest, actions = .drewFraction fraction :: rest ∧
        Runs e (next fraction) rest e' value := by
  constructor
  · intro h
    cases h with
    | step hstep hrest =>
        cases hstep
        exact ⟨_, _, rfl, hrest⟩
  · rintro ⟨fraction, rest, rfl, hrest⟩
    exact .step (.askFraction _ _ _) hrest

theorem runs_tell_iff {event : Event} {next : Call α} :
    Runs e (tell event next) actions e' value ↔
      ∃ rest, actions = .told event :: rest ∧ Runs e next rest e' value := by
  constructor
  · intro h
    cases h with
    | step hstep hrest =>
        cases hstep
        exact ⟨_, rfl, hrest⟩
  · rintro ⟨rest, rfl, hrest⟩
    exact .step (.tell _ _ _) hrest

theorem runs_acquire_iff {lock : Lock} {next : Call α} :
    Runs e (acquire lock next) actions e' value ↔
      ∃ rest, actions = .acquired lock :: rest ∧ Runs e next rest e' value := by
  constructor
  · intro h
    cases h with
    | step hstep hrest =>
        cases hstep
        exact ⟨_, rfl, hrest⟩
  · rintro ⟨rest, rfl, hrest⟩
    exact .step (.acquire _ _ _) hrest

theorem runs_release_iff {lock : Lock} {next : Call α} :
    Runs e (release lock next) actions e' value ↔
      ∃ rest, actions = .released lock :: rest ∧ Runs e next rest e' value := by
  constructor
  · intro h
    cases h with
    | step hstep hrest =>
        cases hstep
        exact ⟨_, rfl, hrest⟩
  · rintro ⟨rest, rfl, hrest⟩
    exact .step (.release _ _ _) hrest

theorem runs_transmit_iff {destination : SocketAddress} {datagram : Bytes}
    {next : Except TransportError Unit → Call α} :
    Runs e (transmit destination datagram next) actions e' value ↔
      ∃ result rest,
        actions = .transmitted destination datagram result :: rest ∧
          Runs e (next result) rest e' value := by
  constructor
  · intro h
    cases h with
    | step hstep hrest =>
        cases hstep
        exact ⟨_, _, rfl, hrest⟩
  · rintro ⟨result, rest, rfl, hrest⟩
    exact .step (.transmit _ _ _ _ _) hrest

theorem runs_receive_iff {next : Except TransportError Reception → Call α} :
    Runs e (receive next) actions e' value ↔
      ∃ result rest, actions = .received result :: rest ∧
        Runs e (next result) rest e' value := by
  constructor
  · intro h
    cases h with
    | step hstep hrest =>
        cases hstep
        exact ⟨_, _, rfl, hrest⟩
  · rintro ⟨result, rest, rfl, hrest⟩
    exact .step (.receive _ _ _) hrest

/-! ## Steps on the state -/

theorem runs_endpoint_iff {f : Endpoint → Call α} :
    Runs e (endpoint >>= f) actions e' value ↔
      ∃ rest, actions = .updated :: rest ∧ Runs e (f e) rest e' value :=
  runs_update_iff

theorem runs_perform_iff {step : Endpoint → Endpoint × β} {f : β → Call α} :
    Runs e (perform step >>= f) actions e' value ↔
      ∃ rest, actions = .updated :: rest ∧
        Runs (step e).1 (f (step e).2) rest e' value :=
  runs_update_iff

theorem runs_modify_iff {change : Endpoint → Endpoint} {f : Unit → Call α} :
    Runs e (modify change >>= f) actions e' value ↔
      ∃ rest, actions = .updated :: rest ∧
        Runs (change e) (f ()) rest e' value :=
  runs_update_iff

theorem runs_sendDatagram_iff {destination : SocketAddress} {datagram : Bytes}
    {f : Except TransportError Unit → Call α} :
    Runs e (sendDatagram destination datagram >>= f) actions e' value ↔
      ∃ result rest,
        actions = .transmitted destination datagram result :: rest ∧
          Runs e (f result) rest e' value :=
  runs_transmit_iff

theorem runs_word_iff {f : UInt32 → Call α} :
    Runs e (word >>= f) actions e' value ↔
      ∃ word rest, actions = .drewWord word :: rest ∧
        Runs e (f word) rest e' value :=
  runs_askWord_iff

theorem runs_fraction_iff {f : Float → Call α} :
    Runs e (fraction >>= f) actions e' value ↔
      ∃ fraction rest, actions = .drewFraction fraction :: rest ∧
        Runs e (f fraction) rest e' value :=
  runs_askFraction_iff

theorem runs_ofOption_iff {o : Option β} {f : β → Call α} :
    Runs e (ofOption o >>= f) actions e' value ↔
      (o = none ∧ actions = [] ∧ e' = e ∧ value = none) ∨
        ∃ a, o = some a ∧ Runs e (f a) actions e' value := by
  cases o with
  | none =>
      constructor
      · intro h
        exact .inl ⟨rfl, runs_fault_iff.mp h⟩
      · rintro (⟨-, h⟩ | ⟨a, h, -⟩)
        · exact runs_fault_iff.mpr h
        · cases h
  | some a =>
      constructor
      · intro h
        exact .inr ⟨a, rfl, h⟩
      · rintro (⟨h, -⟩ | ⟨_, ⟨⟩, h⟩)
        · cases h
        · exact h

/-- A call under a lock that goes on with another one. -/
theorem locked_bind {lock : Lock} {c : Call β} {f : β → Call α} :
    locked lock c >>= f = acquire lock (c >>= fun a => release lock (f a)) :=
  congrArg (acquire lock) (bind_assoc c _ f)

/-- A step under a lock is three actions. -/
theorem runs_locked_perform_iff {lock : Lock} {step : Endpoint → Endpoint × β}
    {f : β → Call α} :
    Runs e (locked lock (perform step) >>= f) actions e' value ↔
      ∃ rest,
        actions = .acquired lock :: .updated :: .released lock :: rest ∧
          Runs (step e).1 (f (step e).2) rest e' value := by
  simp only [locked_bind, runs_acquire_iff, runs_perform_iff, runs_release_iff]
  constructor
  · rintro ⟨_, rfl, _, rfl, rest, rfl, h⟩
    exact ⟨rest, rfl, h⟩
  · rintro ⟨rest, rfl, h⟩
    exact ⟨_, rfl, _, rfl, rest, rfl, h⟩

/-! ## One call after another -/

theorem Step.bind {c c' : Call α} {action : Action} (f : α → Call β)
    (h : c.Step e action e' c') : (c.bind f).Step e action e' (c'.bind f) := by
  cases h with
  | update change next => exact .update _ _ _
  | askTime next t => exact .askTime _ _ _
  | askWord next word => exact .askWord _ _ _
  | askFraction next fraction => exact .askFraction _ _ _
  | tell event next => exact .tell _ _ _
  | acquire lock next => exact .acquire _ _ _
  | release lock next => exact .release _ _ _
  | transmit destination datagram next result => exact .transmit _ _ _ _ _
  | receive next result => exact .receive _ _ _

/-- A call that may take an action begins with it whatever it goes on with. -/
theorem Step.of_bind {c : Call α} {c' : Call β} {action : Action}
    {f : α → Call β} (hc : ∀ a, c ≠ done a)
    (h : (c.bind f).Step e action e' c') :
    ∃ c₁, c.Step e action e' c₁ ∧ c' = c₁.bind f := by
  cases c with
  | done a => exact absurd rfl (hc a)
  | fault => cases h
  | update change next =>
      cases h
      exact ⟨_, .update _ _ _, rfl⟩
  | askTime next =>
      cases h
      exact ⟨_, .askTime _ _ _, rfl⟩
  | askWord next =>
      cases h
      exact ⟨_, .askWord _ _ _, rfl⟩
  | askFraction next =>
      cases h
      exact ⟨_, .askFraction _ _ _, rfl⟩
  | tell event next =>
      cases h
      exact ⟨_, .tell _ _ _, rfl⟩
  | acquire lock next =>
      cases h
      exact ⟨_, .acquire _ _ _, rfl⟩
  | release lock next =>
      cases h
      exact ⟨_, .release _ _ _, rfl⟩
  | transmit destination datagram next =>
      cases h
      exact ⟨_, .transmit _ _ _ _ _, rfl⟩
  | receive next =>
      cases h
      exact ⟨_, .receive _ _ _, rfl⟩

theorem Runs.bind {c : Call α} {f : α → Call β} {e₁ : Endpoint}
    {first others : List Action} {a : α} {value : Option β}
    (hc : Runs e c first e₁ (some a)) (hf : Runs e₁ (f a) others e' value) :
    Runs e (c.bind f) (first ++ others) e' value := by
  generalize hv : some a = v at hc
  induction hc with
  | done e b =>
      cases hv
      exact hf
  | fault e => cases hv
  | step hstep hrest ih => exact .step (hstep.bind f) (ih hf hv)

theorem Runs.bind_none {c : Call α} (f : α → Call β)
    (hc : Runs e c actions e' none) : Runs e (c.bind f) actions e' none := by
  generalize hv : (none : Option α) = v at hc
  induction hc with
  | done e b => cases hv
  | fault e => exact .fault e
  | step hstep hrest ih => exact .step (hstep.bind f) (ih hv)

/-- A call that goes on with another one runs as the first and then as the
other, unless the first one breaks off. -/
theorem runs_bind_iff {c : Call α} {f : α → Call β} {value : Option β} :
    Runs e (c.bind f) actions e' value ↔
      (∃ first others e₁ a, actions = first ++ others ∧
        Runs e c first e₁ (some a) ∧ Runs e₁ (f a) others e' value) ∨
      (value = none ∧ Runs e c actions e' none) := by
  constructor
  · intro h
    generalize hd : c.bind f = d at h
    induction h generalizing c with
    | done e b =>
        cases c with
        | done a =>
            have hf : f a = done b := hd
            exact .inl ⟨[], [], _, a, rfl, .done _ _, hf ▸ .done _ _⟩
        | _ => cases hd
    | fault e =>
        cases c with
        | done a =>
            have hf : f a = fault := hd
            exact .inl ⟨[], [], _, a, rfl, .done _ _, hf ▸ .fault _⟩
        | fault => exact .inr ⟨rfl, .fault _⟩
        | _ => cases hd
    | @step _ _ _ d _ _ _ _ hstep hrest ih =>
        by_cases hc : ∃ a, c = Call.done a
        · obtain ⟨a, rfl⟩ := hc
          have hf : f a = d := hd
          exact .inl ⟨[], _, _, a, rfl, .done _ _, hf ▸ .step hstep hrest⟩
        · rw [← hd] at hstep
          obtain ⟨c₁, hstep', rfl⟩ := hstep.of_bind fun a h => hc ⟨a, h⟩
          rcases ih rfl with ⟨first, others, e₁, a, rfl, hfirst, hothers⟩ | hbroken
          · exact .inl ⟨_ :: first, others, e₁, a, rfl,
              .step hstep' hfirst, hothers⟩
          · exact .inr ⟨hbroken.1, .step hstep' hbroken.2⟩
  · rintro (⟨first, others, e₁, a, rfl, hfirst, hothers⟩ | ⟨rfl, hbroken⟩)
    · exact hfirst.bind hothers
    · exact hbroken.bind_none f

/-- Telling notifications is one action for each of them. -/
theorem runs_notifyAll_iff {l : List Notification} {value : Option Unit} :
    Runs e (notifyAll l) actions e' value ↔
      actions = l.map (fun n => .told (.notified n)) ∧ e' = e ∧
        value = some () := by
  induction l generalizing actions with
  | nil => exact runs_done_iff
  | cons n rest ih =>
      rw [notifyAll, runs_tell_iff]
      simp only [ih, List.map_cons]
      constructor
      · rintro ⟨_, rfl, rfl, rfl, rfl⟩
        exact ⟨rfl, rfl, rfl⟩
      · rintro ⟨rfl, rfl, rfl⟩
        exact ⟨_, rfl, rfl, rfl, rfl⟩

theorem runs_notify_iff {n : Option Notification} {value : Option Unit} :
    Runs e (notify n) actions e' value ↔
      actions = n.toList.map (fun n => .told (.notified n)) ∧ e' = e ∧
        value = some () := by
  cases n with
  | none => exact runs_done_iff
  | some n => exact runs_notifyAll_iff (l := [n])

end Coap.Call
