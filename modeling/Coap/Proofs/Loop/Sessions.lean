import Coap.Proofs.Loop.Delivery
import Coap.Simulation.Session

/-!
# The receive loop of a session

A session carries its receive loop out together with the calls of a caller, on one
simulated endpoint. What it keeps of the loop is what is left of the present round,
in the form that says what the round waits for. Every turn of the session is a part of
a history of the loop, so what is true of every history is true of the loop in every
session.

The induction is on the call that is carried out: as far as it goes on it takes a
path, and where it has to wait the status stands for what is left of it.

## Main results

* `advance_path` — carrying a call on is a path of the call.
* `Session.Follows.turn`, `Session.Follows.carryOut`, `Session.Follows.join` — whatever
  happens in a session, its loop follows a history, on an endpoint that is fit.
* `Session.Follows.ended` — a loop that has ended has broken off, or it is over as soon
  as it has looked.
-/

namespace Coap.Simulation

open Call

variable {α : Type}

/-! ## Calls -/

/-- What is left of a call that can go no further. -/
inductive Status.Leaves : Status α → Call α → Prop where
  | finished (value : α) : Leaves (.finished value) (.done value)
  | broken : Leaves .broken .fault
  | locked (lock : Lock) (next : Call α) : Leaves (.locked lock next) (.acquire lock next)
  | sending (p : Pending (Except TransportError Unit)) (destination : SocketAddress)
      (datagram : Bytes) (next : Except TransportError Unit → Call α) :
      Leaves (.pending (p.map next)) (.transmit destination datagram next)
  | receiving (p : Pending (Except TransportError Reception))
      (next : Except TransportError Reception → Call α) :
      Leaves (.pending (p.map next)) (.receive next)

theorem endpoint_withQueue (tb : Testbed) (lock : Lock) (q : List Party) :
    (tb.withQueue lock q).endpoint = tb.endpoint := by
  cases lock <;> rfl

theorem endpoint_apply (tb : Testbed) (effect : Effect) :
    (tb.apply effect).endpoint = tb.endpoint := by
  cases effect <;> rfl

/-- How a call is carried on: it takes a path, on which everything that is found has
what all changes of the call keep. -/
structure Carried (I : Endpoint → Prop) (c : Call α) (after : Testbed × Status α)
    (moments : List Moment) (rest : Call α) : Prop where
  path : c.Path moments rest
  leaves : after.2.Leaves rest
  keeps : rest.Keeps I
  endpoint : I after.1.endpoint
  found : ∀ moment ∈ moments, I moment.before

variable {I : Endpoint → Prop} {c : Call α}

theorem Carried.cons {c' rest : Call α} {after : Testbed × Status α} {e e' : Endpoint}
    {action : Action} {moments : List Moment} (h : Carried I c' after moments rest)
    (hstep : c.Step e action e' c') (he : I e) :
    Carried I c after (⟨e, action, e'⟩ :: moments) rest where
  path := .step hstep h.path
  leaves := h.leaves
  keeps := h.keeps
  endpoint := h.endpoint
  found := List.forall_mem_cons.mpr ⟨he, h.found⟩

theorem Carried.here {after : Testbed × Status α} (hleaves : after.2.Leaves c)
    (hc : c.Keeps I) (he : I after.1.endpoint) : Carried I c after [] c where
  path := .here c
  leaves := hleaves
  keeps := hc
  endpoint := he
  found := by simp

/-- Carrying a call on is a path of the call. -/
theorem advance_path (who : Party) (tb : Testbed) (hc : c.Keeps I)
    (he : I tb.endpoint) :
    ∃ moments rest, Carried I c (advance who c tb) moments rest := by
  induction c generalizing tb with
  | done a => exact ⟨[], _, .here (.finished a) hc he⟩
  | fault => exact ⟨[], _, .here .broken hc he⟩
  | update change next ih =>
      obtain ⟨hchange, hnext⟩ := hc tb.endpoint
      obtain ⟨moments, rest, h⟩ :=
        ih _ { tb with endpoint := change tb.endpoint } hnext (hchange he)
      exact ⟨_, rest, h.cons (.update _ _ _) he⟩
  | askTime next ih =>
      obtain ⟨moments, rest, h⟩ := ih _ tb (hc _) he
      exact ⟨_, rest, h.cons (.askTime tb.endpoint _ _) he⟩
  | askWord next ih =>
      obtain ⟨moments, rest, h⟩ := ih _ tb.drawWord.2 (hc _) he
      exact ⟨_, rest, h.cons (.askWord tb.endpoint _ _) he⟩
  | askFraction next ih =>
      obtain ⟨moments, rest, h⟩ := ih _ tb.drawFraction.2 (hc _) he
      exact ⟨_, rest, h.cons (.askFraction tb.endpoint _ _) he⟩
  | tell event next ih =>
      obtain ⟨moments, rest, h⟩ := ih (tb.note (.told event)) hc he
      exact ⟨_, rest, h.cons (.tell tb.endpoint _ _) he⟩
  | acquire lock next ih =>
      have hentered : (tb.enter lock who).endpoint = tb.endpoint :=
        endpoint_withQueue _ _ _
      rw [advance]
      split
      · obtain ⟨moments, rest, h⟩ := ih _ hc (hentered ▸ he)
        exact ⟨_, rest, h.cons (.acquire tb.endpoint _ _) he⟩
      · exact ⟨[], _, .here (.locked lock next) hc (hentered ▸ he)⟩
  | release lock next ih =>
      have hleft : (tb.leave lock).endpoint = tb.endpoint := endpoint_withQueue _ _ _
      obtain ⟨moments, rest, h⟩ := ih _ hc (hleft ▸ he)
      exact ⟨_, rest, h.cons (.release tb.endpoint _ _) he⟩
  | transmit destination datagram next ih =>
      rw [advance]
      split
      · next effect r _ =>
          have hsent := endpoint_apply (tb.startSending destination datagram) effect
          obtain ⟨moments, rest, h⟩ := ih r _ (hc r) (hsent ▸ he)
          exact ⟨_, rest, h.cons (.transmit tb.endpoint _ _ _ _) he⟩
      · exact ⟨[], _, .here (.sending _ destination datagram next) hc he⟩
  | receive next ih =>
      rw [advance]
      split
      · next effect r _ =>
          have hreceived := endpoint_apply tb effect
          obtain ⟨moments, rest, h⟩ := ih r _ (hc r) (hreceived ▸ he)
          exact ⟨_, rest, h.cons (.receive tb.endpoint _ _) he⟩
      · exact ⟨[], _, .here (.receiving _ next) hc he⟩

theorem Pending.outcome?_map {β : Type} (f : α → β) (p : Pending α) (now : Nat) :
    (p.map f).outcome? now =
      (p.outcome? now).map fun (effect, a) => (effect, f a) := by
  have hanswered : (p.map f).answered? now =
      (p.answered? now).map fun (effect, a) => (effect, f a) := by
    cases hanswer : p.answer with
    | none => simp [answered?, map, hanswer]
    | some a =>
        by_cases htime : a.time ≤ now <;>
          simp [answered?, map, hanswer, Option.filter_some, htime]
  have hexpired : (p.map f).expired? now =
      (p.expired? now).map fun (effect, a) => (effect, f a) := by
    by_cases htime : p.deadline ≤ now <;> simp [expired?, map, htime]
  rw [outcome?, outcome?, hanswered, hexpired]
  cases p.answered? now <;> rfl

/-- What a call goes on with comes from what is left of it by one action, in which the
endpoint stays as it is. -/
theorem Status.Leaves.next {s : Status α} {c c' : Call α} {who : Party}
    {tb tb' : Testbed} (h : s.Leaves c) (hnext : s.next? who tb = some (tb', c')) :
    tb'.endpoint = tb.endpoint ∧ ∃ action, c.Step tb.endpoint action tb.endpoint c' := by
  cases h with
  | finished | broken => cases hnext
  | locked lock next =>
      simp only [Status.next?] at hnext
      split at hnext
      · cases hnext
        exact ⟨rfl, _, .acquire _ _ _⟩
      · cases hnext
  | sending p destination datagram next =>
      rw [Status.next?, Pending.outcome?_map, Option.map_map] at hnext
      obtain ⟨⟨effect, r⟩, -, heq⟩ := Option.map_eq_some_iff.mp hnext
      cases heq
      exact ⟨endpoint_apply tb effect, _, .transmit _ _ _ _ r⟩
  | receiving p next =>
      rw [Status.next?, Pending.outcome?_map, Option.map_map] at hnext
      obtain ⟨⟨effect, r⟩, -, heq⟩ := Option.map_eq_some_iff.mp hnext
      cases heq
      exact ⟨endpoint_apply tb effect, _, .receive _ _ r⟩

/-! ## The loop of a session -/

/-- A loop has this history, on an endpoint that was fit whenever it used it. -/
structure Loop.Follows (config : Config) (handler : Message → Call Unit)
    (ticks : List Tick) (l : Loop) : Prop where
  round_eq : l.round = receiveRound handler
  stands : ∃ rest, l.status.Leaves rest ∧ rest.Keeps (·.Fits config) ∧
    Listener.Reaches handler ticks ⟨l.running, rest⟩
  found : ∀ moment ∈ momentsOf ticks, moment.before.Fits config

/-- The endpoint of a session is fit, and its loop, if there is one, has this history. -/
structure Session.Follows (config : Config) (handler : Message → Call Unit)
    (ticks : List Tick) (s : Session) : Prop where
  endpoint : s.testbed.endpoint.Fits config
  loop : ∀ l, s.loop = some l → l.Follows config handler ticks

variable {config : Config} {handler : Message → Call Unit} {ticks : List Tick}

theorem keeps_receiveRound (hhandler : ∀ m, (handler m).Keeps (·.Fits config)) :
    (receiveRound handler).Keeps (·.Fits config) :=
  moves_receiveRound (Endpoint.enduring_fits config).toLasting hhandler

/-- What a loop goes on with, and the history until then. -/
theorem Loop.Follows.next {l : Loop} {tb tb' : Testbed} {c : Call Bool}
    (hhandler : ∀ m, (handler m).Keeps (·.Fits config))
    (h : l.Follows config handler ticks) (he : tb.endpoint.Fits config)
    (hnext : l.next? tb = some (tb', c)) :
    tb'.endpoint.Fits config ∧ c.Keeps (·.Fits config) ∧
      ∃ more, Listener.Reaches handler (ticks ++ more) ⟨l.running, c⟩ ∧
        ∀ moment ∈ momentsOf (ticks ++ more), moment.before.Fits config := by
  obtain ⟨rest, hleaves, hkeeps, hreaches⟩ := h.stands
  unfold Loop.next? at hnext
  -- Between two rounds the loop looks first; in a round it takes up what it waited for.
  split at hnext
  · next again hstatus =>
      rw [hstatus] at hleaves
      cases hleaves
      split at hnext
      · next hgo =>
          cases hnext
          obtain ⟨hagain, hrunning⟩ := Bool.and_eq_true_iff.mp hgo
          rw [hagain, hrunning] at hreaches
          refine ⟨he, h.round_eq ▸ keeps_receiveRound hhandler, [.looked true], ?_, ?_⟩
          · rw [h.round_eq, hrunning]
            exact hreaches.snoc .begin
          · rw [momentsOf_concat]
            simpa [Tick.moment?] using h.found
      · cases hnext
  · obtain ⟨hendpoint, action, hstep⟩ := hleaves.next hnext
    refine ⟨hendpoint ▸ he, (hkeeps.step he hstep).2,
      [.acted ⟨tb.endpoint, action, tb.endpoint⟩], hreaches.snoc (.act hstep), ?_⟩
    rw [momentsOf_concat]
    intro moment hmoment
    rcases List.mem_append.mp hmoment with hearlier | hlast
    · exact h.found moment hearlier
    · rw [List.mem_singleton.mp hlast]
      exact he

namespace Session.Follows

variable {s s' : Session}

/-- A loop that was just started has no history. -/
theorem spawn (handler : Message → Call Unit) (he : s.testbed.endpoint.Fits config) :
    (s.spawn handler).Follows config handler [] where
  endpoint := he
  loop l hl := by
    cases hl
    exact
      { round_eq := rfl
        stands := ⟨.done true, .finished true, trivial, .start⟩
        found := by simp [momentsOf] }

/-- A turn of the loop adds to its history. -/
theorem turn (hhandler : ∀ m, (handler m).Keeps (·.Fits config))
    (h : s.Follows config handler ticks) (hturn : s.turn? = some s') :
    ∃ more, s'.Follows config handler (ticks ++ more) := by
  unfold Session.turn? at hturn
  obtain ⟨l, hloop, hturn⟩ := Option.bind_eq_some_iff.mp hturn
  obtain ⟨⟨tb, c⟩, hnext, rfl⟩ := Option.map_eq_some_iff.mp hturn
  have hl := h.loop l hloop
  obtain ⟨he, hkeeps, more, hreaches, hfound⟩ := hl.next hhandler h.endpoint hnext
  obtain ⟨moments, rest, hcarried⟩ := advance_path .loop tb hkeeps he
  refine ⟨more ++ moments.map .acted, ?_⟩
  rw [← List.append_assoc]
  refine ⟨hcarried.endpoint, fun l' hl' => ?_⟩
  cases hl'
  refine ⟨hl.round_eq, ⟨rest, hcarried.leaves, hcarried.keeps,
    hreaches.acts hcarried.path⟩, ?_⟩
  rw [momentsOf_acted]
  intro moment hmoment
  rcases List.mem_append.mp hmoment with hearlier | hlater
  · exact hfound moment hearlier
  · exact hcarried.found moment hlater

theorem moveTo (h : s.Follows config handler ticks) (time : Nat) :
    (s.moveTo time).Follows config handler ticks :=
  ⟨h.endpoint, h.loop⟩

theorem stays (h : s.Follows config handler ticks) :
    ∃ more, s.Follows config handler (ticks ++ more) :=
  ⟨[], by simpa using h⟩

theorem later {more : List Tick}
    (h : ∃ others, s.Follows config handler (ticks ++ more ++ others)) :
    ∃ others, s.Follows config handler (ticks ++ others) := by
  obtain ⟨others, h⟩ := h
  exact ⟨more ++ others, by rwa [← List.append_assoc]⟩

theorem settle (hhandler : ∀ m, (handler m).Keeps (·.Fits config))
    (h : s.Follows config handler ticks) (n : Nat) :
    ∃ more, (Session.settle n s).Follows config handler (ticks ++ more) := by
  induction n generalizing s ticks with
  | zero => exact h.stays
  | succ n ih =>
      unfold Session.settle
      split
      · next s' hturn =>
          obtain ⟨more, hmore⟩ := h.turn hhandler hturn
          exact later (ih hmore)
      · exact h.stays

theorem join (hhandler : ∀ m, (handler m).Keeps (·.Fits config))
    (h : s.Follows config handler ticks) (n : Nat) :
    ∃ more, (Session.join n s).Follows config handler (ticks ++ more) := by
  induction n generalizing s ticks with
  | zero => exact h.stays
  | succ n ih =>
      unfold Session.join
      split
      · next s' hturn =>
          obtain ⟨more, hmore⟩ := h.turn hhandler hturn
          exact later (ih hmore)
      · split
        · next time _ => exact ih (h.moveTo time)
        · exact h.stays

/-- The loop follows a history whatever the caller does, as long as its calls leave the
endpoint fit. -/
theorem carryOut (hhandler : ∀ m, (handler m).Keeps (·.Fits config))
    {status : Status α} {c : Call α} (hleaves : status.Leaves c)
    (hc : c.Keeps (·.Fits config)) (h : s.Follows config handler ticks) (n : Nat) :
    ∃ more, (Session.carryOut n status s).1.Follows config handler (ticks ++ more) := by
  fun_induction Session.carryOut n status s generalizing c ticks with
  | case1 | case2 | case3 | case7 => exact h.stays
  | case4 n status s _ _ tb c' hnext ih =>
      -- The caller's turn: nothing happens to the loop.
      obtain ⟨hendpoint, action, hstep⟩ := hleaves.next hnext
      have he : tb.endpoint.Fits config := hendpoint ▸ h.endpoint
      obtain ⟨moments, rest, hcarried⟩ :=
        advance_path .caller tb (hc.step h.endpoint hstep).2 he
      exact ih hcarried.leaves hcarried.keeps ⟨hcarried.endpoint, h.loop⟩
  | case5 n status s _ _ _ s' hturn ih =>
      obtain ⟨more, hmore⟩ := h.turn hhandler hturn
      obtain ⟨others, hothers⟩ := hmore.settle hhandler patience
      exact later (later (ih hleaves hc hothers))
  | case6 n status s _ _ _ _ time _ ih => exact ih hleaves hc (h.moveTo time)

theorem call (hhandler : ∀ m, (handler m).Keeps (·.Fits config)) {c : Call α}
    (hc : c.Keeps (·.Fits config)) (h : s.Follows config handler ticks) :
    ∃ more, (s.call c).1.Follows config handler (ticks ++ more) := by
  obtain ⟨moments, rest, hcarried⟩ := advance_path .caller s.testbed hc h.endpoint
  have hbegun : Session.Follows config handler ticks
      { s with testbed := (advance .caller c s.testbed).1 } :=
    ⟨hcarried.endpoint, h.loop⟩
  exact carryOut hhandler hcarried.leaves hcarried.keeps hbegun patience

/-- Telling the loop to stop is part of its history. -/
theorem tellToStop (h : s.Follows config handler ticks) :
    Session.Follows config handler (ticks ++ [.stopped])
      { s with loop := s.loop.map ({ · with running := false }) } where
  endpoint := h.endpoint
  loop l hl := by
    obtain ⟨l, hloop, rfl⟩ := Option.map_eq_some_iff.mp hl
    have hl := h.loop l hloop
    obtain ⟨rest, hleaves, hkeeps, hreaches⟩ := hl.stands
    refine ⟨hl.round_eq, ⟨rest, hleaves, hkeeps, hreaches.snoc .stop⟩, ?_⟩
    rw [momentsOf_concat]
    simpa [Tick.moment?] using hl.found

/-- A loop that has ended has broken off, or it is over as soon as it has looked. -/
theorem ended {l : Loop} (h : s.Follows config handler ticks) (hloop : s.loop = some l)
    (hended : l.ended = true) :
    ∃ more rest, (rest = .done false ∨ rest = .fault) ∧ more ⊆ [.looked false] ∧
      Listener.Reaches handler (ticks ++ more) ⟨l.running, rest⟩ := by
  obtain ⟨rest, hleaves, -, hreaches⟩ := (h.loop l hloop).stands
  unfold Loop.ended at hended
  split at hended
  · next again hstatus =>
      rw [hstatus] at hleaves
      cases hleaves
      cases again with
      | false => exact ⟨[], _, .inl rfl, by simp, by simpa using hreaches⟩
      | true =>
          have hrunning : l.running = false := by simpa using hended
          rw [hrunning] at hreaches ⊢
          exact ⟨[.looked false], _, .inl rfl, by simp, hreaches.snoc .leave⟩
  · next hstatus =>
      rw [hstatus] at hleaves
      cases hleaves
      exact ⟨[], _, .inr rfl, by simp, by simpa using hreaches⟩
  · cases hended

end Session.Follows

end Coap.Simulation
