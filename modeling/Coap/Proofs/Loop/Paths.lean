import Coap.Proofs.Runs.Invariant
import Coap.Proofs.Runs.Serial

/-!
# Calls among others

A call that does not run alone finds the endpoint, at each of its actions, as all
other calls have left it. A path keeps what a call did and what it found: for each
action the endpoint before and after. Nothing ties the endpoint after one action to
the endpoint before the next one, so a path covers whatever else goes on.

Paths are taken apart as runs are: along the call, and where one call goes on with
another. A path may stop anywhere, so the first of two calls is either still under
way or has come to the value that the second one goes on from.

## Main results

* `path_bind_iff` — the path of a call that goes on with another.
* `Steady.path` — a steady call does not break off, and it receives no more
  datagrams than it may.
* `path_checkQueues` — a scan does not break off if all deadlines can be told.
-/

namespace Coap

/-- An action, with the endpoint that it found and the one that it left. -/
structure Moment where
  before : Endpoint
  action : Action
  after : Endpoint

/-- The reception that an action is, if it is one. -/
def Action.reception? : Action → Option (Except TransportError Reception)
  | received r => some r
  | _ => none

/-- What was received at some moments. -/
def receptions (moments : List Moment) : List (Except TransportError Reception) :=
  moments.filterMap (·.action.reception?)

@[simp] theorem receptions_nil : receptions [] = [] := rfl

@[simp] theorem receptions_append (l₁ l₂ : List Moment) :
    receptions (l₁ ++ l₂) = receptions l₁ ++ receptions l₂ :=
  List.filterMap_append

theorem receptions_cons (moment : Moment) (rest : List Moment) :
    receptions (moment :: rest) =
      moment.action.reception?.toList ++ receptions rest := by
  cases h : moment.action.reception? <;> simp [receptions, h]

/-- The deadlines of all messages in flight can be told. -/
def Endpoint.TellsDeadlines (e : Endpoint) : Prop :=
  ∀ p ∈ e.inFlight.entries, p.2.timer.deadline? ≠ none

namespace Call

variable {α β : Type}

/-- A call has taken these actions and has come to what is left of it. -/
inductive Path : Call α → List Moment → Call α → Prop where
  | here (c) : Path c [] c
  | step {c c₁ c₂ : Call α} {e e' : Endpoint} {action : Action}
      {moments : List Moment} (hstep : c.Step e action e' c₁)
      (hrest : Path c₁ moments c₂) : Path c (⟨e, action, e'⟩ :: moments) c₂

variable {moments : List Moment} {c c' : Call α}

theorem Path.snoc {e e' : Endpoint} {action : Action} {c'' : Call α}
    (h : c.Path moments c') (hstep : c'.Step e action e' c'') :
    c.Path (moments ++ [⟨e, action, e'⟩]) c'' := by
  induction h with
  | here => exact .step hstep (.here _)
  | step hfirst hrest ih => exact .step hfirst (ih hstep)

/-- A call that runs alone takes a path. What every change of the call keeps holds of
all that it finds. -/
theorem Runs.path {I : Endpoint → Prop} {e e' : Endpoint} {actions : List Action}
    {a : α} (h : c.Runs e actions e' (some a)) (hc : c.Keeps I) (he : I e) :
    ∃ moments, c.Path moments (.done a) ∧ moments.map (·.action) = actions ∧
      ∀ moment ∈ moments, I moment.before := by
  generalize hv : some a = value at h
  induction h with
  | done e b =>
      cases hv
      exact ⟨[], .here _, rfl, by simp⟩
  | fault => cases hv
  | step hstep hrest ih =>
      obtain ⟨hafter, hnext⟩ := hc.step he hstep
      obtain ⟨moments, hpath, hactions, hall⟩ := ih hnext hafter hv
      refine ⟨_ :: moments, .step hstep hpath, ?_, ?_⟩
      · rw [List.map_cons, hactions]
      · intro moment hmoment
        rcases List.mem_cons.mp hmoment with rfl | hlater
        · exact he
        · exact hall moment hlater

/-- A call that is not over can take an action, whatever it finds. -/
theorem exists_step (hc : ¬c.IsOver) (e : Endpoint) :
    ∃ action e' c', c.Step e action e' c' := by
  cases c with
  | done a => exact absurd trivial hc
  | fault => exact absurd trivial hc
  | update change next => exact ⟨_, _, _, .update e change next⟩
  | askTime next => exact ⟨_, _, _, .askTime e next ⟨0⟩⟩
  | askWord next => exact ⟨_, _, _, .askWord e next 0⟩
  | askFraction next => exact ⟨_, _, _, .askFraction e next 0⟩
  | tell event next => exact ⟨_, _, _, .tell e event next⟩
  | acquire lock next => exact ⟨_, _, _, .acquire e lock next⟩
  | release lock next => exact ⟨_, _, _, .release e lock next⟩
  | transmit destination datagram next =>
      exact ⟨_, _, _, .transmit e destination datagram next (.ok ())⟩
  | receive next => exact ⟨_, _, _, .receive e next (.ok none)⟩

theorem path_done_iff {a : α} :
    (done a).Path moments c ↔ moments = [] ∧ c = done a := by
  constructor
  · intro h
    cases h with
    | here => exact ⟨rfl, rfl⟩
    | step hstep => cases hstep
  · rintro ⟨rfl, rfl⟩
    exact .here _

theorem bind_ne_done {f : α → Call β} {b : β}
    (h : ∀ a, c ≠ done a) : c.bind f ≠ done b := by
  cases c with
  | done a => exact absurd rfl (h a)
  | _ => nofun

theorem bind_ne_fault {f : α → Call β}
    (h : ∀ a, c ≠ done a) (hc : c ≠ fault) : c.bind f ≠ fault := by
  cases c with
  | done a => exact absurd rfl (h a)
  | fault => exact absurd rfl hc
  | _ => nofun

/-- A call that goes on with another is in the first one until that has a value,
and then in the second one. -/
theorem path_bind_iff {f : α → Call β} {d : Call β} :
    (c.bind f).Path moments d ↔
      (∃ c', c.Path moments c' ∧ (∀ a, c' ≠ done a) ∧ d = c'.bind f) ∨
        ∃ first others a, moments = first ++ others ∧ c.Path first (done a) ∧
          (f a).Path others d := by
  constructor
  · intro h
    -- The induction is on the path of the whole; which call an action belongs to is
    -- told by whether the first one still has something left.
    generalize hb : c.bind f = b at h
    induction h generalizing c with
    | here =>
        by_cases hc : ∃ a, c = done a
        · obtain ⟨a, rfl⟩ := hc
          exact .inr ⟨[], [], a, rfl, .here _, hb ▸ .here _⟩
        · exact .inl ⟨c, .here c, fun a ha => hc ⟨a, ha⟩, hb.symm⟩
    | @step b b₁ _ e e' action rest hstep hrest ih =>
        by_cases hc : ∃ a, c = done a
        · obtain ⟨a, rfl⟩ := hc
          have hf : f a = b := hb
          exact .inr ⟨[], _, a, rfl, .here _, hf ▸ .step hstep hrest⟩
        · rw [← hb] at hstep
          obtain ⟨c₁, hfirst, rfl⟩ := hstep.of_bind fun a ha => hc ⟨a, ha⟩
          rcases ih rfl with ⟨c', hpath, hne, rfl⟩ | ⟨first, others, a, rfl, hpath, hf⟩
          · exact .inl ⟨c', .step hfirst hpath, hne, rfl⟩
          · exact .inr ⟨_ :: first, others, a, rfl, .step hfirst hpath, hf⟩
  · rintro (⟨c', hpath, -, rfl⟩ | ⟨first, others, a, rfl, hpath, hf⟩)
    · induction hpath with
      | here => exact .here _
      | step hstep hrest ih => exact .step (hstep.bind f) ih
    · generalize hdone : done a = b at hpath
      induction hpath with
      | here =>
          subst hdone
          exact hf
      | step hstep hrest ih => exact .step (hstep.bind f) (ih hdone)

/-- A call that goes on with another is over when both are. -/
theorem path_bind_done_iff {f : α → Call β} {b : β} :
    (c.bind f).Path moments (done b) ↔
      ∃ first others a, moments = first ++ others ∧ c.Path first (done a) ∧
        (f a).Path others (done b) := by
  rw [path_bind_iff]
  constructor
  · rintro (⟨c', -, hne, hdone⟩ | h)
    · cases c' with
      | done a => exact absurd rfl (hne a)
      | _ => cases hdone
    · exact h
  · exact .inr

/-! ## Steady calls -/

/-- The call does not break off, and it waits for at most so many datagrams. -/
def Steady : Call α → Nat → Prop
  | done _, _ => True
  | fault, _ => False
  | update _ next, n => ∀ e, (next e).Steady n
  | askTime next, n => ∀ t, (next t).Steady n
  | askWord next, n => ∀ word, (next word).Steady n
  | askFraction next, n => ∀ fraction, (next fraction).Steady n
  | tell _ next, n => next.Steady n
  | acquire _ next, n => next.Steady n
  | release _ next, n => next.Steady n
  | transmit _ _ next, n => ∀ result, (next result).Steady n
  | receive next, n => 0 < n ∧ ∀ result, (next result).Steady (n - 1)

theorem Steady.mono {n m : Nat} (hc : c.Steady n) (hle : n ≤ m) : c.Steady m := by
  induction c generalizing n m with
  | done a => exact trivial
  | fault => exact hc
  | update change next ih | askTime next ih | askWord next ih
  | askFraction next ih | transmit _ _ next ih =>
      intro x
      exact ih x (hc x) hle
  | tell _ next ih | acquire _ next ih | release _ next ih => exact ih hc hle
  | receive next ih =>
      obtain ⟨hpos, hnext⟩ := hc
      exact ⟨by omega, fun result => ih result (hnext result) (by omega)⟩

theorem Steady.bind {f : α → Call β} {n k : Nat} (hc : c.Steady n)
    (hf : ∀ a, (f a).Steady k) : (c >>= f).Steady (n + k) := by
  show (c.bind f).Steady (n + k)
  induction c generalizing n with
  | done a => exact (hf a).mono (by omega)
  | fault => exact hc
  | update change next ih | askTime next ih | askWord next ih
  | askFraction next ih | transmit _ _ next ih =>
      intro x
      exact ih x (hc x)
  | tell _ next ih | acquire _ next ih | release _ next ih => exact ih hc
  | receive next ih =>
      obtain ⟨hpos, hnext⟩ := hc
      refine ⟨by omega, fun result => ?_⟩
      have hrest := ih result (hnext result)
      rwa [show n - 1 + k = n + k - 1 by omega] at hrest

/-- What is steady and waits for nothing may follow on anything. -/
theorem Steady.followed {f : α → Call β} {n : Nat} (hc : c.Steady n)
    (hf : ∀ a, (f a).Steady 0) : (c >>= f).Steady n :=
  Steady.bind hc hf

theorem Steady.step {n : Nat} {e e' : Endpoint} {action : Action} (hc : c.Steady n)
    (hstep : c.Step e action e' c') :
    ∃ m, c'.Steady m ∧ action.reception?.toList.length + m ≤ n := by
  have hsilent {m : Nat} (hnext : c'.Steady m) (hle : m ≤ n)
      (hnone : action.reception? = none) :
      ∃ m, c'.Steady m ∧ action.reception?.toList.length + m ≤ n :=
    ⟨m, hnext, by simpa [hnone] using hle⟩
  cases hstep with
  | update change next => exact hsilent (hc e) (Nat.le_refl _) rfl
  | askTime next t => exact hsilent (hc t) (Nat.le_refl _) rfl
  | askWord next word => exact hsilent (hc word) (Nat.le_refl _) rfl
  | askFraction next fraction => exact hsilent (hc fraction) (Nat.le_refl _) rfl
  | tell event => exact hsilent hc (Nat.le_refl _) rfl
  | acquire lock => exact hsilent hc (Nat.le_refl _) rfl
  | release lock => exact hsilent hc (Nat.le_refl _) rfl
  | transmit destination datagram next result =>
      exact hsilent (hc result) (Nat.le_refl _) rfl
  | receive next result =>
      obtain ⟨hpos, hnext⟩ := hc
      refine ⟨n - 1, hnext result, ?_⟩
      show 1 + (n - 1) ≤ n
      omega

/-- A steady call does not break off, and it receives no more datagrams than it may
wait for. -/
theorem Steady.path {n : Nat} (hc : c.Steady n) (h : c.Path moments c') :
    c' ≠ fault ∧ (receptions moments).length ≤ n := by
  induction h generalizing n with
  | here c =>
      refine ⟨?_, by simp⟩
      rintro rfl
      exact hc
  | step hstep hrest ih =>
      obtain ⟨m, hnext, hle⟩ := hc.step hstep
      obtain ⟨hne, hlength⟩ := ih hnext
      refine ⟨hne, ?_⟩
      rw [receptions_cons, List.length_append]
      exact Nat.le_trans (Nat.add_le_add_left hlength _) hle

theorem steady_notifyAll (l : List Notification) (n : Nat) :
    (notifyAll l).Steady n := by
  induction l with
  | nil => exact trivial
  | cons _ rest ih => exact ih

theorem steady_notify (n : Option Notification) : (notify n).Steady 0 := by
  cases n <;> exact trivial

theorem steady_locked {lock : Lock} {n : Nat} (hc : c.Steady n) :
    (locked lock c).Steady n :=
  hc.followed fun _ => trivial

theorem steady_perform (step : Endpoint → Endpoint × α) (n : Nat) :
    (perform step).Steady n :=
  fun _ => trivial

theorem steady_finish (id : UInt16) (outcome : Outcome) :
    (finish id outcome).Steady 0 :=
  (steady_perform _ 0).followed fun _ => trivial

theorem steady_retry (now : Instant) (entry : Entry) : (retry now entry).Steady 0 := by
  intro e
  show Steady (if _ then _ else _) 0
  split
  · exact steady_finish _ _
  · rintro (cause | _)
    · exact steady_finish _ _
    · exact fun _ => trivial

theorem steady_scan (now : Instant) (ids : List UInt16) : (scan now ids).Steady 0 := by
  induction ids with
  | nil => exact trivial
  | cons id rest ih =>
      have hothers (first : List Finished) :
          (scan now rest >>= fun others => pure (first ++ others)).Steady 0 :=
        ih.followed fun _ => trivial
      refine Steady.followed (steady_perform (fun e => (e, e)) 0) ?_
      intro e
      split
      · exact (steady_retry now _).followed hothers
      · exact hothers []

theorem steady_settle (answer : Message) : (settle answer).Steady 0 :=
  (steady_locked (steady_perform _ 0)).followed fun _ => steady_notify _

theorem steady_receiveMessage : receiveMessage.Steady 1 := by
  refine steady_locked fun _ => ⟨Nat.one_pos, ?_⟩
  rintro (cause | _ | ⟨datagram, sender⟩)
  · exact trivial
  · exact trivial
  · exact fun _ => trivial

/-- A receive does not break off, and it receives one datagram at most. -/
theorem steady_receiveNext : receiveNext.Steady 1 := by
  refine steady_receiveMessage.followed ?_
  rintro (cause | _ | m)
  · exact trivial
  · exact trivial
  · show Steady (if _ then _ else _) 0
    split
    · exact (steady_settle m).followed fun _ => trivial
    · exact trivial

/-! ## Scans -/

/-- A scan receives nothing, and it does not break off if all deadlines can be told
where it looks at them. -/
theorem path_checkQueues {c' : Call Unit} (h : checkQueues.Path moments c')
    (htell : ∀ moment ∈ moments, moment.before.TellsDeadlines) :
    c' ≠ fault ∧ receptions moments = [] := by
  have hscanned (now : Instant) (due : List UInt16) :
      ((scan now due).bind fun finished =>
        release .inFlight (notifyAll (notices finished))).Steady 0 :=
    (steady_scan now due).followed fun finished => steady_notifyAll _ 0
  rw [checkQueues_eq] at h
  cases h with
  | here => exact ⟨nofun, rfl⟩
  | step hacquired h =>
  cases hacquired
  cases h with
  | here => exact ⟨nofun, rfl⟩
  | step hread h =>
  cases hread with
  | askTime _ now =>
  cases h with
  | here => exact ⟨nofun, rfl⟩
  | @step _ _ _ e _ _ _ hlooked h =>
  cases hlooked
  -- Only here can a scan break off: from here on it is steady.
  have htold : e.TellsDeadlines := htell ⟨e, .updated, e⟩ (by simp)
  have htells : e.inFlight.expiredIds? now ≠ none :=
    InFlight.expiredIds?_ne_none htold
  obtain ⟨due, hdue⟩ := Option.ne_none_iff_exists'.mp htells
  dsimp only [bind] at h
  rw [hdue] at h
  obtain ⟨hne, hlength⟩ := (hscanned _ due).path h
  refine ⟨hne, ?_⟩
  simp only [receptions_cons]
  simpa [Action.reception?] using hlength

end Call

end Coap
