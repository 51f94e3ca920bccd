import Coap.Simulation.Testbed

/-!
# Calls in progress

A call goes on until it is over or has to wait: for a lock, or for the
socket. An operation of the socket is pending until the socket answers or
its timeout has passed; if both have happened when the call is looked at
again, the answer counts.

## Main results

* `now_advance` — time stands still while a call goes on.
* `log_advance` — the log only grows.
* `outcome_of_answer` — an answer of the socket wins over the timeout.
-/

namespace Coap.Simulation

/-! ## Operations of the socket -/

/-- What an answer of the socket brings about. -/
inductive Effect where
  | nothing
  /-- A delayed datagram has been sent. -/
  | sent
  /-- The first arrival has been received. -/
  | received
  deriving DecidableEq, Repr

/-- An answer of the socket. -/
structure Answer (α : Type) where
  /-- The time from which on it is there. -/
  time : Nat
  effect : Effect
  value : α

/-- An operation of the socket that has not ended yet. -/
structure Pending (α : Type) where
  /-- The time at which it is given up. -/
  deadline : Nat
  /-- What it comes to then. -/
  late : α
  /-- The answer of the socket, if there ever is one. -/
  answer : Option (Answer α)

namespace Pending

variable {α β : Type}

/-- A wait for a time. -/
def sleep (time : Nat) (a : α) : Pending α := ⟨time, a, none⟩

/-- The same operation, its result used. -/
def map (f : α → β) (p : Pending α) : Pending β :=
  ⟨p.deadline, f p.late, p.answer.map fun a => ⟨a.time, a.effect, f a.value⟩⟩

/-- The answer of the socket, if it is there. -/
def answered? (p : Pending α) (now : Nat) : Option (Effect × α) :=
  (p.answer.filter fun a => a.time ≤ now).map fun a => (a.effect, a.value)

/-- What comes of the operation if there is no answer. -/
def expired? (p : Pending α) (now : Nat) : Option (Effect × α) :=
  if p.deadline ≤ now then some (.nothing, p.late) else none

/-- What has come of the operation. -/
def outcome? (p : Pending α) (now : Nat) : Option (Effect × α) :=
  (p.answered? now).or (p.expired? now)

/-- The time at which something comes of the operation. -/
def wake (p : Pending α) : Nat :=
  match p.answer with
  | some a => min a.time p.deadline
  | none => p.deadline

theorem outcome_of_answer {p : Pending α} {a : Answer α} {now : Nat}
    (h : p.answer = some a) (ht : a.time ≤ now) :
    p.outcome? now = some (a.effect, a.value) := by
  have ha : p.answered? now = some (a.effect, a.value) := by
    simp only [answered?, h, Option.filter_some, ht, decide_true, if_true,
      Option.map_some]
  simp only [outcome?, ha, Option.some_or]

end Pending

namespace Testbed

/-- Bring an effect about. -/
def apply (tb : Testbed) : Effect → Testbed
  | .nothing => tb
  | .sent => tb.note .sent
  | .received => { tb with arrivals := tb.arrivals.tail }

/-- When and how the socket answers a send that starts now. -/
def sendAnswer (tb : Testbed) :
    SendOutcome → Option (Answer (Except TransportError Unit))
  | .ok => some ⟨tb.now, .nothing, .ok ()⟩
  | .fails failure => some ⟨tb.now, .nothing, .error failure.cause⟩
  | .hangs => none
  | .after delay => some ⟨tb.now + delay, .sent, .ok ()⟩

/-- A send that starts now. -/
def sending (tb : Testbed) : Pending (Except TransportError Unit) where
  deadline := deadline tb.now tb.endpoint.config.sendTimeout
  late := .error .timeout
  answer := tb.sendAnswer tb.nextOutcome

/-- A receive that starts now. -/
def receiving (tb : Testbed) : Pending (Except TransportError Reception) where
  deadline := deadline tb.now tb.endpoint.config.receiveTimeout
  late := .ok none
  answer := tb.arrivals.head?.map fun a => ⟨a.time, .received, a.reception⟩

theorem now_apply (tb : Testbed) (effect : Effect) :
    (tb.apply effect).now = tb.now := by
  cases effect <;> rfl

theorem log_apply (tb : Testbed) (effect : Effect) :
    tb.log <+: (tb.apply effect).log := by
  cases effect with
  | nothing | received => exact List.prefix_rfl
  | sent => exact List.prefix_append ..

end Testbed

/-! ## Calls -/

/-- How a call stands when it has gone on as far as it can. -/
inductive Status (α : Type) where
  /-- It is over. -/
  | finished (value : α)
  /-- It broke off. -/
  | broken
  /-- It waits for a lock. -/
  | locked (lock : Lock) (next : Call α)
  /-- It waits for the socket. -/
  | pending (next : Pending (Call α))

variable {α : Type}

/-- Carry a call on as far as it can go. -/
def advance (who : Party) : Call α → Testbed → Testbed × Status α
  | .done a, tb => (tb, .finished a)
  | .fault, tb => (tb.abandon who, .broken)
  | .update change next, tb =>
      advance who (next tb.endpoint) { tb with endpoint := change tb.endpoint }
  | .askTime next, tb => advance who (next (Testbed.reading tb.now)) tb
  | .askWord next, tb => advance who (next tb.drawWord.1) tb.drawWord.2
  | .askFraction next, tb =>
      advance who (next tb.drawFraction.1) tb.drawFraction.2
  | .tell event next, tb => advance who next (tb.note (.told event))
  | .acquire lock next, tb =>
      if (tb.enter lock who).holds lock who then
        advance who next (tb.enter lock who)
      else (tb.enter lock who, .locked lock next)
  | .release lock next, tb => advance who next (tb.leave lock)
  | .transmit destination datagram next, tb =>
      match tb.sending.outcome? tb.now with
      | some (effect, r) =>
          advance who (next r) ((tb.startSending destination datagram).apply effect)
      | none => (tb.startSending destination datagram, .pending (tb.sending.map next))
  | .receive next, tb =>
      match tb.receiving.outcome? tb.now with
      | some (effect, r) => advance who (next r) (tb.apply effect)
      | none => (tb, .pending (tb.receiving.map next))

theorem now_advance (who : Party) (c : Call α) (tb : Testbed) :
    (advance who c tb).1.now = tb.now := by
  induction c generalizing tb with
  | done | fault => rfl
  | update change _ ih => exact ih _ { tb with endpoint := change tb.endpoint }
  | askTime _ ih => exact ih _ tb
  | askWord _ ih | askFraction _ ih => exact ih _ _
  | tell _ _ ih => exact ih _
  | release lock _ ih => exact (ih _).trans (Testbed.now_withQueue ..)
  | acquire lock _ ih =>
    simp only [advance]
    split
    · exact (ih _).trans (Testbed.now_withQueue ..)
    · exact Testbed.now_withQueue ..
  | transmit _ _ _ ih =>
    simp only [advance]
    split
    · exact (ih _ _).trans (Testbed.now_apply _ _)
    · rfl
  | receive _ ih =>
    simp only [advance]
    split
    · exact (ih _ _).trans (Testbed.now_apply _ _)
    · rfl

theorem log_advance (who : Party) (c : Call α) (tb : Testbed) :
    tb.log <+: (advance who c tb).1.log := by
  induction c generalizing tb with
  | done | fault => exact List.prefix_rfl
  | update change _ ih => exact ih _ { tb with endpoint := change tb.endpoint }
  | askTime _ ih => exact ih _ tb
  | askWord _ ih => exact ih _ tb.drawWord.2
  | askFraction _ ih => exact ih _ tb.drawFraction.2
  | release lock _ ih =>
    exact Testbed.log_withQueue tb lock _ ▸ ih (tb.leave lock)
  | tell event _ ih =>
    exact (List.prefix_append tb.log [.told event]).trans (ih (tb.note (.told event)))
  | acquire lock _ ih =>
    simp only [advance]
    split
    · exact Testbed.log_withQueue tb lock _ ▸ ih (tb.enter lock who)
    · exact Testbed.log_withQueue tb lock _ ▸ List.prefix_rfl
  | transmit destination datagram _ ih =>
    have hs : tb.log <+: (tb.startSending destination datagram).log :=
      List.prefix_append ..
    simp only [advance]
    split
    · exact (hs.trans (Testbed.log_apply _ _)).trans (ih _ _)
    · exact hs
  | receive _ ih =>
    simp only [advance]
    split
    · exact (Testbed.log_apply _ _).trans (ih _ _)
    · exact List.prefix_rfl

namespace Status

/-- What a call can go on with, in the testbed it goes on in. -/
def next? (who : Party) (tb : Testbed) : Status α → Option (Testbed × Call α)
  | finished _ => none
  | broken => none
  | locked lock next => if tb.holds lock who then some (tb, next) else none
  | pending p => (p.outcome? tb.now).map fun (effect, next) => (tb.apply effect, next)

theorem now_next? {who : Party} {tb tb' : Testbed} {s : Status α} {c : Call α}
    (h : s.next? who tb = some (tb', c)) : tb'.now = tb.now := by
  cases s with
  | finished | broken => contradiction
  | locked lock next =>
    simp only [next?] at h
    split at h
    · cases h; rfl
    · contradiction
  | pending p =>
    obtain ⟨⟨effect, next⟩, -, hw⟩ := Option.map_eq_some_iff.1 h
    cases hw
    exact Testbed.now_apply tb effect

/-- The time at which a call can go on, if time is what it waits for. -/
def wake? : Status α → Option Nat
  | pending p => some p.wake
  | _ => none

end Status

end Coap.Simulation
