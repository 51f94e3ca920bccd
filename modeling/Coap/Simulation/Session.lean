import Coap.Endpoint.Scan
import Coap.Simulation.Progress

/-!
# Sessions

In a session a caller carries out one call after the other on a simulated
endpoint, and a receive loop may run beside it. Whoever can go on does, the
caller first; when both have to wait the clock moves to the next time that
one of them waits for. The loop goes on until it has to wait, also from one
round into the next.

## Main results

* `now_settle`, `now_le_carryOut`, `now_le_join` — the clock never goes back.
* `isRunning_stop`, `isRunning_drop` — no loop runs after it was ended.
-/

namespace Coap.Simulation

/-- A receive loop. -/
structure Loop where
  /-- One round. Its value tells whether there may be another one. -/
  round : Call Bool
  /-- Whether nobody has told the loop to stop. -/
  running : Bool
  /-- How the present round stands. -/
  status : Status Bool

namespace Loop

/-- A loop before its first round. -/
def new (round : Call Bool) : Loop := ⟨round, true, .finished true⟩

/-- What the loop can go on with, in the testbed it goes on in. -/
def next? (tb : Testbed) (l : Loop) : Option (Testbed × Call Bool) :=
  match l.status with
  | .finished again => if again && l.running then some (tb, l.round) else none
  | status => status.next? .loop tb

theorem now_next? {tb tb' : Testbed} {l : Loop} {c : Call Bool}
    (h : l.next? tb = some (tb', c)) : tb'.now = tb.now := by
  unfold next? at h
  split at h
  · split at h
    · cases h; rfl
    · contradiction
  · exact Status.now_next? h

/-- Whether the loop is over. -/
def ended (l : Loop) : Bool :=
  match l.status with
  | .finished again => !(again && l.running)
  | .broken => true
  | _ => false

end Loop

/-- A session. -/
structure Session where
  testbed : Testbed
  /-- The receive loop, if one was started and not ended. -/
  loop : Option Loop

namespace Session

variable {α : Type}

/-- A session with a new endpoint, which draws the first random word. -/
def start (config : Config) (words : Supply UInt32) (fractions : Supply Float)
    (localAddress : Except Failure SocketAddress) : Except ConfigError Session :=
  (Endpoint.new config words.draw.1).map fun endpoint =>
    { testbed :=
        { endpoint
          now := 0
          words := words.draw.2
          fractions
          outcomes := []
          arrivals := []
          localAddress
          inFlightQueue := []
          readBufferQueue := []
          log := [] }
      loop := none }

/-! ## Taking turns -/

/-- The session after the loop has gone on once, if it can. -/
def turn? (s : Session) : Option Session :=
  s.loop.bind fun l =>
    (l.next? s.testbed).map fun (tb, c) =>
      { testbed := (advance .loop c tb).1
        loop := some { l with status := (advance .loop c tb).2 } }

/-- The time the loop waits for. -/
def wake? (s : Session) : Option Nat := s.loop.bind fun l => l.status.wake?

/-- Move the clock. -/
def moveTo (s : Session) (time : Nat) : Session :=
  { s with testbed := s.testbed.moveTo time }

/-- The earlier of two times. -/
def earlier : Option Nat → Option Nat → Option Nat
  | some a, some b => some (min a b)
  | some a, none => some a
  | none, b => b

/-- A bound on how often the turn may change while one call is carried out. -/
def patience : Nat := 1000000000

/-- Let the loop go on until it has to wait. -/
def settle : Nat → Session → Session
  | 0, s => s
  | n + 1, s =>
      match s.turn? with
      | some s' => settle n s'
      | none => s

/-- Let the loop go on until it is over. -/
def join : Nat → Session → Session
  | 0, s => s
  | n + 1, s =>
      match s.turn? with
      | some s' => join n s'
      | none =>
          match s.wake? with
          | some t => join n (s.moveTo t)
          | none => s

/-- Carry the caller's call on until it is over, and the loop beside it. -/
def carryOut : Nat → Status α → Session → Session × Option α
  | _, .finished a, s => (s, some a)
  | _, .broken, s => (s, none)
  | 0, _, s => (s, none)
  | n + 1, status, s =>
      match status.next? .caller s.testbed with
      | some (tb, c) =>
          carryOut n (advance .caller c tb).2
            { s with testbed := (advance .caller c tb).1 }
      | none =>
          match s.turn? with
          | some s' => carryOut n status (settle patience s')
          | none =>
              match earlier status.wake? s.wake? with
              | some t => carryOut n status (s.moveTo t)
              | none => (s, none)

/-! ## What the caller does -/

/-- Carry out a call. There is no value if it breaks off. -/
def call (s : Session) (c : Call α) : Session × Option α :=
  carryOut patience (advance .caller c s.testbed).2
    { s with testbed := (advance .caller c s.testbed).1 }

/-- Wait for so many milliseconds. -/
def sleep (s : Session) (delay : Nat) : Session :=
  (carryOut patience
    (.pending (.sleep (s.testbed.now + delay) (.done ()))) s).1

/-- Move the clock by so many milliseconds. -/
def elapse (s : Session) (delay : Nat) : Session :=
  s.moveTo (s.testbed.now + delay)

/-- Add to what the socket receives. -/
def arrive (s : Session) (arrivals : List Arrival) : Session :=
  { s with testbed := { s.testbed with arrivals := s.testbed.arrivals ++ arrivals } }

/-- Add to what becomes of the datagrams that are sent. -/
def script (s : Session) (outcomes : List SendOutcome) : Session :=
  { s with testbed := { s.testbed with outcomes := s.testbed.outcomes ++ outcomes } }

/-- Take what is in the log. -/
def takeLog (s : Session) : List Record × Session :=
  (s.testbed.log, { s with testbed := { s.testbed with log := [] } })

/-- Start a receive loop. -/
def spawn (s : Session) (handler : Message → Call Unit) : Session :=
  { s with loop := some (.new (Call.receiveRound handler)) }

/-- Whether a receive loop runs. -/
def isRunning (s : Session) : Bool := s.loop.any fun l => l.running && !l.ended

/-- Tell the loop to stop and wait until it has. It finishes its round. -/
def stop (s : Session) : Session :=
  { join patience { s with loop := s.loop.map ({ · with running := false }) } with
    loop := none }

/-- Break the loop off where it is. -/
def drop (s : Session) : Session := ⟨s.testbed.abandon .loop, none⟩

/-! ## Laws -/

theorem now_moveTo (s : Session) (time : Nat) :
    s.testbed.now ≤ (s.moveTo time).testbed.now := Nat.le_max_left ..

theorem now_turn? {s s' : Session} (h : s.turn? = some s') :
    s'.testbed.now = s.testbed.now := by
  unfold turn? at h
  obtain ⟨l, -, h⟩ := Option.bind_eq_some_iff.1 h
  obtain ⟨⟨tb, c⟩, hn, rfl⟩ := Option.map_eq_some_iff.1 h
  exact (now_advance .loop c tb).trans (Loop.now_next? hn)

theorem now_settle (n : Nat) (s : Session) :
    (settle n s).testbed.now = s.testbed.now := by
  induction n generalizing s with
  | zero => rfl
  | succ n ih =>
    unfold settle
    split
    · next s' h => exact (ih s').trans (now_turn? h)
    · rfl

theorem now_le_join (n : Nat) (s : Session) :
    s.testbed.now ≤ (join n s).testbed.now := by
  induction n generalizing s with
  | zero => exact Nat.le_refl _
  | succ n ih =>
    unfold join
    split
    · next s' h => exact now_turn? h ▸ ih s'
    · split
      · exact Nat.le_trans (now_moveTo ..) (ih _)
      · exact Nat.le_refl _

theorem now_le_carryOut (n : Nat) (status : Status α) (s : Session) :
    s.testbed.now ≤ (carryOut n status s).1.testbed.now := by
  fun_induction carryOut n status s with
  | case1 | case2 | case3 | case7 => exact Nat.le_refl _
  | case4 n status s _ _ tb c h ih =>
    have hw := (now_advance .caller c tb).trans (Status.now_next? h)
    exact hw ▸ ih
  | case5 n status s _ _ _ s' h ih =>
    exact ((now_settle patience s').trans (now_turn? h)) ▸ ih
  | case6 n status s _ _ _ _ t _ ih => exact Nat.le_trans (now_moveTo s t) ih

theorem isRunning_stop (s : Session) : s.stop.isRunning = false := rfl

theorem isRunning_drop (s : Session) : s.drop.isRunning = false := rfl

end Session

end Coap.Simulation
