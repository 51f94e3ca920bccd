import Coap.Endpoint.Call

/-!
# Scripts

In a simulation everything that an endpoint does not decide itself is
scripted beforehand: the random values it draws, what becomes of the
datagrams it sends, and the datagrams and failures that it receives.

Times are in milliseconds since the start of the simulation.

## Main results

* `draw_cons`, `draw_nil` — values are drawn in order, and the last one is
  drawn again and again.
-/

namespace Coap.Simulation

/-! ## Random values -/

/-- A supply of values, in the order they are drawn. -/
structure Supply (α : Type) where
  items : List α
  /-- What is drawn when no items are left. -/
  last : α

namespace Supply

variable {α : Type}

/-- Draw a value. -/
def draw (s : Supply α) : α × Supply α :=
  match s.items with
  | [] => (s.last, s)
  | a :: rest => (a, ⟨rest, a⟩)

@[simp] theorem draw_nil (last : α) :
    (Supply.mk [] last).draw = (last, ⟨[], last⟩) := rfl

@[simp] theorem draw_cons (a : α) (rest : List α) (last : α) :
    (Supply.mk (a :: rest) last).draw = (a, ⟨rest, a⟩) := rfl

end Supply

/-! ## The socket -/

/-- A failure of the socket. -/
inductive Failure where
  | closed
  | timeout
  | unreachable
  /-- A failure in the operating system's terms. -/
  | system (failure : SocketFailure)
  deriving DecidableEq, Repr

namespace Failure

/-- The failure as an endpoint sees it. -/
def cause : Failure → TransportError
  | closed => .closed
  | timeout => .timeout
  | unreachable => .unreachable
  | system f => .ofFailure f

/-- The name of a failure. -/
def name : Failure → String
  | closed => "Closed"
  | timeout => "Timeout"
  | unreachable => "Unreachable"
  | system f => f.name

/-- All failures. -/
def all : List Failure :=
  [closed, timeout, unreachable] ++ SocketFailure.all.map system

theorem mem_all (f : Failure) : f ∈ all := by
  cases f with
  | closed | timeout | unreachable => simp [all]
  | system f => simp [all, SocketFailure.mem_all f]

end Failure

/-- What becomes of a datagram that is sent. -/
inductive SendOutcome where
  /-- It is sent at once. -/
  | ok
  /-- It is refused at once. -/
  | fails (failure : Failure)
  /-- Sending it never ends. -/
  | hangs
  /-- It is sent after so many milliseconds. -/
  | after (delay : Nat)
  deriving DecidableEq, Repr

/-- What the socket receives. -/
structure Arrival where
  /-- The time from which on it can be received. -/
  time : Nat
  /-- A datagram with its sender, or a failure. -/
  content : Except Failure (Bytes × SocketAddress)

/-- What receiving it comes to: a timeout counts as nothing having come. -/
def Arrival.reception (a : Arrival) : Except TransportError Reception :=
  match a.content with
  | .ok received => .ok (some received)
  | .error failure =>
      if failure.cause = .timeout then .ok none else .error failure.cause

end Coap.Simulation
