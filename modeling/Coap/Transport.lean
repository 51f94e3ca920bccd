/-!
# Failures of the datagram transport

The socket below an endpoint reports failures in the operating system's
terms. To an endpoint only four cases differ: the socket is gone, nothing
happened in time, the destination cannot be reached, and the rest, which
keeps its kind.

## Main results

* `ofFailure_eq_timeout` — exactly two kinds of failure count as nothing
  having happened in time.
-/

namespace Coap

/-- A failure in the operating system's terms. -/
inductive SocketFailure where
  | notFound
  | permissionDenied
  | connectionRefused
  | connectionReset
  | hostUnreachable
  | networkUnreachable
  | connectionAborted
  | notConnected
  | addrInUse
  | addrNotAvailable
  | networkDown
  | brokenPipe
  | alreadyExists
  | wouldBlock
  | invalidInput
  | invalidData
  | timedOut
  | writeZero
  | interrupted
  | unsupported
  | unexpectedEof
  | outOfMemory
  | other
  deriving DecidableEq, Repr

namespace SocketFailure

/-- All kinds of failure. -/
def all : List SocketFailure :=
  [notFound, permissionDenied, connectionRefused, connectionReset,
    hostUnreachable, networkUnreachable, connectionAborted, notConnected,
    addrInUse, addrNotAvailable, networkDown, brokenPipe, alreadyExists,
    wouldBlock, invalidInput, invalidData, timedOut, writeZero, interrupted,
    unsupported, unexpectedEof, outOfMemory, other]

theorem mem_all (f : SocketFailure) : f ∈ all := by cases f <;> decide

/-- The name of a kind. -/
def name : SocketFailure → String
  | notFound => "NotFound"
  | permissionDenied => "PermissionDenied"
  | connectionRefused => "ConnectionRefused"
  | connectionReset => "ConnectionReset"
  | hostUnreachable => "HostUnreachable"
  | networkUnreachable => "NetworkUnreachable"
  | connectionAborted => "ConnectionAborted"
  | notConnected => "NotConnected"
  | addrInUse => "AddrInUse"
  | addrNotAvailable => "AddrNotAvailable"
  | networkDown => "NetworkDown"
  | brokenPipe => "BrokenPipe"
  | alreadyExists => "AlreadyExists"
  | wouldBlock => "WouldBlock"
  | invalidInput => "InvalidInput"
  | invalidData => "InvalidData"
  | timedOut => "TimedOut"
  | writeZero => "WriteZero"
  | interrupted => "Interrupted"
  | unsupported => "Unsupported"
  | unexpectedEof => "UnexpectedEof"
  | outOfMemory => "OutOfMemory"
  | other => "Other"

/-- What is told of a kind. -/
def message : SocketFailure → String
  | notFound => "entity not found"
  | permissionDenied => "permission denied"
  | connectionRefused => "connection refused"
  | connectionReset => "connection reset"
  | hostUnreachable => "host unreachable"
  | networkUnreachable => "network unreachable"
  | connectionAborted => "connection aborted"
  | notConnected => "not connected"
  | addrInUse => "address in use"
  | addrNotAvailable => "address not available"
  | networkDown => "network down"
  | brokenPipe => "broken pipe"
  | alreadyExists => "entity already exists"
  | wouldBlock => "operation would block"
  | invalidInput => "invalid input parameter"
  | invalidData => "invalid data"
  | timedOut => "timed out"
  | writeZero => "write zero"
  | interrupted => "operation interrupted"
  | unsupported => "unsupported"
  | unexpectedEof => "unexpected end of file"
  | outOfMemory => "out of memory"
  | other => "other error"

end SocketFailure

/-- Why a datagram was not sent or received. -/
inductive TransportError where
  /-- The socket is gone. -/
  | closed
  /-- Nothing happened in time. -/
  | timeout
  /-- The destination cannot be reached. -/
  | unreachable
  /-- Any other failure. -/
  | other (failure : SocketFailure)
  deriving DecidableEq, Repr

namespace TransportError

/-- What is told of a failure. -/
def message : TransportError → String
  | closed => "socket is closed"
  | timeout => "timed out"
  | unreachable => "destination unreachable"
  | other f => "I/O error: " ++ f.message

/-- The case that a failure of the operating system falls into. -/
def ofFailure : SocketFailure → TransportError
  | .timedOut => timeout
  | .wouldBlock => timeout
  | .connectionRefused => unreachable
  | .connectionReset => unreachable
  | .addrNotAvailable => unreachable
  | .hostUnreachable => unreachable
  | .networkUnreachable => unreachable
  | .notConnected => closed
  | .brokenPipe => closed
  | f => other f

theorem ofFailure_eq_timeout {f : SocketFailure} :
    ofFailure f = timeout ↔ f = .timedOut ∨ f = .wouldBlock := by
  cases f <;> simp [ofFailure]

end TransportError

end Coap
