import Coap.Option.List
import Coap.Uri.Basic

/-!
# The options that name a resource

A request names its resource by options: one for the host, one for the
port, one for each segment of the path and one for each term of the query.
Host and port are left out where the address that the request is sent to
already tells them.

## Main results

* `portOption_eq_nil` — the port is left out exactly if the destination
  has it.
-/

namespace Coap.Uri

/-- Whether the host is the destination's address, in the same words or
not. -/
def hostIsImplied (u : Uri) : Option SocketAddress → Bool
  | some d => u.host == d.ip.text || u.hostIp? == some d.ip
  | none => false

/-- Whether the port is the destination's port. -/
def portIsImplied (u : Uri) : Option SocketAddress → Bool
  | some d => d.port == u.port
  | none => false

/-- The host, unless the destination implies it. -/
def hostOption (u : Uri) (destination : Option SocketAddress) :
    List MessageOption :=
  if u.hostIsImplied destination then []
  else [.ofText OptionNumber.uriHost u.host]

/-- The port, unless the destination implies it. -/
def portOption (u : Uri) (destination : Option SocketAddress) :
    List MessageOption :=
  if u.portIsImplied destination then []
  else [.ofUInt32 OptionNumber.uriPort u.port.toUInt32]

/-- The options of a request for the resource, sent to the destination. -/
def options (u : Uri) (destination : Option SocketAddress) : Options :=
  .ofList
    (u.hostOption destination ++ u.portOption destination ++
      u.path.map (.ofText OptionNumber.uriPath) ++
      u.query.map (.ofText OptionNumber.uriQuery))

theorem portOption_eq_nil {u : Uri} {destination : Option SocketAddress} :
    u.portOption destination = [] ↔
      ∃ d, destination = some d ∧ d.port = u.port := by
  unfold portOption portIsImplied
  cases destination with
  | none => simp
  | some d => by_cases h : d.port = u.port <;> simp [h]

end Coap.Uri
