import Coap.Net.Ip

/-!
# Socket addresses

Where datagrams are sent to and come from: an IP address with a port, and
for IPv6 addresses the scope they are valid in. The written form has the
port behind a colon, with IPv6 addresses in brackets and a scope other than
0 behind a percent sign.

## Main results

* `isIpv4_ofIpv4` — the family of an address is that of its IP address.
-/

namespace Coap

/-- An IP address with a port. -/
structure SocketAddress where
  ip : IpAddress
  port : UInt16
  /-- The scope of an IPv6 address, 0 if there is none. -/
  scope : UInt32
  deriving DecidableEq

namespace SocketAddress

/-- The address without a scope. -/
def ofIp (ip : IpAddress) (port : UInt16) : SocketAddress := ⟨ip, port, 0⟩

/-- Whether an address is one of IPv4. -/
def isIpv4 (a : SocketAddress) : Bool :=
  match a.ip with
  | .v4 _ => true
  | .v6 _ => false

theorem isIpv4_ofIpv4 (ip : Ipv4) (port : UInt16) :
    (ofIp (.v4 ip) port).isIpv4 = true := rfl

/-- The written form of an address. -/
def text (a : SocketAddress) : String :=
  match a.ip with
  | .v4 ip => ip.text ++ ":" ++ a.port.toNat.repr
  | .v6 ip =>
      let scope := if a.scope = 0 then "" else "%" ++ a.scope.toNat.repr
      "[" ++ ip.text ++ scope ++ "]:" ++ a.port.toNat.repr

/-- Read a decimal number below `limit`. -/
def below? (limit : Nat) (cs : List Char) : Option Nat :=
  (Text.readNat? 10 cs).filter (· < limit)

/-- Read an IPv6 address with or without a scope. -/
def scoped? (cs : List Char) : Option (Ipv6 × UInt32) :=
  match cs.splitOn '%' with
  | [ip] => (Ipv6.ofChars? ip).map (·, 0)
  | [ip, scope] => do
      return (← Ipv6.ofChars? ip, UInt32.ofNat (← below? 4294967296 scope))
  | _ => none

/-- Read an address. -/
def ofText? (s : String) : Option SocketAddress :=
  match s.toList with
  | '[' :: rest =>
      match rest.splitOn ']' with
      | [inner, ':' :: port] => do
          let (ip, scope) ← scoped? inner
          return ⟨.v6 ip, UInt16.ofNat (← below? 65536 port), scope⟩
      | _ => none
  | cs =>
      match cs.splitOn ':' with
      | [ip, port] => do
          return ⟨.v4 (← Ipv4.ofChars? ip),
            UInt16.ofNat (← below? 65536 port), 0⟩
      | _ => none

end SocketAddress

end Coap
