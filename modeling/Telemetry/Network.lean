import Telemetry.Address
import Telemetry.Bytes

/-!
# Networks

What a sender needs of the operating system: names are looked up, a socket is bound
and connected to a peer, and datagrams are handed over.  A network also has a clock,
since reading it is as much beyond the sender's control.
-/

namespace Telemetry

class Network (ν : Type) where
  /-- The addresses an endpoint stands for, or the system's complaint.  There may
  be none. -/
  resolve : ν → String → Except String (List Address)
  /-- Binds a fresh socket to an address of this host. -/
  bind : ν → Address → Except String Unit × ν
  /-- Connects the socket that was bound last to a peer. -/
  connect : ν → Address → Except String Unit × ν
  /-- Hands a datagram over.  The answer is the number of bytes taken. -/
  transmit : ν → Address → Bytes → Except String Nat × ν
  /-- Monotonic nanoseconds. -/
  now : ν → UInt64 × ν

/-- A host that talks to itself.  Sockets can always be bound, and at most one
collector listens there.  A datagram to any other address is taken all the same,
and the refusal it provokes is reported by the next `transmit`, which hands nothing
over. -/
structure Loopback where
  /-- Whether the interface is up; without it nothing connects. -/
  up : Bool
  /-- Where the collector listens. -/
  collector : Option Address
  /-- A refusal that is still to be reported. -/
  refused : Bool := false
  /-- Datagrams the collector got, latest first. -/
  delivered : List Bytes := []

namespace Loopback

def resolve (endpoint : String) : Except String (List Address) :=
  match Address.ofEndpoint? endpoint with
  | some address => .ok [address]
  | none => .error "invalid socket address"

def connect (network : Loopback) : Except String Unit × Loopback :=
  if network.up then
    (.ok (), { network with refused := false })
  else
    (.error "network is unreachable", network)

def transmit (network : Loopback) (peer : Address) (datagram : Bytes) :
    Except String Nat × Loopback :=
  if network.refused then
    (.error "connection refused", { network with refused := false })
  else if network.collector = some peer then
    (.ok datagram.length, { network with delivered := datagram :: network.delivered })
  else
    (.ok datagram.length, { network with refused := true })

/-- The collector goes away. -/
def close (network : Loopback) : Loopback := { network with collector := none }

instance : Network Loopback where
  resolve _ := resolve
  bind network _ := (.ok (), network)
  connect network _ := network.connect
  transmit := transmit
  now network := (0, network)

end Loopback

end Telemetry
