import ServiceChain.Transport.HopLocators
import ServiceChain.Transport.LogicalForwarder
import ServiceChain.Transport.MacChaining
import ServiceChain.Transport.NshTunnel
import ServiceChain.Transport.Vlan

/-! The six transports behind one interface: which of them carries a path, how it finds the
locators of the hop graph, and what it makes of a leg. -/
namespace ServiceChain

inductive Variant where
  | nshTunnel
  | nshEthernet
  | mpls
  | vlan
  | macChaining
  | logicalForwarder
  deriving DecidableEq, Repr

namespace Variant

def name : Variant → String
  | nshTunnel => "nsh-tunnel"
  | nshEthernet => "nsh-ethernet"
  | mpls => "mpls"
  | vlan => "vlan"
  | macChaining => "mac-chaining"
  | logicalForwarder => "logical-forwarder"

def table : List (String × Variant) :=
  [nshTunnel, nshEthernet, mpls, vlan, macChaining, logicalForwarder].map fun v => (v.name, v)

/-- The variant of a declared transport and encapsulation; five pairs have one. -/
def declared? : Transport → Encapsulation → Option Variant
  | .vxlanGpe, .nsh => some nshTunnel
  | .mac, .nsh => some nshEthernet
  | .mpls, .transparent => some mpls
  | .mac, .transparent => some vlan
  | .mac, .macChaining => some macChaining
  | _, _ => none

/-- A path with a placed function is carried by logical forwarders, whatever it declares. -/
def forPath? (path : ServicePath) (g : HopGraph) : Option Variant :=
  if g.isLogical then some logicalForwarder else declared? path.transport path.encapsulation

def nameEntry (t : Topology) (e : HopEntry) : Variant → HopEntry
  | nshTunnel => e.nameLocators t .ip
  | nshEthernet => e.nameLocators t .mac
  | mpls => e.nameLocators t .mpls
  | vlan => e.nameLocators t .mac
  | macChaining => MacChaining.nameLink t (e.nameLocators t .mac)
  | logicalForwarder => e

def nameLocators (v : Variant) (t : Topology) (g : HopGraph) : HopGraph :=
  g.mapEntries fun e => v.nameEntry t e

/-- Look up what the named locators lead to. The VLAN transport leases ids on the way. -/
def resolveLocators (v : Variant) (t : Topology) (p : Placements) (pool : VlanPool)
    (path : PathId) (g : HopGraph) : HopGraph × VlanPool :=
  match v with
  | logicalForwarder => (g.mapEntries (LogicalForwarder.resolveTunnel p), pool)
  | vlan => Vlan.leaseHopIds pool path (g.mapEntries (·.resolveLocators t))
  | _ => (g.mapEntries (·.resolveLocators t), pool)

def tables? (c : Config) : Variant → Option TableNumbers
  | logicalForwarder => some c.logicalTables.index
  | _ => none

def emit (v : Variant) (ctx : LegContext) (e : HopEntry) (leg : Leg) : LegOutcome :=
  match v with
  | nshTunnel => NshTunnel.emit ctx e leg
  | nshEthernet => NshEthernet.emit ctx e leg
  | mpls => Mpls.emit ctx leg
  | vlan => Vlan.emit ctx e leg
  | macChaining => MacChaining.emit ctx e leg
  | logicalForwarder => LogicalForwarder.emit ctx e leg

end Variant
end ServiceChain
