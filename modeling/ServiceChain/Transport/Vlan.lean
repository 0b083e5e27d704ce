import ServiceChain.Transport.Mpls
import ServiceChain.VlanPool

/-! VLAN tags between forwarders. Hops whose locator names no VLAN get an id from the pool. The
legs towards functions are those of MPLS. -/
namespace ServiceChain.Vlan

/-- The hop enters by a MAC locator without a VLAN. -/
def lacksVlan (e : HopEntry) : Bool :=
  match e.hopIngress with
  | some { locator := .mac _ none, .. } => true
  | _ => false

def tag (id : Option VlanId) (e : HopEntry) : HopEntry :=
  match e.hopIngress with
  | some hop =>
    match hop.locator with
    | .mac address _ => { e with hopIngress := some { hop with locator := .mac address id } }
    | _ => e
  | none => e

def tagAll : List (Option VlanId) → List HopEntry → List HopEntry
  | _, [] => []
  | ids, e :: rest =>
    if lacksVlan e then tag ids.head?.join e :: tagAll ids.tail rest else e :: tagAll ids rest

/-- Lease as many ids as entries lack. Without need the pool is not asked. -/
def leaseHopIds (pool : VlanPool) (path : PathId) (g : HopGraph) : HopGraph × VlanPool :=
  let needed := g.entries.countP lacksVlan
  if needed = 0 then (g, pool)
  else
    let (ids, pool) := pool.lease path needed
    ({ g with entries := tagAll ids g.entries }, pool)

def emit (ctx : LegContext) (e : HopEntry) : Leg → LegOutcome
  | .forwarderIngress =>
    match e.hopIngress.bind (·.vlan?) with
    | some vlan =>
      .one (.ingress .transportIngress (FlowMatch.any.withVlan (some vlan)) .pathMapper)
    | none => .missing .hopVlan
  | .forwarderMapper hopIngress =>
    match hopIngress.bind (·.vlan?) with
    | some vlan =>
      .one (.mapper .pathMapper ctx.pathId (FlowMatch.any.withVlan (some vlan)) .popVlan)
    | none => .missing .hopVlan
  | .forwarderEgress srcEgress dstIngress hopIngress =>
    match hopIngress.bind (·.vlan?) with
    | some vlan => .one (Mpls.forwarderEgress ctx srcEgress dstIngress (.pushVlan vlan))
    | none => .missing .hopVlan
  | leg => Mpls.emit ctx leg

end ServiceChain.Vlan
