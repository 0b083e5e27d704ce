import ServiceChain.Flow.Batch
import ServiceChain.Flow.Defaults
import ServiceChain.Transport.Variant

/-! Compilation: from a path to the flows of one batch. The plan settles the hop graph and the
transport; the compilation walks the graph and stages the flows of every leg of every entry. -/
namespace ServiceChain

/-- What a renderer is set up with. -/
structure Deployment where
  config : Config := {}
  topology : Topology := .empty
  placements : Placements := .empty

/-- The hop graph of a path with its locators, and the transport that carries it. -/
structure Plan where
  graph : HopGraph
  variant : Variant
  deriving DecidableEq, Repr

namespace Plan

/-- Build the graph, choose the transport, find the locators. The pool may lease ids even to a
path that fails later. -/
def make (d : Deployment) (pool : VlanPool) (path : ServicePath) :
    Except RenderError Plan × VlanPool :=
  match HopGraph.build d.topology d.placements path with
  | .error e => (.error e, pool)
  | .ok g =>
    match Variant.forPath? path g with
    | none => (.error (.noTransportProcessor path.transport path.encapsulation), pool)
    | some v =>
      let (g, pool) :=
        v.resolveLocators d.topology d.placements pool path.id (v.nameLocators d.topology g)
      (.ok ⟨g, v⟩, pool)

def tables (p : Plan) (c : Config) : TableNumbers :=
  match p.variant.tables? c with
  | some tables => if p.graph.isLogical then tables else c.standardTables
  | none => c.standardTables

end Plan

/-- An entry with its switches and its places in the topology looked up. -/
structure LocatedEntry where
  number : Nat
  entry : HopEntry
  dstSwitch : Option SwitchId
  srcSwitch : Option SwitchId
  /-- How the function at the destination is reached. -/
  dstFunction : Option Attachment
  /-- Where the previous function hands traffic back. -/
  srcFunction : Option Attachment
  srcEgress : Option BoundLocator
  dstIngress : Option BoundLocator
  deriving DecidableEq, Repr

namespace LocatedEntry

/-- The switch of an end; the edges of a path have none. -/
def switchOf (t : Topology) (point : Endpoint) (placement : Option Placement) :
    Except RenderError (Option SwitchId) :=
  match point.name? with
  | none => .ok none
  | some name =>
    match t.switch? name placement with
    | some switch => .ok (some switch)
    | none => .error (.unresolvedForwarder name)

/-- Look up an entry. Only a forwarder without a switch is an error, the destination's first. -/
def locate (t : Topology) (number : Nat) (e : HopEntry) : Except RenderError LocatedEntry := do
  let dstSwitch ← switchOf t e.dst e.dstPlacement
  let srcSwitch ← switchOf t e.src e.srcPlacement
  return {
    number := number
    entry := e
    dstSwitch := dstSwitch
    srcSwitch := srcSwitch
    dstFunction := do
      t.attachment? (← e.dst.name?) (← e.serviceFunction) e.direction .intoFunction
    srcFunction := do
      t.attachment? (← e.src.name?) (← e.previousFunction) e.direction .outOfFunction
    srcEgress := do t.locator? (← e.src.name?) (← e.srcEgressLocator)
    dstIngress := do t.locator? (← e.dst.name?) (← e.dstIngressLocator) }

def admission (l : LocatedEntry) : List (SwitchId × Leg) :=
  match l.dstSwitch with
  | none => []
  | some switch =>
    let legs :=
      [Leg.forwarderIngress] ++ (l.dstFunction.map Leg.functionIngress).toList
        ++ [.forwarderMapper l.entry.hopIngress] ++ (l.dstFunction.map Leg.functionMapper).toList
    legs.map fun leg => (switch, leg)

def delivery (l : LocatedEntry) : List (SwitchId × Leg) :=
  match l.dstSwitch, l.dstFunction with
  | some switch, some dst =>
    if l.entry.src = .ingress then [(switch, .gatewayToFunction dst)]
    else [(switch, .forwarderToFunction l.srcEgress dst)]
  | _, _ => []

def handBack (l : LocatedEntry) : List (SwitchId × Leg) :=
  match l.srcSwitch, l.srcFunction with
  | some switch, some src =>
    if l.entry.dst = .egress then [(switch, .functionToGateway src)] else []
  | _, _ => []

/-- The leg that takes traffic on from the previous function, on the same forwarder or towards
another. -/
def onward (l : LocatedEntry) : List (SwitchId × Leg) :=
  match l.srcSwitch, l.srcFunction with
  | some switch, some src =>
    if l.entry.isSameForwarder then
      (l.dstFunction.map fun dst => (switch, Leg.functionToFunction src dst)).toList
    else [(switch, .functionToForwarder src l.dstIngress)]
  | _, _ => []

/-- Legs that send traffic out: out of the path, or to the function and to the next forwarder. -/
def departure (g : HopGraph) (l : LocatedEntry) : List (SwitchId × Leg) :=
  let e := l.entry
  if e.dst = .egress then
    (l.srcSwitch.map fun switch => (switch, Leg.terminalEgress l.srcFunction e.pathEgress)).toList
  else
    let toFunction :=
      match l.dstSwitch, l.dstFunction with
      | some switch, some dst => [(switch, Leg.functionEgress dst)]
      | _, _ => []
    let toForwarder :=
      match l.srcSwitch with
      | some switch =>
        if !e.isSameForwarder || g.isCrossPlacement l.number then
          [(switch, Leg.forwarderEgress l.srcEgress l.dstIngress e.hopIngress)]
        else []
      | none => []
    toFunction ++ toForwarder

/-- Every leg of an entry with the switch its flows go to, in the order they are staged. -/
def legs (g : HopGraph) (l : LocatedEntry) : List (SwitchId × Leg) :=
  l.admission ++ l.delivery ++ l.handBack
    ++ (if g.isIntraLogical l.number then [] else l.onward) ++ l.departure g

end LocatedEntry

/-- A leg without flows. -/
structure SkippedLeg where
  entry : Nat
  leg : String
  reason : SkipCause
  deriving DecidableEq, Repr

/-- What was staged so far: the batch, the switches whose default flows are in it, the legs that
were skipped. -/
structure Compilation where
  batch : FlowBatch
  pending : List SwitchId := []
  skipped : List SkippedLeg := []
  deriving DecidableEq, Repr

namespace Compilation

def stageDefaults (d : Deployment) (initialized : List SwitchId) (l : LocatedEntry)
    (c : Compilation) : Compilation :=
  match l.dstSwitch with
  | none => c
  | some switch =>
    if switch ∈ initialized ∨ switch ∈ c.pending then c
    else
      let accelerated := (l.entry.dst.name?.bind d.topology.forwarder?).bind (·.acceleratedPort)
      { c with
        batch := (c.batch.withOwner .unowned).stageAll switch (defaultFlows d.config accelerated)
        pending := Ordered.insert switch c.pending }

/-- The flows of a leg, or the note that it has none. -/
def stageLeg (ctx : LegContext) (v : Variant) (l : LocatedEntry) (c : Compilation)
    (leg : SwitchId × Leg) : Compilation :=
  match v.emit ctx l.entry leg.2 with
  | .flows templates => { c with batch := c.batch.stageAll leg.1 templates }
  | .skipped reason => { c with skipped := c.skipped ++ [⟨l.number, leg.2.name, reason⟩] }

/-- An entry: default flows where they are missing, then the path's own flows. -/
def stageEntry (d : Deployment) (p : Plan) (initialized : List SwitchId) (c : Compilation)
    (l : LocatedEntry) : Compilation :=
  let ctx : LegContext := ⟨d.topology, d.config, p.graph.pathId⟩
  let c := c.stageDefaults d initialized l
  let c := { c with batch := c.batch.withOwner (.path p.graph.pathId) }
  (l.legs p.graph).foldl (stageLeg ctx p.variant l) c

/-- The entries in order. At a forwarder without a switch the compilation ends with the number of
flows that were staged until then. -/
def stageEntries (d : Deployment) (p : Plan) (initialized : List SwitchId) :
    Compilation → Nat → List HopEntry → Except (RenderError × Nat) Compilation
  | c, _, [] => .ok c
  | c, number, e :: rest =>
    match LocatedEntry.locate d.topology number e with
    | .error err => .error (err, c.batch.size)
    | .ok l => stageEntries d p initialized (c.stageEntry d p initialized l) (number + 1) rest

def make (d : Deployment) (p : Plan) (initialized : List SwitchId) :
    Except (RenderError × Nat) Compilation :=
  stageEntries d p initialized { batch := { tables := p.tables d.config } } 0 p.graph.entries

end Compilation
end ServiceChain
