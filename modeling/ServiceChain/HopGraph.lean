import ServiceChain.RenderError

/-! The hop graph: a path as a chain of entries from its ingress to its egress. An entry says
where traffic leaves, where it arrives, and what is known of both ends. -/
namespace ServiceChain

/-- An end of an entry: the edge of the path, or a forwarder. -/
inductive Endpoint where
  | ingress
  | egress
  | forwarder (name : String)
  deriving DecidableEq, Repr

namespace Endpoint

def name? : Endpoint → Option String
  | forwarder name => some name
  | _ => none

def text : Endpoint → String
  | ingress => "INGRESS"
  | egress => "EGRESS"
  | forwarder name => name

end Endpoint

/-- One step of a path: traffic leaves `src` and is delivered to a function on `dst`. -/
structure HopEntry where
  src : Endpoint
  dst : Endpoint
  /-- The function delivered to; the last entry has none. -/
  serviceFunction : Option String
  group : Option String
  /-- The function served before this step. -/
  previousFunction : Option String
  pathId : PathId
  direction : Direction
  index : ServiceIndex
  srcPlacement : Option Placement
  dstPlacement : Option Placement
  /-- The names of the locators between the two forwarders, chosen by the transport. -/
  srcEgressLocator : Option String := none
  dstIngressLocator : Option String := none
  /-- Where traffic enters `dst`. -/
  hopIngress : Option BoundLocator := none
  /-- Where traffic leaves the path; for the last entry only. -/
  pathEgress : Option BoundLocator := none
  deriving DecidableEq, Repr

namespace HopEntry

def isSameForwarder (e : HopEntry) : Bool := e.src.name?.isSome && e.src.name? = e.dst.name?

/-- The two ends are placed differently, or only one of them is. -/
def crossesPlacements (e : HopEntry) : Bool := e.srcPlacement ≠ e.dstPlacement

end HopEntry

structure HopGraph where
  pathId : PathId
  entries : List HopEntry
  deriving DecidableEq, Repr

namespace HopGraph

def isLogical (g : HopGraph) : Bool :=
  g.entries.any fun e => e.dstPlacement.isSome || e.srcPlacement.isSome

def isIntraLogical (g : HopGraph) (i : Nat) : Bool :=
  g.isLogical && g.entries[i]?.any (·.isSameForwarder)

def isCrossPlacement (g : HopGraph) (i : Nat) : Bool :=
  g.isIntraLogical i && g.entries[i]?.any (·.crossesPlacements)

def hopOf? (e : HopEntry) : Option (String × String × ServiceIndex) := do
  let forwarder ← e.dst.name?
  let function ← e.serviceFunction
  return (forwarder, function, e.index)

def hops (g : HopGraph) : List (String × String × ServiceIndex) := g.entries.filterMap hopOf?

def mapEntries (g : HopGraph) (f : HopEntry → HopEntry) : HopGraph :=
  { g with entries := g.entries.map f }

/-- Service indices count down from `expected` without a gap and leave one for the egress; `i` is
the number of the first hop. -/
def checkIndices (i : Nat) (expected : ServiceIndex) : List Hop → Except PathDefect Unit
  | [] => .ok ()
  | hop :: rest =>
    if hop.index ≠ expected then .error (.wrongIndex i hop.index expected)
    else if expected = 0 then .error (.indexZero i)
    else checkIndices (i + 1) (expected - 1) rest

def checkHops (path : ServicePath) : Except PathDefect Unit :=
  if path.hops.isEmpty then .error .noHops else checkIndices 0 path.startingIndex path.hops

/-- The placement of a function that is reached through logical interfaces alone; none if no
interface is placed. -/
def placementOf (t : Topology) (p : Placements) (function : String) :
    Except RenderError (Option Placement) :=
  match (t.serviceFunction? function).bind (·.logicalInterfaces?) with
  | none => .ok none
  | some interfaces =>
    match Ordered.ofList (interfaces.filterMap fun i => (p.placement i).toOption) with
    | [] => .ok none
    | [one] => .ok (some one)
    | several => .error (.ambiguousPlacement function several)

/-- Where traffic leaves from: the forwarder, the function it comes back from, its placement. -/
structure Departure where
  point : Endpoint
  function : Option String := none
  placement : Option Placement := none

def entryTo (path : ServicePath) (origin : Departure) (hop : Hop)
    (placement : Option Placement) : HopEntry where
  src := origin.point
  dst := .forwarder hop.forwarder
  serviceFunction := some hop.serviceFunction
  group := hop.group
  previousFunction := origin.function
  pathId := path.id
  direction := path.direction
  index := hop.index
  srcPlacement := origin.placement
  dstPlacement := placement

/-- The index that the last hop leaves over for the way out of the path. -/
def egressIndex? (path : ServicePath) : Option ServiceIndex :=
  path.hops.getLast?.bind fun hop => if hop.index = 0 then none else some (hop.index - 1)

def finalEntry (path : ServicePath) (egress : ServiceIndex) (origin : Departure) : HopEntry where
  src := origin.point
  dst := .egress
  serviceFunction := none
  group := none
  previousFunction := origin.function
  pathId := path.id
  direction := path.direction
  index := egress
  srcPlacement := origin.placement
  dstPlacement := none

def chain (path : ServicePath) (egress : ServiceIndex) (origin : Departure) :
    List (Hop × Option Placement) → List HopEntry
  | [] => [finalEntry path egress origin]
  | (hop, placement) :: rest =>
    entryTo path origin hop placement ::
      chain path egress ⟨.forwarder hop.forwarder, some hop.serviceFunction, placement⟩ rest

@[simp] theorem chain_length (path : ServicePath) (egress : ServiceIndex) (origin : Departure)
    (hops : List (Hop × Option Placement)) :
    (chain path egress origin hops).length = hops.length + 1 := by
  induction hops generalizing origin with
  | nil => rfl
  | cons hop rest ih => simp [chain, ih]

/-- The hop graph of a path, or the first reason against it: malformed hops, then the first hop
whose function has several placements, then that no index is left for the egress. -/
def build (t : Topology) (p : Placements) (path : ServicePath) : Except RenderError HopGraph := do
  match checkHops path with
  | .error defect => throw (.malformedPath path.id defect)
  | .ok () =>
    let placed ← path.hops.mapM fun hop => do
      let placement ← placementOf t p hop.serviceFunction
      return (hop, placement)
    match egressIndex? path with
    | none => throw (.malformedPath path.id .noEgressIndex)
    | some egress => return ⟨path.id, chain path egress ⟨.ingress, none, none⟩ placed⟩

end HopGraph
end ServiceChain
