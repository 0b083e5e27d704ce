import ServiceChain.HopGraph

/-! Events: what a consumer is told about paths that came and went. -/
namespace ServiceChain

structure HopSummary where
  forwarder : String
  serviceFunction : String
  index : ServiceIndex
  placement : Option Placement
  deriving DecidableEq, Repr

inductive PathEvent where
  | rendered (path : PathId) (name : String) (hops : List HopSummary)
  | removed (path : PathId) (name : String)
  deriving DecidableEq, Repr

namespace PathEvent

def path : PathEvent → PathId
  | rendered path _ _ => path
  | removed path _ => path

def hopSummary? (e : HopEntry) : Option HopSummary := do
  let (forwarder, function, index) ← HopGraph.hopOf? e
  return ⟨forwarder, function, index, e.dstPlacement⟩

def ofGraph (path : ServicePath) (g : HopGraph) : PathEvent :=
  rendered path.id path.name (g.entries.filterMap hopSummary?)

def ofRemoval (path : ServicePath) : PathEvent := removed path.id path.name

end PathEvent
end ServiceChain
