import ServiceChain.Flow.Store
import ServiceChain.Placement

/-! Why a path cannot be rendered. -/
namespace ServiceChain

/-- What is wrong with the hops of a path. -/
inductive PathDefect where
  | noHops
  | wrongIndex (hop : Nat) (index expected : ServiceIndex)
  /-- No index is left for what comes after this hop. -/
  | indexZero (hop : Nat)
  /-- No index is left for the way out of the path. -/
  | noEgressIndex
  deriving DecidableEq, Repr

def PathDefect.message : PathDefect → String
  | noHops => "path has no hops"
  | wrongIndex hop index expected =>
    "hop " ++ toString hop ++ " has service index " ++ toString index.toNat ++ ", expected "
      ++ toString expected.toNat
  | indexZero hop => "hop " ++ toString hop ++ " has service index 0"
  | noEgressIndex => "path has no egress service index"

inductive RenderError where
  /-- The interfaces of a function are placed on several switches. -/
  | ambiguousPlacement (serviceFunction : String) (placements : List Placement)
  | noTransportProcessor (transport : Transport) (encapsulation : Encapsulation)
  | unresolvedForwarder (forwarder : String)
  | malformedPath (path : PathId) (defect : PathDefect)
  | flowSink (fault : SinkFault)
  deriving DecidableEq, Repr

namespace RenderError

def kind : RenderError → String
  | ambiguousPlacement .. => "ambiguous-placement"
  | noTransportProcessor .. => "no-transport-processor"
  | unresolvedForwarder .. => "unresolved-forwarder-identity"
  | malformedPath .. => "malformed-path"
  | flowSink .. => "flow-sink"

def message : RenderError → String
  | ambiguousPlacement serviceFunction placements =>
    "service function " ++ serviceFunction ++ " is placed on " ++ toString placements.length
      ++ " switches: ["
      ++ String.intercalate ", " (placements.map fun p => "PlacementId(" ++ p.text ++ ")") ++ "]"
  | noTransportProcessor transport encapsulation =>
    "no transport processor for " ++ transport.name ++ " transport with " ++ encapsulation.name
      ++ " encapsulation"
  | unresolvedForwarder forwarder => s!"forwarder {forwarder} has no switch identity"
  | malformedPath path defect =>
    "path " ++ toString path.toNat ++ " is malformed: " ++ defect.message
  | flowSink fault => fault.message

end RenderError
end ServiceChain
