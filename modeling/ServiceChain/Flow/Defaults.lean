import ServiceChain.Config
import ServiceChain.Flow.Basic

/-! The default flows of a switch: what happens to packets that no path's flow matches. -/
namespace ServiceChain

/-- A flow for every packet of a table that nothing else matches. -/
def FlowTemplate.matchAny (table : TableRef) (action : FlowAction) : FlowTemplate :=
  ⟨.matchAny, table, Priority.matchAny, .any, [action]⟩

def FlowTemplate.bypass (port : Port) (action : FlowAction) : FlowTemplate :=
  ⟨.acceleratedBypass, .classifier, Priority.acceleratedBypass,
    FlowMatch.any.withInPort (some port), [action]⟩

def Config.egressMiss (c : Config) : FlowAction :=
  match c.appEgressTable with
  | some table => .goto (.raw table)
  | none => .drop

def acceleratedFlows : Option UInt32 → List FlowTemplate
  | some port =>
    [.bypass (.number port) (.goto .transportIngress), .bypass .loopback (.output (.number port))]
  | none => []

def defaultFlows (c : Config) (acceleratedPort : Option UInt32) : List FlowTemplate :=
  [.matchAny .transportIngress .drop,
    .matchAny .pathMapper (.goto .pathMapperAcl),
    .matchAny .pathMapperAcl (.goto .nextHop),
    .matchAny .nextHop (.goto .transportEgress),
    .matchAny .transportEgress c.egressMiss] ++ acceleratedFlows acceleratedPort

end ServiceChain
