import ServiceChain.Config
import ServiceChain.Flow.Basic
import ServiceChain.HopGraph

/-! Legs: the parts of one entry that may need flows, and what a transport makes of each. -/
namespace ServiceChain

/-- A part of an entry, with the places that were found for its two ends. -/
inductive Leg where
  /-- Traffic from another forwarder is admitted. -/
  | forwarderIngress
  /-- Traffic that the function sends back is admitted. -/
  | functionIngress (dst : Attachment)
  /-- Traffic from another forwarder is mapped to the path. -/
  | forwarderMapper (hopIngress : Option BoundLocator)
  /-- Traffic that the function sends back is mapped to the path. -/
  | functionMapper (dst : Attachment)
  | gatewayToFunction (dst : Attachment)
  | forwarderToFunction (srcEgress : Option BoundLocator) (dst : Attachment)
  | functionToGateway (src : Attachment)
  | functionToFunction (src dst : Attachment)
  | functionToForwarder (src : Attachment) (dstIngress : Option BoundLocator)
  /-- Traffic is sent out to the function. -/
  | functionEgress (dst : Attachment)
  /-- Traffic is sent out to the next forwarder. -/
  | forwarderEgress (srcEgress dstIngress hopIngress : Option BoundLocator)
  /-- Traffic is sent out of the path. -/
  | terminalEgress (src : Option Attachment) (pathEgress : Option BoundLocator)
  deriving DecidableEq, Repr

def Leg.name : Leg → String
  | forwarderIngress => "sff-transport-ingress"
  | functionIngress .. => "sf-transport-ingress"
  | forwarderMapper .. => "sff-path-mapper"
  | functionMapper .. => "sf-path-mapper"
  | gatewayToFunction .. => "next-hop-gateway-to-sf"
  | forwarderToFunction .. => "next-hop-sff-to-sf"
  | functionToGateway .. => "next-hop-sf-to-gateway"
  | functionToFunction .. => "next-hop-sf-to-sf"
  | functionToForwarder .. => "next-hop-sf-to-sff"
  | functionEgress .. => "sf-transport-egress"
  | forwarderEgress .. => "sff-transport-egress"
  | terminalEgress .. => "terminal-transport-egress"

/-- What the topology would have to say for a leg to get its flows. -/
inductive MissingPart where
  | functionIp
  | functionMac
  | functionVlan
  | functionPort
  | functionInterface
  | previousFunctionMac
  | lastFunctionMac
  | forwarderTunnelIp
  | nextForwarderTunnelIp
  | linkPort
  | hopMplsLabel
  | hopVlan
  | tunnelInterface
  | pathEgressPort
  deriving DecidableEq, Repr

def MissingPart.text : MissingPart → String
  | functionIp => "service function ip"
  | functionMac => "service function mac"
  | functionVlan => "service function vlan"
  | functionPort => "forwarder port towards service function"
  | functionInterface => "service function logical interface"
  | previousFunctionMac => "upstream service function mac"
  | lastFunctionMac => "last service function mac"
  | forwarderTunnelIp => "forwarder tunnel ip"
  | nextForwarderTunnelIp => "next forwarder tunnel ip"
  | linkPort => "forwarder adjacency port"
  | hopMplsLabel => "hop mpls label"
  | hopVlan => "hop vlan"
  | tunnelInterface => "placement tunnel interface"
  | pathEgressPort => "path egress port"

inductive Unsupported where
  | nshEthernetBetweenForwarders
  deriving DecidableEq, Repr

def Unsupported.text : Unsupported → String
  | nshEthernetBetweenForwarders => "nsh over ethernet between forwarders"

inductive SkipCause where
  | notRequired
  | missing (part : MissingPart)
  | unsupported (what : Unsupported)
  deriving DecidableEq, Repr

def SkipCause.text : SkipCause → String
  | notRequired => "not required"
  | missing part => "missing " ++ part.text
  | unsupported what => "unsupported: " ++ what.text

/-- The flows of a leg, or why there are none. -/
inductive LegOutcome where
  | flows (templates : List FlowTemplate)
  | skipped (reason : SkipCause)
  deriving DecidableEq, Repr

namespace LegOutcome

def templates : LegOutcome → List FlowTemplate
  | flows templates => templates
  | skipped _ => []

def one (template : FlowTemplate) : LegOutcome := flows [template]

def notRequired : LegOutcome := skipped .notRequired

def missing (part : MissingPart) : LegOutcome := skipped (.missing part)

end LegOutcome

/-- What the legs of a path are made from. -/
structure LegContext where
  topology : Topology
  config : Config
  pathId : PathId

def PathId.metadata (path : PathId) : UInt64 := path.toUInt64

namespace FlowTemplate

def ingress (role : FlowRole) (m : FlowMatch) (next : TableRef) : FlowTemplate :=
  ⟨role, .transportIngress, Priority.transportIngress, m, [.goto next]⟩

def mapper (role : FlowRole) (path : PathId) (m : FlowMatch) (pop : FlowAction) : FlowTemplate :=
  ⟨role, .pathMapper, Priority.pathMapper, m,
    [pop, .writeMetadata (PathId.metadata path), .goto .nextHop]⟩

def nextHop (m : FlowMatch) (actions : List FlowAction) : FlowTemplate :=
  ⟨.nextHop, .nextHop, Priority.nextHop, m, actions ++ [.goto .transportEgress]⟩

def egress (role : FlowRole) (priority : UInt16) (m : FlowMatch) (actions : List FlowAction) :
    FlowTemplate :=
  ⟨role, .transportEgress, priority, m, actions⟩

end FlowTemplate

def FlowAction.outputTo : Option UInt32 → FlowAction
  | some port => .output (.number port)
  | none => .output .inPort

def FlowAction.leaveTo (port : Option UInt32) (table : UInt8) : FlowAction :=
  match port with
  | some port => .output (.number port)
  | none => .resubmit (.raw table)

end ServiceChain
