import ServiceChain.Transport.Leg

/-! MPLS between forwarders, VLANs towards functions. The path mapper strips the label or the tag
and marks the packet as the path's; next hops go by that mark and the source address. -/
namespace ServiceChain.Mpls

def marked (ctx : LegContext) : FlowMatch :=
  FlowMatch.any.withMetadata (PathId.metadata ctx.pathId)

/-- A next hop by source address; without one it gives way to those that name theirs. -/
def nextHop (ctx : LegContext) (src dst : Option MacAddress) : FlowTemplate :=
  let priority := if src.isSome then Priority.nextHop else Priority.nextHopAnySource
  let setDst := (dst.map FlowAction.setEthDst).toList
  ⟨.nextHop, .nextHop, priority, (marked ctx).withEthSrc src,
    setDst ++ [.goto .transportEgress]⟩

/-- To the next forwarder: from the address of the port it leaves by, with the hop's tag. -/
def forwarderEgress (ctx : LegContext) (srcEgress dstIngress : Option BoundLocator)
    (push : FlowAction) : FlowTemplate :=
  .egress .transportEgress Priority.transportEgress
    ((marked ctx).withEthDst (dstIngress.bind (·.mac?)))
    (((srcEgress.bind (·.mac?)).map FlowAction.setEthSrc).toList ++
      [push, .outputTo (srcEgress.bind (·.port))])

/-- Only what comes back from the last function leaves the chain: its source address keeps
deliveries to earlier functions on the same forwarder out. -/
def terminal (ctx : LegContext) (src : Option Attachment) (pathEgress : Option BoundLocator) :
    LegOutcome :=
  match pathEgress.bind (·.port), src.bind (·.mac?) with
  | none, _ => .missing .pathEgressPort
  | some _, none => .missing .lastFunctionMac
  | some port, some mac =>
    .one (.egress .lastHopEgress Priority.lastHopEgress ((marked ctx).withEthSrc (some mac))
      [.output (.number port)])

def emit (ctx : LegContext) : Leg → LegOutcome
  | .forwarderIngress =>
    .one (.ingress .transportIngress (FlowMatch.any.withEthType ethTypeMpls) .pathMapper)
  | .functionIngress dst =>
    match dst.vlan? with
    | some vlan =>
      .one (.ingress .functionTransportIngress (FlowMatch.any.withVlan (some vlan)) .pathMapper)
    | none => .missing .functionVlan
  | .forwarderMapper hopIngress =>
    match hopIngress.bind (·.label?) with
    | some label =>
      .one (.mapper .pathMapper ctx.pathId (FlowMatch.any.withMplsLabel label) .popMpls)
    | none => .missing .hopMplsLabel
  | .functionMapper dst =>
    match dst.vlan? with
    | some vlan =>
      .one (.mapper .functionPathMapper ctx.pathId (FlowMatch.any.withVlan (some vlan)) .popVlan)
    | none => .missing .functionVlan
  | .gatewayToFunction dst => .one (nextHop ctx none dst.mac?)
  | .forwarderToFunction srcEgress dst =>
    .one (nextHop ctx (srcEgress.bind (·.mac?)) dst.mac?)
  | .functionToGateway src => .one (nextHop ctx src.mac? none)
  | .functionToFunction src dst => .one (nextHop ctx src.mac? dst.mac?)
  | .functionToForwarder src dstIngress =>
    .one (nextHop ctx src.mac? (dstIngress.bind (·.mac?)))
  | .functionEgress dst =>
    .one (.egress .functionTransportEgress Priority.transportEgress
      ((marked ctx).withEthDst dst.mac?)
      ((dst.vlan?.map FlowAction.pushVlan).toList ++ [.outputTo dst.port]))
  | .forwarderEgress srcEgress dstIngress hopIngress =>
    match hopIngress.bind (·.label?) with
    | some label => .one (forwarderEgress ctx srcEgress dstIngress (.pushMpls label))
    | none => .missing .hopMplsLabel
  | .terminalEgress src pathEgress => terminal ctx src pathEgress

end ServiceChain.Mpls
