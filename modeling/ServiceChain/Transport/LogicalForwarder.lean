import ServiceChain.Transport.NshEthernet

/-! Functions behind logical interfaces. Switches and the tunnels between them come from the
placements; packets leave through interfaces and go back to the dispatcher after the chain. -/
namespace ServiceChain.LogicalForwarder

open NshEthernet (nsh)

/-- A step between two placements enters through their tunnel, if there is one. -/
def resolveTunnel (p : Placements) (e : HopEntry) : HopEntry :=
  match e.srcPlacement, e.dstPlacement with
  | some src, some dst =>
    if src = dst then e
    else
      match p.tunnel src dst with
      | .ok interface =>
        { e with hopIngress := some ⟨none, .logicalInterface interface none, none, none⟩ }
      | .error _ => e
  | _, _ => e

def deliver (ctx : LegContext) (e : HopEntry) (dst : Attachment) : LegOutcome :=
  .one (.nextHop (nsh ctx e) (dst.mac?.map FlowAction.setEthDst).toList)

/-- Out of an interface that must be known. -/
def sendOut (ctx : LegContext) (e : HopEntry) (role : FlowRole) (interface : Option String)
    (part : MissingPart) : LegOutcome :=
  match interface with
  | some name =>
    .one (.egress role Priority.transportEgress (nsh ctx e) [.output (.interface name)])
  | none => .missing part

def emit (ctx : LegContext) (e : HopEntry) : Leg → LegOutcome
  | .forwarderIngress => .one (.ingress .transportIngress (nsh ctx e) .nextHop)
  | .functionIngress _ => .notRequired
  | .forwarderMapper _ => .notRequired
  | .functionMapper _ => .notRequired
  | .gatewayToFunction dst => deliver ctx e dst
  | .forwarderToFunction _ dst => deliver ctx e dst
  | .functionToGateway _ => .notRequired
  | .functionToFunction _ dst => deliver ctx e dst
  | .functionToForwarder _ _ => .notRequired
  | .functionEgress dst =>
    sendOut ctx e .functionTransportEgress dst.interface? .functionInterface
  | .forwarderEgress _ _ hopIngress =>
    sendOut ctx e .transportEgress (hopIngress.bind (·.interface?)) .tunnelInterface
  | .terminalEgress _ _ =>
    .one (.egress .lastHopEgress Priority.lastHopEgress (nsh ctx e)
      [.popNsh, .resubmit (.raw ctx.config.logicalTables.dispatcher)])

end ServiceChain.LogicalForwarder
