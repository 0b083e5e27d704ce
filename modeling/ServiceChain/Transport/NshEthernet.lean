import ServiceChain.Transport.Leg

/-! Service headers over plain Ethernet. Path and index travel in the header, so nothing has to
be mapped; next hops set the addresses of the frame. -/
namespace ServiceChain.NshEthernet

def nsh (ctx : LegContext) (e : HopEntry) : FlowMatch := FlowMatch.any.withNsh ctx.pathId e.index

/-- The source becomes the forwarder's port towards the function, else `srcMac` if known. -/
def deliver (ctx : LegContext) (e : HopEntry) (srcMac : Option MacAddress) (dst : Attachment) :
    LegOutcome :=
  match dst.mac? with
  | some mac =>
    let source := ((dst.portMac <|> srcMac).map FlowAction.setEthSrc).toList
    .one (.nextHop (nsh ctx e) (source ++ [.setEthDst mac]))
  | none => .missing .functionMac

def emit (ctx : LegContext) (e : HopEntry) : Leg → LegOutcome
  | .forwarderIngress =>
    .one (.ingress .transportIngress (FlowMatch.any.withNsp ctx.pathId) .nextHop)
  | .functionIngress dst =>
    match dst.port with
    | some port =>
      .one (.ingress .functionTransportIngress
        ((FlowMatch.any.withInPort (some (.number port))).withNsp ctx.pathId) .nextHop)
    | none => .notRequired
  | .forwarderMapper _ => .notRequired
  | .functionMapper _ => .notRequired
  | .gatewayToFunction dst => deliver ctx e none dst
  | .forwarderToFunction srcEgress dst => deliver ctx e (srcEgress.bind (·.mac?)) dst
  | .functionToGateway _ => .one (.nextHop (nsh ctx e) [])
  | .functionToFunction _ dst => deliver ctx e none dst
  | .functionToForwarder _ _ =>
    if e.dst = .egress then .notRequired
    else .skipped (.unsupported .nshEthernetBetweenForwarders)
  | .functionEgress dst =>
    .one (.egress .functionTransportEgress Priority.transportEgress
      ((nsh ctx e).withEthDst dst.mac?) [.outputTo dst.port])
  | .forwarderEgress .. => .skipped (.unsupported .nshEthernetBetweenForwarders)
  | .terminalEgress _ pathEgress =>
    .one (.egress .lastHopEgress Priority.lastHopEgress (nsh ctx e)
      [.popNsh, .leaveTo (pathEgress.bind (·.port)) ctx.config.appCoexistenceTable])

end ServiceChain.NshEthernet
