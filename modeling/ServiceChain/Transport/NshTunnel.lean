import ServiceChain.Transport.NshEthernet

/-! Service headers through a mesh of VXLAN-GPE tunnels. Next hops set the tunnel destination.
Functions that are reached by MAC address get the flows of plain Ethernet. -/
namespace ServiceChain.NshTunnel

open NshEthernet (nsh)

def isMacAttached (a : Attachment) : Bool := a.locator.kind = .mac

/-- The function has the tunnel address of its forwarder, which has no accelerated port: traffic
to it loops through the switch's own port. -/
def isLoopback (ctx : LegContext) (e : HopEntry) (a : Attachment) : Bool :=
  match a.ip?, e.dst.name?.bind ctx.topology.forwarder? with
  | some ip, some f => f.acceleratedPort.isNone && f.tunnelIp? = some ip
  | _, _ => false

def throughTunnel (ctx : LegContext) (e : HopEntry) (ip : IpAddress) : LegOutcome :=
  .one (.nextHop (nsh ctx e) [.setTunnelDst ip])

def deliver (ctx : LegContext) (e : HopEntry) (srcMac : Option MacAddress) (dst : Attachment) :
    LegOutcome :=
  if isMacAttached dst then NshEthernet.deliver ctx e srcMac dst
  else
    match dst.ip? with
    | some ip => throughTunnel ctx e ip
    | none => .missing .functionIp

/-- The address that packets for the forwarder itself are tunnelled to at the end of the chain. -/
def localIp? (ctx : LegContext) (e : HopEntry) (pathEgress : Option BoundLocator) :
    Option IpAddress :=
  pathEgress.bind (·.ip?) <|> (e.src.name?.bind ctx.topology.forwarder?).bind (·.tunnelIp?)

/-- Three flows at the end of the chain: packets without context leave, packets with context go
on where it says, and packets tunnelled to this forwarder go to the other application. -/
def terminal (ctx : LegContext) (e : HopEntry) (pathEgress : Option BoundLocator) :
    List FlowTemplate :=
  let port := pathEgress.bind (·.port)
  let table := ctx.config.appCoexistenceTable
  [.egress .lastHopEgress Priority.lastHopEgress ((nsh ctx e).withNshC1 0)
      [.popNsh, .leaveTo port table],
    .egress .nshContextEgress Priority.nshContextEgress (nsh ctx e)
      [.moveContextToTunnelDst, .outputTo port],
    .egress .appCoexistenceEgress Priority.appCoexistenceEgress
      ((nsh ctx e).withTunDst (localIp? ctx e pathEgress)) [.popNsh, .resubmit (.raw table)]]

def emit (ctx : LegContext) (e : HopEntry) : Leg → LegOutcome
  | .forwarderIngress =>
    .one (.ingress .transportIngress (FlowMatch.any.withNsp ctx.pathId) .nextHop)
  | .functionIngress dst =>
    if isMacAttached dst then NshEthernet.emit ctx e (.functionIngress dst)
    else if isLoopback ctx e dst then
      .one (.ingress .functionTransportIngress
        ((FlowMatch.any.withInPort (some .loopback)).withNsp ctx.pathId) .nextHop)
    else .notRequired
  | .forwarderMapper _ => .notRequired
  | .functionMapper _ => .notRequired
  | .gatewayToFunction dst => deliver ctx e none dst
  | .forwarderToFunction srcEgress dst => deliver ctx e (srcEgress.bind (·.mac?)) dst
  | .functionToGateway src =>
    -- the default of the table already hands other packets to the egress flows
    if isMacAttached src then NshEthernet.emit ctx e (.functionToGateway src) else .notRequired
  | .functionToFunction _ dst => deliver ctx e none dst
  | .functionToForwarder _ dstIngress =>
    if e.dst = .egress then .notRequired
    else
      match dstIngress.bind (·.ip?) with
      | some ip => throughTunnel ctx e ip
      | none => .missing .forwarderTunnelIp
  | .functionEgress dst =>
    if isMacAttached dst then NshEthernet.emit ctx e (.functionEgress dst)
    else
      let m := (nsh ctx e).withTunDst dst.ip?
      if isLoopback ctx e dst then
        .one (.egress .functionTransportEgress Priority.nshContextEgress m [.output .loopback])
      else
        .one (.egress .functionTransportEgress Priority.transportEgress m [.outputTo dst.port])
  | .forwarderEgress srcEgress _ hopIngress =>
    match hopIngress.bind (·.ip?) with
    | some ip =>
      .one (.egress .transportEgress Priority.transportEgress ((nsh ctx e).withTunDst (some ip))
        [.outputTo (srcEgress.bind (·.port))])
    | none => .missing .nextForwarderTunnelIp
  | .terminalEgress _ pathEgress => .flows (terminal ctx e pathEgress)

end ServiceChain.NshTunnel
