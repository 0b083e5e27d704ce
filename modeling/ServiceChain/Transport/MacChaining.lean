import ServiceChain.Transport.Leg

/-! Hops addressed by synthetic MAC addresses. Frames reach a function from the address of the
next index; a function that is not transparent answers to that address, so that what it sends is
already addressed to the next hop. -/
namespace ServiceChain.MacChaining

/-- Between two forwarders with a link the ends of the link are used, whatever was named before. -/
def nameLink (t : Topology) (e : HopEntry) : HopEntry :=
  match e.src.name?, e.dst.name? with
  | some src, some dst =>
    if src = dst then e
    else
      match t.link? src dst with
      | some link =>
        { e with srcEgressLocator := link.near.name, dstIngressLocator := link.far.name }
      | none => e
  | _, _ => e

def address (ctx : LegContext) (e : HopEntry) : MacAddress := .synthetic ctx.pathId e.index

def reply (ctx : LegContext) (e : HopEntry) : MacAddress :=
  .synthetic ctx.pathId (UInt8.ofNat (e.index.toNat - 1))

def toAddress (mac : MacAddress) : FlowMatch := FlowMatch.any.withEthDst (some mac)

def between (src dst : MacAddress) : FlowMatch :=
  (FlowMatch.any.withEthSrc (some src)).withEthDst (some dst)

def deliver (ctx : LegContext) (e : HopEntry) (m : FlowMatch) (dst : Attachment) : LegOutcome :=
  match dst.mac? with
  | some mac => .one (.nextHop m [.setEthSrc (reply ctx e), .setEthDst mac])
  | none => .missing .functionMac

/-- Out of a port that must be known. -/
def sendOut (role : FlowRole) (m : FlowMatch) (port : Option UInt32) (part : MissingPart) :
    LegOutcome :=
  match port with
  | some port => .one (.egress role Priority.transportEgress m [.output (.number port)])
  | none => .missing part

/-- A transparent function is told by the addresses it was sent, any other by the reply. -/
def functionIngress (ctx : LegContext) (e : HopEntry) (dst : Attachment) : LegOutcome :=
  if dst.transparent then
    match dst.mac? with
    | some mac =>
      .one (.ingress .functionTransportIngress (between (reply ctx e) mac) .nextHop)
    | none => .missing .functionMac
  else .one (.ingress .functionTransportIngress (toAddress (reply ctx e)) .nextHop)

/-- What a function that is not transparent sends is already addressed to this entry. -/
def functionToFunction (ctx : LegContext) (e : HopEntry) (src dst : Attachment) : LegOutcome :=
  if src.transparent then
    match src.mac? with
    | some mac => deliver ctx e (between (address ctx e) mac) dst
    | none => .missing .previousFunctionMac
  else .notRequired

def functionToForwarder (ctx : LegContext) (e : HopEntry) (src : Attachment) : LegOutcome :=
  if src.transparent then
    match src.mac? with
    | some mac => .one (.nextHop (between (address ctx e) mac) [.setEthDst (address ctx e)])
    | none => .missing .previousFunctionMac
  else .one (.nextHop (toAddress (address ctx e)) [])

def emit (ctx : LegContext) (e : HopEntry) : Leg → LegOutcome
  | .forwarderIngress =>
    .one (.ingress .transportIngress (toAddress (address ctx e)) .nextHop)
  | .functionIngress dst => functionIngress ctx e dst
  | .forwarderMapper _ => .notRequired
  | .functionMapper _ => .notRequired
  | .gatewayToFunction dst => deliver ctx e (toAddress (address ctx e)) dst
  | .forwarderToFunction _ dst => deliver ctx e (toAddress (address ctx e)) dst
  | .functionToGateway src => functionToForwarder ctx e src
  | .functionToFunction src dst => functionToFunction ctx e src dst
  | .functionToForwarder src _ => functionToForwarder ctx e src
  | .functionEgress dst =>
    sendOut .functionTransportEgress
      ((FlowMatch.any.withEthSrc (some (reply ctx e))).withEthDst dst.mac?) dst.port .functionPort
  | .forwarderEgress srcEgress _ _ =>
    sendOut .transportEgress (toAddress (address ctx e)) (srcEgress.bind (·.port)) .linkPort
  | .terminalEgress _ pathEgress =>
    sendOut .lastHopEgress (toAddress (address ctx e)) (pathEgress.bind (·.port)) .pathEgressPort

end ServiceChain.MacChaining
