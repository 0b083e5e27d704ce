import ServiceChain.HopGraph

/-! The locators between two forwarders: which of its locators each one uses towards the other,
and where a hop enters a forwarder or the path is left. -/
namespace ServiceChain.HopEntry

/-- The locator a forwarder sends from: at the end of a path its edge, else the one to `dst`. -/
def egressName? (f : Forwarder) (kind : LocatorKind) (dst : Endpoint) : Option String :=
  match dst with
  | .egress => (f.edgeLocator? kind f.egressLocator).map (·.name)
  | _ => (f.locatorTowards? kind dst.name?).map (·.name)

/-- The locator a forwarder receives at: at the start of a path its edge, else the one to `src`. -/
def ingressName? (f : Forwarder) (kind : LocatorKind) (src : Endpoint) : Option String :=
  match src with
  | .ingress => (f.edgeLocator? kind f.ingressLocator).map (·.name)
  | _ => (f.locatorTowards? kind src.name?).map (·.name)

/-- Name the locators of an entry between forwarders. An end that is no known forwarder keeps
what it has. -/
def nameLocators (t : Topology) (kind : LocatorKind) (e : HopEntry) : HopEntry :=
  if e.isSameForwarder then e
  else
    { e with
      srcEgressLocator :=
        match e.src.name?.bind t.forwarder? with
        | some f => egressName? f kind e.dst
        | none => e.srcEgressLocator
      dstIngressLocator :=
        match e.dst.name?.bind t.forwarder? with
        | some f => ingressName? f kind e.src
        | none => e.dstIngressLocator }

/-- Look up the named locators of an entry between forwarders: where the hop enters, or where
the path is left. -/
def resolveLocators (t : Topology) (e : HopEntry) : HopEntry :=
  if e.isSameForwarder then e
  else
    match e.dst with
    | .egress => { e with pathEgress := do t.locator? (← e.src.name?) (← e.srcEgressLocator) }
    | .forwarder name => { e with hopIngress := e.dstIngressLocator.bind (t.locator? name) }
    | .ingress => e

end ServiceChain.HopEntry
