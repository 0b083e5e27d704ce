import ServiceChain.Document.Fields
import ServiceChain.Form.Address
import ServiceChain.Placement

/-! The document forms of locators, forwarders, functions, paths, topologies and placements. -/
namespace ServiceChain

open Document (Decoded Dialect)

namespace Locator

def toDocument : Locator → Document
  | ip address port =>
    .record [("type", .text "ip"), ("ip", address.toDocument),
      ("port", .ofOption .ofUInt16 port)]
  | mac address vlan =>
    .record [("type", .text "mac"), ("mac", address.toDocument),
      ("vlan", .ofOption VlanId.toDocument vlan)]
  | mpls label => .record [("type", .text "mpls"), ("label", label.toDocument)]
  | logicalInterface interface address =>
    .record [("type", .text "logical-interface"), ("interface", .text interface),
      ("mac", .ofOption MacAddress.toDocument address)]

def ofFields : LocatorKind → Document → Decoded Locator
  | .ip =>
    Document.toFields .json ["ip", "port"] fun f =>
      ip <$> f.required "ip" IpAddress.ofDocument <*> f.optional "port" (·.toUInt16)
  | .mac =>
    Document.toFields .json ["mac", "vlan"] fun f =>
      mac <$> f.required "mac" MacAddress.ofDocument <*> f.optional "vlan" VlanId.ofDocument
  | .mpls =>
    Document.toFields .json ["label"] fun f => mpls <$> f.required "label" MplsLabel.ofDocument
  | .logicalInterface =>
    Document.toFields .json ["interface", "mac"] fun f =>
      logicalInterface <$> f.required "interface" (·.toPlainText)
        <*> f.optional "mac" MacAddress.ofDocument

/-- The kind is read first, as the member `type` or as the first item, and says which fields count.
In every dialect a list may stand for a locator. -/
def ofDocument (d : Document) : Decoded Locator := do
  let (kind, fields) ←
    match d with
    | .record members =>
      match members.filter (·.1 = "type") with
      | [(_, kind)] => pure (kind, d)
      | _ => throw .unfit
    | .list (kind :: items) => pure (kind, .list items)
    | _ => throw .unfit
  match LocatorKind.table.lookup (← kind.toText) with
  | some kind => ofFields kind fields
  | none => throw .unfit

end Locator

def BoundLocator.toDocument (l : BoundLocator) : Document :=
  .record [("name", .ofOption .text l.name), ("locator", l.locator.toDocument),
    ("port", .ofOption .ofUInt32 l.port), ("mac", .ofOption MacAddress.toDocument l.mac)]

def Attachment.toDocument (a : Attachment) : Document :=
  .record [("service_function", .text a.serviceFunction), ("locator_name", .text a.locatorName),
    ("locator", a.locator.toDocument), ("forwarder_port", .ofOption .ofUInt32 a.port),
    ("forwarder_mac", .ofOption MacAddress.toDocument a.portMac),
    ("l2_transparent", .flag a.transparent)]

namespace ForwarderLocator

def toDocument (l : ForwarderLocator) : Document :=
  .record [("name", .text l.name), ("locator", l.locator.toDocument),
    ("port", .ofOption .ofUInt32 l.port), ("mac", .ofOption MacAddress.toDocument l.mac),
    ("peer", .ofOption .text l.peer)]

def ofDocument (dialect : Dialect) : Document → Decoded ForwarderLocator :=
  Document.toFields dialect ["name", "locator", "port", "mac", "peer"] fun f =>
    ForwarderLocator.mk <$> f.required "name" (·.toText)
      <*> f.required "locator" Locator.ofDocument
      <*> f.optional "port" (·.toUInt32)
      <*> f.optional "mac" MacAddress.ofDocument
      <*> f.optional "peer" (·.toText)

end ForwarderLocator

namespace DictionaryEntry

def toDocument (e : DictionaryEntry) : Document :=
  .record [("service_function", .text e.serviceFunction),
    ("ingress_locator", .text e.ingressLocator),
    ("egress_locator", .ofOption .text e.egressLocator), ("port", .ofOption .ofUInt32 e.port),
    ("mac", .ofOption MacAddress.toDocument e.mac)]

def ofDocument (dialect : Dialect) : Document → Decoded DictionaryEntry :=
  Document.toFields dialect ["service_function", "ingress_locator", "egress_locator", "port",
      "mac"] fun f =>
    DictionaryEntry.mk <$> f.required "service_function" (·.toText)
      <*> f.required "ingress_locator" (·.toText)
      <*> f.optional "egress_locator" (·.toText)
      <*> f.optional "port" (·.toUInt32)
      <*> f.optional "mac" MacAddress.ofDocument

end DictionaryEntry

namespace Forwarder

def toDocument (f : Forwarder) : Document :=
  .record [("name", .text f.name), ("node_id", .ofOption .text f.switch),
    ("locators", .ofList ForwarderLocator.toDocument f.locators),
    ("service_functions", .ofList DictionaryEntry.toDocument f.dictionary),
    ("ingress_locator", .ofOption .text f.ingressLocator),
    ("egress_locator", .ofOption .text f.egressLocator),
    ("accelerated_port", .ofOption .ofUInt32 f.acceleratedPort)]

def ofDocument (dialect : Dialect) : Document → Decoded Forwarder :=
  Document.toFields dialect ["name", "node_id", "locators", "service_functions",
      "ingress_locator", "egress_locator", "accelerated_port"] fun f =>
    Forwarder.mk <$> f.required "name" (·.toText)
      <*> f.optional "node_id" (·.toText)
      <*> f.withDefault "locators" (·.toList (ForwarderLocator.ofDocument dialect)) []
      <*> f.withDefault "service_functions" (·.toList (DictionaryEntry.ofDocument dialect)) []
      <*> f.optional "ingress_locator" (·.toText)
      <*> f.optional "egress_locator" (·.toText)
      <*> f.optional "accelerated_port" (·.toUInt32)

end Forwarder

namespace FunctionLocator

def toDocument (l : FunctionLocator) : Document :=
  .record [("name", .text l.name), ("locator", l.locator.toDocument)]

def ofDocument (dialect : Dialect) : Document → Decoded FunctionLocator :=
  Document.toFields dialect ["name", "locator"] fun f =>
    FunctionLocator.mk <$> f.required "name" (·.toText) <*> f.required "locator" Locator.ofDocument

end FunctionLocator

namespace ServiceFunction

def toDocument (sf : ServiceFunction) : Document :=
  .record [("name", .text sf.name), ("sf_type", .text sf.kind),
    ("locators", .ofList FunctionLocator.toDocument sf.locators),
    ("l2_transparent", .flag sf.transparent)]

def ofDocument (dialect : Dialect) : Document → Decoded ServiceFunction :=
  Document.toFields dialect ["name", "sf_type", "locators", "l2_transparent"] fun f =>
    ServiceFunction.mk <$> f.required "name" (·.toText)
      <*> f.withDefault "sf_type" (·.toText) ""
      <*> f.withDefault "locators" (·.toList (FunctionLocator.ofDocument dialect)) []
      <*> f.withDefault "l2_transparent" (·.toBool) false

end ServiceFunction

namespace Topology

def toDocument (t : Topology) : Document :=
  .record [("forwarders", .ofList Forwarder.toDocument t.forwarders),
    ("service_functions", .ofList ServiceFunction.toDocument t.serviceFunctions)]

def ofDocument (dialect : Dialect) : Document → Decoded Topology :=
  Document.toFields dialect ["forwarders", "service_functions"] fun f =>
    Topology.mk <$> f.withDefault "forwarders" (·.toList (Forwarder.ofDocument dialect)) []
      <*> f.withDefault "service_functions" (·.toList (ServiceFunction.ofDocument dialect)) []

end Topology

def Transport.toDocument (t : Transport) : Document := .text t.name

def Transport.ofDocument (dialect : Dialect) (d : Document) : Decoded Transport :=
  d.toNamed dialect Transport.table

def Encapsulation.toDocument (e : Encapsulation) : Document := .text e.name

def Encapsulation.ofDocument (dialect : Dialect) (d : Document) : Decoded Encapsulation :=
  d.toNamed dialect Encapsulation.table

def Direction.toDocument (dir : Direction) : Document := .text dir.name

def Direction.ofDocument (dialect : Dialect) (d : Document) : Decoded Direction :=
  d.toNamed dialect Direction.table

namespace Hop

def toDocument (h : Hop) : Document :=
  .record [("forwarder", .text h.forwarder), ("service_function", .text h.serviceFunction),
    ("sf_group", .ofOption .text h.group), ("service_index", .ofUInt8 h.index)]

def ofDocument (dialect : Dialect) : Document → Decoded Hop :=
  Document.toFields dialect ["forwarder", "service_function", "sf_group", "service_index"] fun f =>
    Hop.mk <$> f.required "forwarder" (·.toText)
      <*> f.required "service_function" (·.toText)
      <*> f.optional "sf_group" (·.toText)
      <*> f.required "service_index" (·.toUInt8)

end Hop

namespace ServicePath

def toDocument (p : ServicePath) : Document :=
  .record [("name", .text p.name), ("path_id", .ofUInt32 p.id),
    ("hops", .ofList Hop.toDocument p.hops), ("transport", p.transport.toDocument),
    ("encapsulation", p.encapsulation.toDocument),
    ("starting_index", .ofUInt8 p.startingIndex), ("direction", p.direction.toDocument)]

def ofDocument (dialect : Dialect) : Document → Decoded ServicePath :=
  Document.toFields dialect ["name", "path_id", "hops", "transport", "encapsulation",
      "starting_index", "direction"] fun f =>
    ServicePath.mk <$> f.required "name" (·.toText)
      <*> f.required "path_id" (·.toUInt32)
      <*> f.required "hops" (·.toList (Hop.ofDocument dialect))
      <*> f.required "transport" (Transport.ofDocument dialect)
      <*> f.required "encapsulation" (Encapsulation.ofDocument dialect)
      <*> f.required "starting_index" (·.toUInt8)
      <*> f.withDefault "direction" (Direction.ofDocument dialect) .forward

end ServicePath

def Placement.toDocument (p : Placement) : Document := .ofUInt64 p.number

def Placement.ofDocument (d : Document) : Decoded Placement := d.toUInt64.map .mk

namespace Tunnel

def toDocument (t : Tunnel) : Document :=
  .record [("src", t.src.toDocument), ("dst", t.dst.toDocument), ("interface", .text t.interface)]

def ofDocument (dialect : Dialect) : Document → Decoded Tunnel :=
  Document.toFields dialect ["src", "dst", "interface"] fun f =>
    Tunnel.mk <$> f.required "src" Placement.ofDocument
      <*> f.required "dst" Placement.ofDocument
      <*> f.required "interface" (·.toText)

end Tunnel

namespace Placements

def toDocument (p : Placements) : Document :=
  .record [("interfaces", .record (p.interfaces.map fun (name, id) => (name, id.toDocument))),
    ("tunnels", .ofList Tunnel.toDocument p.tunnels)]

def interfacesOf (d : Document) : Decoded (List (String × Placement)) := do
  (← d.toMembers).mapM fun (name, content) => do
    let id ← Placement.ofDocument content
    return (name, id)

def ofDocument (dialect : Dialect) : Document → Decoded Placements :=
  Document.toFields dialect ["interfaces", "tunnels"] fun f =>
    Placements.mk <$> f.withDefault "interfaces" interfacesOf []
      <*> f.withDefault "tunnels" (·.toList (Tunnel.ofDocument dialect)) []

end Placements
end ServiceChain
