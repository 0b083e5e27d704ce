import ServiceChain.Document.Fields
import ServiceChain.Flow.Store
import ServiceChain.Form.Address

/-! The document forms of flows and their parts. -/
namespace ServiceChain

open Document (Decoded Dialect)

namespace TableRef

def toDocument : TableRef → Document
  | classifier => .text "classifier"
  | transportIngress => .text "transport-ingress"
  | pathMapper => .text "path-mapper"
  | pathMapperAcl => .text "path-mapper-acl"
  | nextHop => .text "next-hop"
  | transportEgress => .text "transport-egress"
  | raw id => .record [("raw", .ofUInt8 id)]

def stages : List (String × TableRef) :=
  [("classifier", classifier), ("transport-ingress", transportIngress),
    ("path-mapper", pathMapper), ("path-mapper-acl", pathMapperAcl), ("next-hop", nextHop),
    ("transport-egress", transportEgress)]

def ofDocument (dialect : Dialect) (d : Document) : Decoded TableRef := do
  let (name, content) ← d.toTagged dialect
  if name = "raw" then
    return raw (← Document.toContent (·.toUInt8) content)
  else
    d.toNamed dialect stages

end TableRef

namespace TableNumbers

def toDocument (t : TableNumbers) : Document :=
  .record [("classifier", .ofUInt8 t.classifier),
    ("transport_ingress", .ofUInt8 t.transportIngress), ("path_mapper", .ofUInt8 t.pathMapper),
    ("path_mapper_acl", .ofUInt8 t.pathMapperAcl), ("next_hop", .ofUInt8 t.nextHop),
    ("transport_egress", .ofUInt8 t.transportEgress)]

def ofDocument : Document → Decoded TableNumbers :=
  Document.toFields .json ["classifier", "transport_ingress", "path_mapper", "path_mapper_acl",
      "next_hop", "transport_egress"] fun f =>
    TableNumbers.mk <$> f.required "classifier" (·.toUInt8)
      <*> f.required "transport_ingress" (·.toUInt8)
      <*> f.required "path_mapper" (·.toUInt8)
      <*> f.required "path_mapper_acl" (·.toUInt8)
      <*> f.required "next_hop" (·.toUInt8)
      <*> f.required "transport_egress" (·.toUInt8)

end TableNumbers

namespace FlowOwner

def toDocument : FlowOwner → Document
  | unowned => .text "unowned"
  | path id => .record [("path", .ofUInt32 id)]

def ofDocument (dialect : Dialect) (d : Document) : Decoded FlowOwner := do
  let (name, content) ← d.toTagged dialect
  match name with
  | "unowned" => do
    Document.toNothing dialect content
    return unowned
  | "path" => return path (← Document.toContent (·.toUInt32) content)
  | _ => .error .unfit

end FlowOwner

def FlowRole.toDocument (k : FlowRole) : Document := .text k.name

def FlowRole.ofDocument (dialect : Dialect) (d : Document) : Decoded FlowRole :=
  d.toNamed dialect FlowRole.table

namespace Port

def toDocument : Port → Document
  | number n => .record [("number", .ofUInt32 n)]
  | inPort => .text "in-port"
  | loopback => .text "local"
  | interface name => .record [("interface", .text name)]

def ofDocument (dialect : Dialect) (d : Document) : Decoded Port := do
  let (name, content) ← d.toTagged dialect
  match name with
  | "number" => return number (← Document.toContent (·.toUInt32) content)
  | "in-port" => do
    Document.toNothing dialect content
    return inPort
  | "local" => do
    Document.toNothing dialect content
    return loopback
  | "interface" => return interface (← Document.toContent (·.toText) content)
  | _ => .error .unfit

end Port

namespace FlowMatch

def toDocument (m : FlowMatch) : Document :=
  .record <|
    Document.present "in_port" Port.toDocument m.inPort
      ++ Document.present "eth_type" .ofUInt16 m.ethType
      ++ Document.present "eth_src" MacAddress.toDocument m.ethSrc
      ++ Document.present "eth_dst" MacAddress.toDocument m.ethDst
      ++ Document.present "vlan" VlanId.toDocument m.vlan
      ++ Document.present "mpls_label" MplsLabel.toDocument m.mplsLabel
      ++ Document.present "nsp" .ofUInt32 m.nsp
      ++ Document.present "nsi" .ofUInt8 m.nsi
      ++ Document.present "nsh_c1" .ofUInt32 m.nshC1
      ++ Document.present "tun_dst" IpAddress.toDocument m.tunDst
      ++ Document.present "metadata" .ofUInt64 m.metadata

def ofDocument (dialect : Dialect) : Document → Decoded FlowMatch :=
  Document.toFields dialect ["in_port", "eth_type", "eth_src", "eth_dst", "vlan", "mpls_label",
      "nsp", "nsi", "nsh_c1", "tun_dst", "metadata"] fun f =>
    FlowMatch.mk <$> f.optional "in_port" (Port.ofDocument dialect)
      <*> f.optional "eth_type" (·.toUInt16)
      <*> f.optional "eth_src" MacAddress.ofDocument
      <*> f.optional "eth_dst" MacAddress.ofDocument
      <*> f.optional "vlan" VlanId.ofDocument
      <*> f.optional "mpls_label" MplsLabel.ofDocument
      <*> f.optional "nsp" (·.toUInt32)
      <*> f.optional "nsi" (·.toUInt8)
      <*> f.optional "nsh_c1" (·.toUInt32)
      <*> f.optional "tun_dst" IpAddress.ofDocument
      <*> f.optional "metadata" (·.toUInt64)

end FlowMatch

namespace FlowAction

def toDocument : FlowAction → Document
  | goto t => .record [("goto-table", t.toDocument)]
  | resubmit t => .record [("resubmit", t.toDocument)]
  | output p => .record [("output", p.toDocument)]
  | drop => .text "drop"
  | setEthSrc mac => .record [("set-eth-src", mac.toDocument)]
  | setEthDst mac => .record [("set-eth-dst", mac.toDocument)]
  | pushVlan vlan => .record [("push-vlan", vlan.toDocument)]
  | popVlan => .text "pop-vlan"
  | pushMpls label => .record [("push-mpls", label.toDocument)]
  | popMpls => .text "pop-mpls"
  | popNsh => .text "pop-nsh"
  | writeMetadata value => .record [("write-metadata", .ofUInt64 value)]
  | setTunnelDst ip => .record [("set-tunnel-dst", ip.toDocument)]
  | moveContextToTunnelDst => .text "move-nsh-c1-to-tunnel-dst"

/-- The actions without content under their names. -/
def bare : List (String × FlowAction) :=
  [("drop", drop), ("pop-vlan", popVlan), ("pop-mpls", popMpls), ("pop-nsh", popNsh),
    ("move-nsh-c1-to-tunnel-dst", moveContextToTunnelDst)]

def ofDocument (dialect : Dialect) (d : Document) : Decoded FlowAction := do
  let (name, content) ← d.toTagged dialect
  match name with
  | "goto-table" => return goto (← Document.toContent (TableRef.ofDocument dialect) content)
  | "resubmit" => return resubmit (← Document.toContent (TableRef.ofDocument dialect) content)
  | "output" => return output (← Document.toContent (Port.ofDocument dialect) content)
  | "set-eth-src" => return setEthSrc (← Document.toContent MacAddress.ofDocument content)
  | "set-eth-dst" => return setEthDst (← Document.toContent MacAddress.ofDocument content)
  | "push-vlan" => return pushVlan (← Document.toContent VlanId.ofDocument content)
  | "push-mpls" => return pushMpls (← Document.toContent MplsLabel.ofDocument content)
  | "write-metadata" => return writeMetadata (← Document.toContent (·.toUInt64) content)
  | "set-tunnel-dst" => return setTunnelDst (← Document.toContent IpAddress.ofDocument content)
  | _ => d.toNamed dialect bare

end FlowAction

def FlowTemplate.toDocument (s : FlowTemplate) : Document :=
  .record [("kind", s.role.toDocument), ("table", s.table.toDocument),
    ("priority", .ofUInt16 s.priority), ("flow_match", s.flowMatch.toDocument),
    ("actions", .ofList FlowAction.toDocument s.actions)]

def Flow.toDocument (f : Flow) : Document :=
  .record [("node", .text f.switch), ("table_id", .ofUInt8 f.tableId),
    ("table", f.table.toDocument), ("priority", .ofUInt16 f.priority),
    ("match", f.flowMatch.toDocument), ("actions", .ofList FlowAction.toDocument f.actions),
    ("owner", f.owner.toDocument), ("kind", f.role.toDocument)]

end ServiceChain
