import ServiceChain.Config
import ServiceChain.Form.Flow

/-! The document form of the configuration. -/
namespace ServiceChain

open Document (Decoded Dialect)

namespace VlanRange

def toDocument (r : VlanRange) : Document :=
  .record [("start", .ofUInt16 r.first), ("end", .ofUInt16 r.last)]

def ofDocument (dialect : Dialect) : Document → Decoded VlanRange :=
  Document.toFields dialect ["start", "end"] fun f =>
    VlanRange.mk <$> f.required "start" (·.toUInt16) <*> f.required "end" (·.toUInt16)

end VlanRange

namespace LogicalTables

def toDocument (t : LogicalTables) : Document :=
  .record [("classifier", .ofUInt8 t.classifier),
    ("transport_ingress", .ofUInt8 t.transportIngress), ("path_mapper", .ofUInt8 t.pathMapper),
    ("path_mapper_acl", .ofUInt8 t.pathMapperAcl), ("next_hop", .ofUInt8 t.nextHop),
    ("transport_egress", .ofUInt8 t.transportEgress), ("dispatcher", .ofUInt8 t.dispatcher)]

def ofDocument (dialect : Dialect) : Document → Decoded LogicalTables :=
  let usual : LogicalTables := {}
  Document.toFields dialect ["classifier", "transport_ingress", "path_mapper", "path_mapper_acl",
      "next_hop", "transport_egress", "dispatcher"] fun f =>
    LogicalTables.mk <$> f.withDefault "classifier" (·.toUInt8) usual.classifier
      <*> f.withDefault "transport_ingress" (·.toUInt8) usual.transportIngress
      <*> f.withDefault "path_mapper" (·.toUInt8) usual.pathMapper
      <*> f.withDefault "path_mapper_acl" (·.toUInt8) usual.pathMapperAcl
      <*> f.withDefault "next_hop" (·.toUInt8) usual.nextHop
      <*> f.withDefault "transport_egress" (·.toUInt8) usual.transportEgress
      <*> f.withDefault "dispatcher" (·.toUInt8) usual.dispatcher

end LogicalTables

namespace Config

def toDocument (c : Config) : Document :=
  .record [("table_offset", .ofUInt8 c.tableOffset),
    ("app_egress_table", .ofOption .ofUInt8 c.appEgressTable),
    ("app_coexistence_table", .ofUInt8 c.appCoexistenceTable),
    ("vlan_range", c.vlanRange.toDocument), ("logical_tables", c.logicalTables.toDocument)]

def ofDocument (dialect : Dialect) : Document → Decoded Config :=
  Document.toFields dialect ["table_offset", "app_egress_table", "app_coexistence_table",
      "vlan_range", "logical_tables"] fun f =>
    Config.mk <$> f.withDefault "table_offset" (·.toUInt8) 0
      <*> f.optional "app_egress_table" (·.toUInt8)
      <*> f.withDefault "app_coexistence_table" (·.toUInt8) 0
      <*> f.withDefault "vlan_range" (VlanRange.ofDocument dialect) {}
      <*> f.withDefault "logical_tables" (LogicalTables.ofDocument dialect) {}

end Config
end ServiceChain
