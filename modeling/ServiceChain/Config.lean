import ServiceChain.Address.Vlan
import ServiceChain.Flow.Table

/-! The configuration: how tables are numbered, and the VLAN ids to lease. -/
namespace ServiceChain

/-- VLAN ids from `first` to `last`, both included. -/
structure VlanRange where
  first : UInt16 := 100
  last : UInt16 := 4000
  deriving DecidableEq, Repr

/-- The numbering used when functions are reached through logical interfaces. -/
structure LogicalTables where
  classifier : UInt8 := 82
  transportIngress : UInt8 := 83
  pathMapper : UInt8 := 84
  pathMapperAcl : UInt8 := 85
  nextHop : UInt8 := 86
  transportEgress : UInt8 := 87
  /-- The table, not of this pipeline, that packets go back to after the chain. -/
  dispatcher : UInt8 := 17
  deriving DecidableEq, Repr

def LogicalTables.index (t : LogicalTables) : TableNumbers :=
  ⟨t.classifier, t.transportIngress, t.pathMapper, t.pathMapperAcl, t.nextHop, t.transportEgress⟩

structure Config where
  /-- Added to the usual table numbers. -/
  tableOffset : UInt8 := 0
  /-- Where unmatched egress traffic goes on; without it such traffic is dropped. -/
  appEgressTable : Option UInt8 := none
  appCoexistenceTable : UInt8 := 0
  vlanRange : VlanRange := {}
  logicalTables : LogicalTables := {}
  deriving DecidableEq, Repr

/-- What is wrong with a configuration. -/
inductive ConfigFault where
  | emptyRange (first last : UInt16)
  | rangeEnd (reason : Refusal)
  | offsetTooHigh (offset : UInt8)
  deriving DecidableEq, Repr

def ConfigFault.message : ConfigFault → String
  | emptyRange first last =>
    "invalid configuration: vlan_range start " ++ toString first.toNat ++ " is above end "
      ++ toString last.toNat
  | rangeEnd reason => "invalid configuration: vlan_range: " ++ reason.message
  | offsetTooHigh offset =>
    "invalid configuration: table_offset " ++ toString offset.toNat
      ++ " leaves no room for the transport egress table"

namespace Config

def standardTables (c : Config) : TableNumbers := TableNumbers.standard c.tableOffset

/-- The end of a range must be an assignable VLAN id. -/
def checkEnd (id : UInt16) : Except ConfigFault Unit :=
  match VlanId.checked id.toNat with
  | .ok _ => .ok ()
  | .error reason => .error (.rangeEnd reason)

/-- The first fault: an empty range, an end that is no VLAN id, an offset without room. -/
def validate (c : Config) : Except ConfigFault Unit := do
  if c.vlanRange.first > c.vlanRange.last then
    throw (.emptyRange c.vlanRange.first c.vlanRange.last)
  checkEnd c.vlanRange.first
  checkEnd c.vlanRange.last
  if c.tableOffset.toNat + 10 > 255 then
    throw (.offsetTooHigh c.tableOffset)

end Config
end ServiceChain
