import ServiceChain.Flow.Match
import ServiceChain.Flow.Table
import ServiceChain.Topology

/-! Flows: what they do, who owns them, and the key that tells them apart on a switch. -/
namespace ServiceChain

inductive FlowAction where
  | goto (table : TableRef)
  | resubmit (table : TableRef)
  | output (port : Port)
  | drop
  | setEthSrc (mac : MacAddress)
  | setEthDst (mac : MacAddress)
  | pushVlan (vlan : VlanId)
  | popVlan
  | pushMpls (label : MplsLabel)
  | popMpls
  | popNsh
  | writeMetadata (value : UInt64)
  | setTunnelDst (ip : IpAddress)
  | moveContextToTunnelDst
  deriving DecidableEq, Repr

inductive FlowRole where
  | matchAny
  | acceleratedBypass
  | transportIngress
  | functionTransportIngress
  | pathMapper
  | functionPathMapper
  | nextHop
  | functionTransportEgress
  | transportEgress
  | lastHopEgress
  | nshContextEgress
  | appCoexistenceEgress
  deriving DecidableEq, Repr

namespace FlowRole

def name : FlowRole → String
  | matchAny => "match-any"
  | acceleratedBypass => "accelerated-bypass"
  | transportIngress => "transport-ingress"
  | functionTransportIngress => "sf-transport-ingress"
  | pathMapper => "path-mapper"
  | functionPathMapper => "sf-path-mapper"
  | nextHop => "next-hop"
  | functionTransportEgress => "sf-transport-egress"
  | transportEgress => "transport-egress"
  | lastHopEgress => "last-hop-egress"
  | nshContextEgress => "nsh-context-egress"
  | appCoexistenceEgress => "app-coexistence-egress"

def table : List (String × FlowRole) :=
  [matchAny, acceleratedBypass, transportIngress, functionTransportIngress, pathMapper,
    functionPathMapper, nextHop, functionTransportEgress, transportEgress, lastHopEgress,
    nshContextEgress, appCoexistenceEgress].map fun k => (k.name, k)

end FlowRole

/-- Default flows belong to nobody; all others to the path they were made for. -/
inductive FlowOwner where
  | unowned
  | path (id : PathId)
  deriving DecidableEq, Repr

def FlowOwner.text : FlowOwner → String
  | unowned => "unowned"
  | path id => "path-" ++ toString id.toNat

namespace Priority

def matchAny : UInt16 := 5
def transportIngress : UInt16 := 250
def pathMapper : UInt16 := 350
def pathMapperAcl : UInt16 := 450
def nextHop : UInt16 := 550
def nextHopAnySource : UInt16 := 540
def transportEgress : UInt16 := 650
/-- Above the other egress flows of the same hop. -/
def nshContextEgress : UInt16 := 660
/-- Above the flow for packets with context. -/
def lastHopEgress : UInt16 := 670
/-- Above the last hop. -/
def appCoexistenceEgress : UInt16 := 680
def acceleratedBypass : UInt16 := 1000

def table : List (String × UInt16) :=
  [("match_any", matchAny), ("transport_ingress", transportIngress), ("path_mapper", pathMapper),
    ("path_mapper_acl", pathMapperAcl), ("next_hop", nextHop),
    ("next_hop_any_source", nextHopAnySource), ("transport_egress", transportEgress),
    ("nsh_context_egress", nshContextEgress), ("last_hop_egress", lastHopEgress),
    ("app_coexistence_egress", appCoexistenceEgress), ("accelerated_bypass", acceleratedBypass)]

end Priority

/-- A flow before it is put on a switch. -/
structure FlowTemplate where
  role : FlowRole
  table : TableRef
  priority : UInt16
  flowMatch : FlowMatch
  actions : List FlowAction
  deriving DecidableEq, Repr

/-- What tells flows of one switch apart. -/
structure FlowKey where
  switch : SwitchId
  tableId : UInt8
  priority : UInt16
  flowMatch : FlowMatch
  deriving DecidableEq, Repr

/-- A flow for one switch, with its table numbered. -/
structure Flow where
  switch : SwitchId
  tableId : UInt8
  table : TableRef
  priority : UInt16
  flowMatch : FlowMatch
  actions : List FlowAction
  owner : FlowOwner
  role : FlowRole
  deriving DecidableEq, Repr

namespace Flow

def key (f : Flow) : FlowKey := ⟨f.switch, f.tableId, f.priority, f.flowMatch⟩

end Flow

/-- Targets inside the pipeline by number; all other actions as they are. -/
def FlowAction.numbered (tables : TableNumbers) : FlowAction → FlowAction
  | goto t => goto (.raw (tables.resolve t))
  | resubmit t => resubmit (.raw (tables.resolve t))
  | a => a

def FlowTemplate.on (template : FlowTemplate) (tables : TableNumbers) (owner : FlowOwner)
    (switch : SwitchId) : Flow where
  switch := switch
  tableId := tables.resolve template.table
  table := template.table
  priority := template.priority
  flowMatch := template.flowMatch
  actions := template.actions.map (·.numbered tables)
  owner := owner
  role := template.role

end ServiceChain
