import ServiceChain.ServicePath

/-! What a flow asks of a packet. A field that is not set admits every value. -/
namespace ServiceChain

inductive Port where
  | number (n : UInt32)
  /-- The port the packet came in by. -/
  | inPort
  /-- The switch's own port. -/
  | loopback
  | interface (name : String)
  deriving DecidableEq, Repr

structure FlowMatch where
  inPort : Option Port := none
  ethType : Option UInt16 := none
  ethSrc : Option MacAddress := none
  ethDst : Option MacAddress := none
  vlan : Option VlanId := none
  mplsLabel : Option MplsLabel := none
  /-- The path id of the service header. -/
  nsp : Option PathId := none
  /-- The service index of the service header. -/
  nsi : Option ServiceIndex := none
  /-- The first context word of the service header. -/
  nshC1 : Option UInt32 := none
  tunDst : Option IpAddress := none
  metadata : Option UInt64 := none
  deriving DecidableEq, Repr

def ethTypeMpls : UInt16 := 0x8847

def ethTypeNsh : UInt16 := 0x894f

namespace FlowMatch

def any : FlowMatch := {}

def isAny (m : FlowMatch) : Bool := m = any

def withInPort (m : FlowMatch) (port : Option Port) : FlowMatch := { m with inPort := port }

def withEthType (m : FlowMatch) (ethType : UInt16) : FlowMatch := { m with ethType := some ethType }

def withEthSrc (m : FlowMatch) (mac : Option MacAddress) : FlowMatch := { m with ethSrc := mac }

def withEthDst (m : FlowMatch) (mac : Option MacAddress) : FlowMatch := { m with ethDst := mac }

def withVlan (m : FlowMatch) (vlan : Option VlanId) : FlowMatch := { m with vlan := vlan }

/-- A label is only there in MPLS frames. -/
def withMplsLabel (m : FlowMatch) (label : MplsLabel) : FlowMatch :=
  { m with ethType := some ethTypeMpls, mplsLabel := some label }

/-- The path id is only there in frames with a service header. -/
def withNsp (m : FlowMatch) (path : PathId) : FlowMatch :=
  { m with ethType := some ethTypeNsh, nsp := some path }

def withNsh (m : FlowMatch) (path : PathId) (index : ServiceIndex) : FlowMatch :=
  { m with ethType := some ethTypeNsh, nsp := some path, nsi := some index }

def withNshC1 (m : FlowMatch) (word : UInt32) : FlowMatch := { m with nshC1 := some word }

def withTunDst (m : FlowMatch) (ip : Option IpAddress) : FlowMatch := { m with tunDst := ip }

def withMetadata (m : FlowMatch) (value : UInt64) : FlowMatch := { m with metadata := some value }

end FlowMatch
end ServiceChain
