import ServiceChain.Address.Ip
import ServiceChain.Address.Mac
import ServiceChain.Address.Mpls
import ServiceChain.Address.Vlan

/-! Locators: where a forwarder or a service function is reached in the data plane. -/
namespace ServiceChain

inductive LocatorKind where
  | ip
  | mac
  | mpls
  | logicalInterface
  deriving DecidableEq, Repr

namespace LocatorKind

def name : LocatorKind → String
  | ip => "ip"
  | mac => "mac"
  | mpls => "mpls"
  | logicalInterface => "logical-interface"

def table : List (String × LocatorKind) :=
  [ip, mac, mpls, logicalInterface].map fun k => (k.name, k)

end LocatorKind

inductive Locator where
  | ip (address : IpAddress) (port : Option UInt16)
  | mac (address : MacAddress) (vlan : Option VlanId)
  | mpls (label : MplsLabel)
  | logicalInterface (interface : String) (mac : Option MacAddress)
  deriving DecidableEq, Repr

namespace Locator

def kind : Locator → LocatorKind
  | ip .. => .ip
  | mac .. => .mac
  | mpls .. => .mpls
  | logicalInterface .. => .logicalInterface

def ip? : Locator → Option IpAddress
  | ip address _ => some address
  | _ => none

def mac? : Locator → Option MacAddress
  | mac address _ => some address
  | logicalInterface _ address => address
  | _ => none

def vlan? : Locator → Option VlanId
  | mac _ vlan => vlan
  | _ => none

def label? : Locator → Option MplsLabel
  | mpls label => some label
  | _ => none

def interface? : Locator → Option String
  | logicalInterface interface _ => some interface
  | _ => none

end Locator

/-- A locator together with the forwarder port it sits on and that port's address. -/
structure BoundLocator where
  name : Option String
  locator : Locator
  port : Option UInt32
  mac : Option MacAddress
  deriving DecidableEq, Repr

namespace BoundLocator

def ip? (l : BoundLocator) : Option IpAddress := l.locator.ip?

/-- The locator's own address, else that of the port. -/
def mac? (l : BoundLocator) : Option MacAddress := l.locator.mac? <|> l.mac

def vlan? (l : BoundLocator) : Option VlanId := l.locator.vlan?

def label? (l : BoundLocator) : Option MplsLabel := l.locator.label?

def interface? (l : BoundLocator) : Option String := l.locator.interface?

end BoundLocator
end ServiceChain
