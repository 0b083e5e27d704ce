import ServiceChain.Locator

/-! Service paths: the functions that traffic passes, hop by hop, and how it is carried. -/
namespace ServiceChain

abbrev PathId := UInt32

abbrev ServiceIndex := UInt8

inductive Transport where
  | vxlanGpe
  | mac
  | mpls
  | function
  deriving DecidableEq, Repr

namespace Transport

def name : Transport → String
  | vxlanGpe => "vxlan-gpe"
  | mac => "mac"
  | mpls => "mpls"
  | function => "function"

def table : List (String × Transport) :=
  [vxlanGpe, mac, mpls, function].map fun t => (t.name, t)

def locatorKind : Transport → LocatorKind
  | vxlanGpe => .ip
  | mac => .mac
  | mpls => .mpls
  | function => .logicalInterface

end Transport

inductive Encapsulation where
  | nsh
  | transparent
  | macChaining
  deriving DecidableEq, Repr

namespace Encapsulation

def name : Encapsulation → String
  | nsh => "nsh"
  | transparent => "transparent"
  | macChaining => "mac-chaining"

def table : List (String × Encapsulation) :=
  [nsh, transparent, macChaining].map fun e => (e.name, e)

end Encapsulation

inductive Direction where
  | forward
  | reverse
  deriving DecidableEq, Repr

namespace Direction

def name : Direction → String
  | forward => "forward"
  | reverse => "reverse"

def table : List (String × Direction) := [forward, reverse].map fun d => (d.name, d)

end Direction

/-- One function, the forwarder it is attached to, and the index traffic reaches it with. -/
structure Hop where
  forwarder : String
  serviceFunction : String
  group : Option String
  index : ServiceIndex
  deriving DecidableEq, Repr

structure ServicePath where
  name : String
  id : PathId
  hops : List Hop
  transport : Transport
  encapsulation : Encapsulation
  startingIndex : ServiceIndex
  direction : Direction
  deriving DecidableEq, Repr

end ServiceChain
