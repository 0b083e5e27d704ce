import ServiceChain.ServicePath

/-! The topology: forwarders, service functions, and the look-ups on them. -/
namespace ServiceChain

/-- Identifies a switch; ordered by its text. -/
abbrev SwitchId := String

/-- A named locator of a forwarder; `peer` names the forwarder at the other end of a link. -/
structure ForwarderLocator where
  name : String
  locator : Locator
  port : Option UInt32
  mac : Option MacAddress
  peer : Option String
  deriving DecidableEq, Repr

def ForwarderLocator.bound (l : ForwarderLocator) : BoundLocator :=
  ⟨some l.name, l.locator, l.port, l.mac⟩

/-- How a function is attached to a forwarder. Traffic comes back through the ingress locator
unless an egress locator is named. -/
structure DictionaryEntry where
  serviceFunction : String
  ingressLocator : String
  egressLocator : Option String
  port : Option UInt32
  mac : Option MacAddress
  deriving DecidableEq, Repr

structure Forwarder where
  name : String
  switch : Option SwitchId
  locators : List ForwarderLocator
  dictionary : List DictionaryEntry
  /-- Where traffic enters a chain, if declared. -/
  ingressLocator : Option String
  /-- Where traffic leaves a chain, if declared. -/
  egressLocator : Option String
  acceleratedPort : Option UInt32
  deriving DecidableEq, Repr

namespace Forwarder

def locator? (f : Forwarder) (name : String) : Option ForwarderLocator :=
  f.locators.find? (·.name = name)

def bound? (f : Forwarder) (name : String) : Option BoundLocator :=
  (f.locator? name).map (·.bound)

def dictionaryEntry? (f : Forwarder) (serviceFunction : String) : Option DictionaryEntry :=
  f.dictionary.find? (·.serviceFunction = serviceFunction)

def locatorsOf (f : Forwarder) (kind : LocatorKind) : List ForwarderLocator :=
  f.locators.filter (·.locator.kind = kind)

/-- The locator of a kind for a link: the one to that peer, else one without peer, else any. -/
def locatorTowards? (f : Forwarder) (kind : LocatorKind) (peer : Option String) :
    Option ForwarderLocator :=
  let ofKind := f.locatorsOf kind
  let direct := if peer.isSome then ofKind.find? (·.peer = peer) else none
  direct <|> ofKind.find? (·.peer = none) <|> ofKind.head?

/-- The locator at the edge of a chain: the declared one, else the first of the kind that is no
link to another forwarder. -/
def edgeLocator? (f : Forwarder) (kind : LocatorKind) (declared : Option String) :
    Option ForwarderLocator :=
  match declared with
  | some name => f.locator? name
  | none => (f.locatorsOf kind).find? (·.peer = none)

def tunnelIp? (f : Forwarder) : Option IpAddress := f.locators.findSome? (·.locator.ip?)

end Forwarder

structure FunctionLocator where
  name : String
  locator : Locator
  deriving DecidableEq, Repr

structure ServiceFunction where
  name : String
  kind : String
  locators : List FunctionLocator
  /-- Frames come out with the addresses they went in with. -/
  transparent : Bool
  deriving DecidableEq, Repr

namespace ServiceFunction

def locator? (sf : ServiceFunction) (name : String) : Option FunctionLocator :=
  sf.locators.find? (·.name = name)

def logicalInterfaces? (sf : ServiceFunction) : Option (List String) :=
  sf.locators.mapM (·.locator.interface?)

end ServiceFunction

/-- A function as one forwarder reaches it, in one direction. -/
structure Attachment where
  serviceFunction : String
  locatorName : String
  locator : Locator
  port : Option UInt32
  /-- The address of the forwarder's port towards the function. -/
  portMac : Option MacAddress
  transparent : Bool
  deriving DecidableEq, Repr

namespace Attachment

def ip? (a : Attachment) : Option IpAddress := a.locator.ip?

def mac? (a : Attachment) : Option MacAddress := a.locator.mac?

def vlan? (a : Attachment) : Option VlanId := a.locator.vlan?

def interface? (a : Attachment) : Option String := a.locator.interface?

end Attachment

/-- Which way traffic crosses an attachment. -/
inductive Crossing where
  | intoFunction
  | outOfFunction
  deriving DecidableEq, Repr

/-- The name of the locator that traffic crosses; a reverse path swaps the two. -/
def DictionaryEntry.locatorName (e : DictionaryEntry) (direction : Direction)
    (crossing : Crossing) : String :=
  let egress := e.egressLocator.getD e.ingressLocator
  match direction, crossing with
  | .forward, .intoFunction => e.ingressLocator
  | .reverse, .outOfFunction => e.ingressLocator
  | .forward, .outOfFunction => egress
  | .reverse, .intoFunction => egress

/-- How a forwarder reaches a function, or where it gets traffic back from it. -/
def Forwarder.attachment? (f : Forwarder) (sf : ServiceFunction) (direction : Direction)
    (crossing : Crossing) : Option Attachment := do
  let entry ← f.dictionaryEntry? sf.name
  let locator ← sf.locator? (entry.locatorName direction crossing)
  return ⟨sf.name, locator.name, locator.locator, entry.port, entry.mac, sf.transparent⟩

/-- The two ends of a link between forwarders. -/
structure Link where
  near : BoundLocator
  far : BoundLocator
  deriving DecidableEq, Repr

structure Topology where
  forwarders : List Forwarder
  serviceFunctions : List ServiceFunction
  deriving DecidableEq, Repr

namespace Topology

def empty : Topology := ⟨[], []⟩

/-- Of two forwarders with one name the later counts. -/
def forwarder? (t : Topology) (name : String) : Option Forwarder :=
  t.forwarders.reverse.find? (·.name = name)

/-- Of two functions with one name the later counts. -/
def serviceFunction? (t : Topology) (name : String) : Option ServiceFunction :=
  t.serviceFunctions.reverse.find? (·.name = name)

def locator? (t : Topology) (forwarder name : String) : Option BoundLocator :=
  (t.forwarder? forwarder).bind (·.bound? name)

/-- The attachment of a function to a forwarder, if both are known. -/
def attachment? (t : Topology) (forwarder function : String) (direction : Direction)
    (crossing : Crossing) : Option Attachment := do
  let f ← t.forwarder? forwarder
  let sf ← t.serviceFunction? function
  f.attachment? sf direction crossing

/-- The first link that `src` has to `dst`, if `dst` has one back of the same kind. -/
def link? (t : Topology) (src dst : String) : Option Link := do
  let sender ← t.forwarder? src
  let receiver ← t.forwarder? dst
  let near ← sender.locators.find? (·.peer = some dst)
  let far ← receiver.locators.find? fun l =>
    l.peer = some src ∧ l.locator.kind = near.locator.kind
  return ⟨near.bound, far.bound⟩

end Topology
end ServiceChain
