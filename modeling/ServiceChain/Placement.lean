import ServiceChain.Topology

/-! Placements: the switch a logical interface sits on, and the tunnels between placements. -/
namespace ServiceChain

structure Placement where
  number : UInt64
  deriving DecidableEq, Repr

namespace Placement

instance : LT Placement := ⟨fun a b => a.number < b.number⟩

instance : DecidableLT Placement := fun a b => inferInstanceAs (Decidable (a.number < b.number))

def text (p : Placement) : String := toString p.number.toNat

def switch (p : Placement) : SwitchId := "openflow:" ++ p.text

end Placement

/-- An interface on `src` that leads to `dst`. -/
structure Tunnel where
  src : Placement
  dst : Placement
  interface : String
  deriving DecidableEq, Repr

/-- A table of placed interfaces and of tunnels. -/
structure Placements where
  interfaces : List (String × Placement)
  tunnels : List Tunnel
  deriving DecidableEq, Repr

inductive PlacementError where
  | notPlaced (interface : String)
  | noTunnel (src dst : Placement)
  deriving DecidableEq, Repr

def PlacementError.message : PlacementError → String
  | notPlaced interface => s!"interface {interface} is not placed on any switch"
  | noTunnel src dst => s!"no tunnel interface from {src.text} to {dst.text}"

namespace Placements

def empty : Placements := ⟨[], []⟩

/-- Of two entries for one interface the later counts. -/
def placement (p : Placements) (interface : String) : Except PlacementError Placement :=
  match p.interfaces.reverse.lookup interface with
  | some id => .ok id
  | none => .error (.notPlaced interface)

/-- Of two tunnels between the same placements the later counts. -/
def tunnel (p : Placements) (src dst : Placement) : Except PlacementError String :=
  match p.tunnels.reverse.find? fun t => t.src = src ∧ t.dst = dst with
  | some t => .ok t.interface
  | none => .error (.noTunnel src dst)

end Placements

/-- The switch of a forwarder: that of its placement, else the one it names itself. -/
def Topology.switch? (t : Topology) (forwarder : String) (placement : Option Placement) :
    Option SwitchId :=
  match placement with
  | some p => some p.switch
  | none => (t.forwarder? forwarder).bind (·.switch)

end ServiceChain
