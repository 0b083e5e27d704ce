import ServiceChain.Flow.Match

/-! Packets as far as matches look at them, and which of them a match covers. -/
namespace ServiceChain

/-- A packet on a switch. Tags and headers may be absent. -/
structure Packet where
  /-- Where the packet came in. -/
  inPort : Port
  ethType : UInt16
  ethSrc : MacAddress
  ethDst : MacAddress
  vlan : Option VlanId
  mplsLabel : Option MplsLabel
  nsp : Option PathId
  nsi : Option ServiceIndex
  nshC1 : Option UInt32
  tunDst : Option IpAddress
  metadata : UInt64
  deriving DecidableEq, Repr

namespace Packet

/-- The service header names the path and the index. -/
structure HasNsh (packet : Packet) (path : PathId) (index : ServiceIndex) : Prop where
  ethType : packet.ethType = ethTypeNsh
  nsp : packet.nsp = some path
  nsi : packet.nsi = some index

/-- A packet with this header and nothing else to match on. -/
def withNsh (path : PathId) (index : ServiceIndex) : Packet where
  inPort := .number 1
  ethType := ethTypeNsh
  ethSrc := MacAddress.synthetic 0 0
  ethDst := MacAddress.synthetic 0 0
  vlan := none
  mplsLabel := none
  nsp := some path
  nsi := some index
  nshC1 := none
  tunDst := none
  metadata := 0

theorem hasNsh_withNsh (path : PathId) (index : ServiceIndex) :
    (withNsh path index).HasNsh path index :=
  ⟨rfl, rfl, rfl⟩

end Packet

namespace FlowMatch

/-- Every field that is set is equal. -/
def covers (m : FlowMatch) (packet : Packet) : Bool :=
  m.inPort.all (packet.inPort = ·) && m.ethType.all (packet.ethType = ·) &&
    m.ethSrc.all (packet.ethSrc = ·) && m.ethDst.all (packet.ethDst = ·) &&
    m.vlan.all (packet.vlan = some ·) && m.mplsLabel.all (packet.mplsLabel = some ·) &&
    m.nsp.all (packet.nsp = some ·) && m.nsi.all (packet.nsi = some ·) &&
    m.nshC1.all (packet.nshC1 = some ·) && m.tunDst.all (packet.tunDst = some ·) &&
    m.metadata.all (packet.metadata = ·)

theorem covers_withNsp {path : PathId} {packet : Packet} :
    (any.withNsp path).covers packet = true ↔
      packet.ethType = ethTypeNsh ∧ packet.nsp = some path := by
  simp [covers, withNsp, any]

theorem covers_withNsh {path : PathId} {index : ServiceIndex} {packet : Packet} :
    (any.withNsh path index).covers packet = true ↔ packet.HasNsh path index := by
  have hfields : (any.withNsh path index).covers packet = true ↔
      (packet.ethType = ethTypeNsh ∧ packet.nsp = some path) ∧ packet.nsi = some index := by
    simp [covers, withNsh, any]
  rw [hfields]
  exact ⟨fun ⟨⟨htype, hpath⟩, hindex⟩ => ⟨htype, hpath, hindex⟩,
    fun h => ⟨⟨h.ethType, h.nsp⟩, h.nsi⟩⟩

theorem ethType_of_covers {m : FlowMatch} {packet : Packet} (h : m.covers packet = true)
    {ethType : UInt16} (htype : m.ethType = some ethType) : packet.ethType = ethType := by
  simp only [covers, Bool.and_eq_true] at h
  simpa [htype] using h.1.1.1.1.1.1.1.1.1.2

theorem vlan_of_covers {m : FlowMatch} {packet : Packet} (h : m.covers packet = true)
    {vlan : VlanId} (hvlan : m.vlan = some vlan) : packet.vlan = some vlan := by
  simp only [covers, Bool.and_eq_true] at h
  simpa [hvlan] using h.1.1.1.1.1.1.2

theorem nsp_of_covers {m : FlowMatch} {packet : Packet} (h : m.covers packet = true)
    {path : PathId} (hnsp : m.nsp = some path) : packet.nsp = some path := by
  simp only [covers, Bool.and_eq_true] at h
  simpa [hnsp] using h.1.1.1.1.2

theorem nsi_of_covers {m : FlowMatch} {packet : Packet} (h : m.covers packet = true)
    {index : ServiceIndex} (hnsi : m.nsi = some index) : packet.nsi = some index := by
  simp only [covers, Bool.and_eq_true] at h
  simpa [hnsi] using h.1.1.1.2

/-- Both ask for a value, and not for the same. -/
def Differ {α : Type} (a b : Option α) : Prop := ∃ x ∈ a, ∃ y ∈ b, x ≠ y

/-- Some field is set in both matches, to different values. -/
def Disjoint (m other : FlowMatch) : Prop :=
  Differ m.inPort other.inPort ∨ Differ m.ethType other.ethType ∨ Differ m.ethSrc other.ethSrc ∨
    Differ m.ethDst other.ethDst ∨ Differ m.vlan other.vlan ∨
    Differ m.mplsLabel other.mplsLabel ∨ Differ m.nsp other.nsp ∨ Differ m.nsi other.nsi ∨
    Differ m.nshC1 other.nshC1 ∨ Differ m.tunDst other.tunDst ∨ Differ m.metadata other.metadata

end FlowMatch
end ServiceChain
