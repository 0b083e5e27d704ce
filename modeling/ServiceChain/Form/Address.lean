import ServiceChain.Address.Ip
import ServiceChain.Address.Mac
import ServiceChain.Address.Mpls
import ServiceChain.Address.Vlan
import ServiceChain.Document.Value

/-! The document forms of addresses: texts, and numbers for VLAN ids and labels. -/
namespace ServiceChain

def Document.checked {α : Type} : Except Refusal α → Document.Decoded α
  | .ok a => .ok a
  | .error reason => .error (.refused reason)

def MacAddress.toDocument (m : MacAddress) : Document := .text m.text

def MacAddress.ofDocument (d : Document) : Document.Decoded MacAddress := do
  Document.checked (MacAddress.parse (← d.toText))

def VlanId.toDocument (v : VlanId) : Document := .natural v.number

def VlanId.ofDocument (d : Document) : Document.Decoded VlanId := do
  Document.checked (VlanId.checked (← d.toBounded UInt16.size))

def MplsLabel.toDocument (l : MplsLabel) : Document := .natural l.number

def MplsLabel.ofDocument (d : Document) : Document.Decoded MplsLabel := do
  Document.checked (MplsLabel.checked (← d.toBounded UInt32.size))

def IpAddress.toDocument (ip : IpAddress) : Document := .text ip.text

def IpAddress.ofDocument (d : Document) : Document.Decoded IpAddress := do
  Document.require (IpAddress.parse? (← d.toText))

namespace Document

def ofUInt8 (n : UInt8) : Document := .natural n.toNat

@[simp] theorem toUInt8_ofUInt8 (n : UInt8) : (ofUInt8 n).toUInt8 = .ok n := by
  simp [ofUInt8, toUInt8, toBounded, bounded, n.toNat_lt, Except.map]

def ofUInt16 (n : UInt16) : Document := .natural n.toNat

@[simp] theorem toUInt16_ofUInt16 (n : UInt16) : (ofUInt16 n).toUInt16 = .ok n := by
  simp [ofUInt16, toUInt16, toBounded, bounded, n.toNat_lt, Except.map]

def ofUInt32 (n : UInt32) : Document := .natural n.toNat

@[simp] theorem toUInt32_ofUInt32 (n : UInt32) : (ofUInt32 n).toUInt32 = .ok n := by
  simp [ofUInt32, toUInt32, toBounded, bounded, n.toNat_lt, Except.map]

def ofUInt64 (n : UInt64) : Document := .natural n.toNat

@[simp] theorem toUInt64_ofUInt64 (n : UInt64) : (ofUInt64 n).toUInt64 = .ok n := by
  simp [ofUInt64, toUInt64, toBounded, bounded, n.toNat_lt, Except.map]

end Document
end ServiceChain
