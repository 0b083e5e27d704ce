import ServiceChain.Text
import ServiceChain.Address.Refusal

/-! MAC addresses: six octets, their text, their order, and the synthetic addresses that stand
for one hop of one path. -/
namespace ServiceChain

/-- Six octets, the first transmitted first. -/
structure MacAddress where
  o1 : UInt8
  o2 : UInt8
  o3 : UInt8
  o4 : UInt8
  o5 : UInt8
  o6 : UInt8
  deriving DecidableEq, Repr

namespace MacAddress

def octets (m : MacAddress) : List UInt8 := [m.o1, m.o2, m.o3, m.o4, m.o5, m.o6]

@[simp] theorem octets_length (m : MacAddress) : m.octets.length = 6 := rfl

def ofOctets? : List UInt8 → Option MacAddress
  | [a, b, c, d, e, f] => some ⟨a, b, c, d, e, f⟩
  | _ => none

@[simp] theorem ofOctets?_octets (m : MacAddress) : ofOctets? m.octets = some m := rfl

def zero : MacAddress := ⟨0, 0, 0, 0, 0, 0⟩

def broadcast : MacAddress := ⟨255, 255, 255, 255, 255, 255⟩

/-- The octet of `n` above its `k` lowest. -/
def octetAt (n k : Nat) : UInt8 := UInt8.ofNat (n >>> (8 * k))

/-- The locally administered address of one hop: the path id, then the service index. -/
def synthetic (pathId : UInt32) (index : UInt8) : MacAddress :=
  ⟨2, octetAt pathId.toNat 3, octetAt pathId.toNat 2, octetAt pathId.toNat 1,
    octetAt pathId.toNat 0, index⟩

/-- The group bit is the lowest bit of the first octet. -/
def isMulticast (m : MacAddress) : Bool := m.o1.toNat % 2 = 1

def isUnicast (m : MacAddress) : Bool := !m.isMulticast

def isLocal (m : MacAddress) : Bool := m.o1.toNat / 2 % 2 = 1

def isZero (m : MacAddress) : Bool := m = zero

def isBroadcast (m : MacAddress) : Bool := m = broadcast

/-- The octets as the digits of one number; its order is the order of addresses. -/
def toNat (m : MacAddress) : Nat := m.octets.foldl (fun n o => n * 256 + o.toNat) 0

def sort (macs : List MacAddress) : List MacAddress :=
  macs.mergeSort fun a b => a.toNat ≤ b.toNat

def group (o : UInt8) : List Char :=
  [Text.digitChar (o.toNat / 16), Text.digitChar (o.toNat % 16)]

def chars (m : MacAddress) : List Char := Text.join [':'] (m.octets.map group)

def text (m : MacAddress) : String := String.ofList m.chars

/-- A group takes two characters; a plus sign may stand for a leading zero. -/
def octet? : List Char → Option UInt8
  | ['+', d] => (Text.digitIn? 16 d).map UInt8.ofNat
  | [c, d] => (Text.value? 16 [c, d]).map UInt8.ofNat
  | _ => none

def ofChars? (cs : List Char) : Option MacAddress :=
  let sep := if ':' ∈ cs then ':' else '-'
  ((Text.fields sep cs).mapM octet?).bind ofOctets?

def parse (s : String) : Except Refusal MacAddress :=
  match ofChars? s.toList with
  | some m => .ok m
  | none => .error (.macFormat s)

end MacAddress
end ServiceChain
