import ServiceChain.Address.Refusal

/-! MPLS labels: twenty bits. -/
namespace ServiceChain

structure MplsLabel where
  number : Nat
  le_max : number ≤ 1048575 := by omega
  deriving DecidableEq, Repr

namespace MplsLabel

def maximum : Nat := 1048575

def ofNat? (n : Nat) : Option MplsLabel :=
  if h : n ≤ 1048575 then some ⟨n, h⟩ else none

theorem ofNat?_number (l : MplsLabel) : ofNat? l.number = some l := by
  simp [ofNat?, l.le_max]

def checked (n : Nat) : Except Refusal MplsLabel :=
  match ofNat? n with
  | some l => .ok l
  | none => .error (.mplsLabel n)

def text (l : MplsLabel) : String := toString l.number

end MplsLabel
end ServiceChain
