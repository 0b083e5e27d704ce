import ServiceChain.Text
import ServiceChain.Address.Refusal

/-! VLAN ids: the assignable numbers 1 to 4094, bare or after the word for them. -/
namespace ServiceChain

/-- An assignable VLAN id; 0 and 4095 are reserved. -/
@[ext] structure VlanId where
  number : Nat
  one_le : 1 ≤ number := by omega
  le_max : number ≤ 4094 := by omega
  deriving DecidableEq, Repr

namespace VlanId

def minimum : Nat := 1

def maximum : Nat := 4094

def ofNat? (n : Nat) : Option VlanId :=
  if h : 1 ≤ n ∧ n ≤ 4094 then some ⟨n, h.1, h.2⟩ else none

theorem ofNat?_number (v : VlanId) : ofNat? v.number = some v := by
  simp [ofNat?, v.one_le, v.le_max]

theorem number_of_ofNat? {n : Nat} {v : VlanId} (h : ofNat? n = some v) : v.number = n := by
  simp only [ofNat?] at h
  split at h
  · cases h; rfl
  · cases h

def checked (n : Nat) : Except Refusal VlanId :=
  match ofNat? n with
  | some v => .ok v
  | none => .error (.vlanId n)

def text (v : VlanId) : String := toString v.number

/-- What keeps a text from being a VLAN id. -/
inductive Fault where
  | refused (reason : Refusal)
  /-- The fourth byte ends inside a character, so the word before the number cannot be cut off. -/
  | splitCharacter
  deriving DecidableEq, Repr

def isWord (cs : List Char) : Bool := cs.map Char.toLower = ['v', 'l', 'a', 'n']

/-- A number of sixteen bits; a text that is none counts as the reserved id 0. -/
def ofDigits (cs : List Char) : Except Refusal VlanId :=
  match Text.signedDecimal? cs with
  | some n => if n < 65536 then checked n else checked 0
  | none => checked 0

/-- Reads an id. Only a text longer than four bytes is searched for the word before the number. -/
def parse (s : String) : Except Fault VlanId :=
  let cs := s.toList
  let number (digits : List Char) : Except Fault VlanId :=
    match ofDigits digits with
    | .ok v => .ok v
    | .error e => .error (.refused e)
  if Text.byteLength cs ≤ 4 then number cs
  else
    match Text.cutBytes? 4 cs with
    | none => .error .splitCharacter
    | some (head, rest) => if isWord head then number rest else number cs

end VlanId
end ServiceChain
