/-!
Why a checked address or label is refused.
-/
namespace ServiceChain

/-- What a checked constructor refuses. -/
inductive Refusal where
  /-- The text is not six groups of two hexadecimal digits. -/
  | macFormat (text : String)
  /-- The number is outside the assignable VLAN ids. -/
  | vlanId (number : Nat)
  /-- The number needs more than twenty bits. -/
  | mplsLabel (number : Nat)
  deriving DecidableEq, Repr

namespace Refusal

def message : Refusal → String
  | macFormat text => s!"invalid MAC address format: {text}"
  | vlanId number => s!"invalid VLAN ID: {number} (must be 1-4094)"
  | mplsLabel number => s!"invalid MPLS label: {number} (must be 0-1048575)"

end Refusal
end ServiceChain
