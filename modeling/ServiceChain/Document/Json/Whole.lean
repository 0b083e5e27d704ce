import ServiceChain.Document.Json

/-! Documents that can be held whole: all their texts can be read, their numbers are in range, and
they are not nested too deep. What is only passed over in a text need not be whole. -/
namespace ServiceChain.Document.Json

def Number.isHeld (x : Number) : Bool :=
  x.isKept || (Binary64.ofDecimal? x.whole x.fraction (x.exponent.getD 0)).isSome

def holds (literal : String) : Bool := (Number.ofChars? literal.toList).any Number.isHeld

mutual

/-- Whether a document can be held, with at most `depth` lists and records inside each other. -/
def fits (depth : Nat) : Document → Bool
  | .word _ => true
  | .null => true
  | .flag _ => true
  | .natural n => holds (toString n)
  | .number literal => holds literal
  | .text _ => true
  | .garbled => false
  | .list items => 0 < depth && fitItems (depth - 1) items
  | .record members => 0 < depth && fitMembers (depth - 1) members

def fitItems (depth : Nat) : List Document → Bool
  | [] => true
  | d :: rest => fits depth d && fitItems depth rest

def fitMembers (depth : Nat) : List (String × Document) → Bool
  | [] => true
  | (_, d) :: rest => fits depth d && fitMembers depth rest

end

def greatestDepth : Nat := 127

def whole? (s : String) : Option Document := (parse? s).filter (fits greatestDepth)

end ServiceChain.Document.Json
