/-! The tables of the pipeline and their numbering. -/
namespace ServiceChain

/-- A stage of the pipeline by its role, or a table by its number. -/
inductive TableRef where
  | classifier
  | transportIngress
  | pathMapper
  | pathMapperAcl
  | nextHop
  | transportEgress
  | raw (id : UInt8)
  deriving DecidableEq, Repr

structure TableNumbers where
  classifier : UInt8
  transportIngress : UInt8
  pathMapper : UInt8
  pathMapperAcl : UInt8
  nextHop : UInt8
  transportEgress : UInt8
  deriving DecidableEq, Repr

namespace TableNumbers

def shift (offset : UInt8) (n : Nat) : UInt8 := UInt8.ofNat (min 255 (offset.toNat + n))

def standard (offset : UInt8) : TableNumbers where
  classifier := offset
  transportIngress := shift offset 1
  pathMapper := shift offset 2
  pathMapperAcl := shift offset 3
  nextHop := shift offset 4
  transportEgress := shift offset 10

def resolve (t : TableNumbers) : TableRef → UInt8
  | .classifier => t.classifier
  | .transportIngress => t.transportIngress
  | .pathMapper => t.pathMapper
  | .pathMapperAcl => t.pathMapperAcl
  | .nextHop => t.nextHop
  | .transportEgress => t.transportEgress
  | .raw id => id

def toList (t : TableNumbers) : List UInt8 :=
  [t.classifier, t.transportIngress, t.pathMapper, t.pathMapperAcl, t.nextHop, t.transportEgress]

end TableNumbers
end ServiceChain
