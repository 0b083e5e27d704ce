import ServiceChain.Text

/-! IP addresses of both versions, their canonical text and every text that denotes one. -/
namespace ServiceChain

/-- Four octets, or eight groups of sixteen bits. -/
inductive IpAddress where
  | v4 (a b c d : UInt8)
  | v6 (a b c d e f g h : UInt16)
  deriving DecidableEq, Repr

namespace IpAddress

def ofOctets? : List UInt8 → Option IpAddress
  | [a, b, c, d] => some (.v4 a b c d)
  | _ => none

def ofGroups? : List UInt16 → Option IpAddress
  | [a, b, c, d, e, f, g, h] => some (.v6 a b c d e f g h)
  | _ => none

/-- A decimal octet: at most three digits, none of them a leading zero. -/
def octet? (cs : List Char) : Option UInt8 :=
  if cs.length ≤ 3 ∧ (cs.head? = some '0' → cs = ['0']) then
    ((Text.value? 10 cs).filter (· < 256)).map UInt8.ofNat
  else none

def dotted? (cs : List Char) : Option (List UInt8) :=
  ((Text.fields '.' cs).mapM octet?).filter (·.length = 4)

def group? (cs : List Char) : Option UInt16 :=
  if cs.length ≤ 4 then (Text.value? 16 cs).map UInt16.ofNat else none

def pair (high low : UInt8) : UInt16 := UInt16.ofNat (high.toNat * 256 + low.toNat)

def octetGroups : List UInt8 → List UInt16
  | [a, b, c, d] => [pair a b, pair c d]
  | _ => []

/-- Groups between colons. With `tail`, dotted octets may stand for the last two. -/
def groups? (tail : Bool) : List (List Char) → Option (List UInt16)
  | [] => some []
  | [last] =>
    match group? last with
    | some g => some [g]
    | none => if tail then (dotted? last).map octetGroups else none
  | piece :: more => do
    let g ← group? piece
    let gs ← groups? tail more
    return g :: gs

/-- The groups of one side of a double colon; an empty side has none. -/
def side? (tail : Bool) : List Char → Option (List UInt16)
  | [] => some []
  | cs => groups? tail (Text.fields ':' cs)

def splitGap? : List Char → Option (List Char × List Char)
  | ':' :: ':' :: rest => some ([], rest)
  | c :: rest => (splitGap? rest).map fun (head, tail) => (c :: head, tail)
  | [] => none

/-- Eight groups, or fewer around one double colon that stands for at least one zero group. -/
def v6Groups? (cs : List Char) : Option (List UInt16) :=
  match splitGap? cs with
  | none => groups? true (Text.fields ':' cs)
  | some (head, tail) => do
    let before ← side? false head
    let after ← side? true tail
    if before.length + after.length ≤ 7 then
      return before ++ List.replicate (8 - before.length - after.length) 0 ++ after
    else none

def ofChars? (cs : List Char) : Option IpAddress :=
  match (dotted? cs).bind ofOctets? with
  | some ip => some ip
  | none => (v6Groups? cs).bind ofGroups?

def parse? (s : String) : Option IpAddress := ofChars? s.toList

def dotted (a b c d : UInt8) : String :=
  s!"{a.toNat}.{b.toNat}.{c.toNat}.{d.toNat}"

/-- A group in lower case hexadecimal without leading zeros. -/
def groupText (g : UInt16) : String := String.ofList (Nat.toDigits 16 g.toNat)

def colonText (gs : List UInt16) : String := String.intercalate ":" (gs.map groupText)

def zeroRun : List UInt16 → Nat
  | g :: rest => if g = 0 then zeroRun rest + 1 else 0
  | [] => 0

/-- Start and length of the longest run of zero groups, the first of equals; `i` is the place of
the list's head. -/
def longestRun (i : Nat) : List UInt16 → Nat × Nat
  | [] => (i, 0)
  | g :: rest =>
    let later := longestRun (i + 1) rest
    let here := zeroRun (g :: rest)
    if later.2 ≤ here then (i, here) else later

/-- The longest run of two or more zero groups is written as a double colon. -/
def v6Text (gs : List UInt16) : String :=
  let (start, len) := longestRun 0 gs
  if 2 ≤ len then colonText (gs.take start) ++ "::" ++ colonText (gs.drop (start + len))
  else colonText gs

def high (g : UInt16) : UInt8 := UInt8.ofNat (g.toNat / 256)

def low (g : UInt16) : UInt8 := UInt8.ofNat g.toNat

def text : IpAddress → String
  | v4 a b c d => dotted a b c d
  | v6 a b c d e f g h =>
    if [a, b, c, d, e] = [0, 0, 0, 0, 0] ∧ f = 0xffff then
      "::ffff:" ++ dotted (high g) (low g) (high h) (low h)
    else v6Text [a, b, c, d, e, f, g, h]

end IpAddress
end ServiceChain
