import ServiceChain.Text
import ServiceChain.Binary64

/-! Numbers in JSON texts: their grammar, and their one written form. Integers of 64 bits are kept;
any other number is the floating-point number nearest to it. -/
namespace ServiceChain.Document.Json

structure Number where
  negative : Bool
  whole : List Char
  fraction : List Char
  exponent : Option Int
  deriving DecidableEq, Repr

namespace Number

def digits? (cs : List Char) : Option (List Char × List Char) :=
  if cs.head?.any Char.isDigit then some (cs.takeWhile Char.isDigit, cs.dropWhile Char.isDigit)
  else none

/-- Digits without a leading zero. -/
def whole? : List Char → Option (List Char × List Char)
  | '0' :: rest => some (['0'], rest)
  | cs => digits? cs

/-- The digits after a point, or none. -/
def fraction? : List Char → Option (List Char × List Char)
  | '.' :: rest => digits? rest
  | cs => some ([], cs)

def power (digits : List Char) : Nat := (Text.value? 10 digits).getD 0

/-- An exponent, or none. -/
def exponent? : List Char → Option (Option Int × List Char)
  | e :: rest =>
    if e = 'e' ∨ e = 'E' then
      match rest with
      | '-' :: more => (digits? more).map fun (ds, rest) => (some (-(power ds : Int)), rest)
      | '+' :: more => (digits? more).map fun (ds, rest) => (some (power ds : Int), rest)
      | _ => (digits? rest).map fun (ds, rest) => (some (power ds : Int), rest)
    else some (none, e :: rest)
  | [] => some (none, [])

/-- A number without its sign. -/
def unsigned? (negative : Bool) (cs : List Char) : Option Number := do
  let (whole, rest) ← whole? cs
  let (fraction, rest) ← fraction? rest
  let (exponent, rest) ← exponent? rest
  if rest.isEmpty then some ⟨negative, whole, fraction, exponent⟩ else none

def ofChars? : List Char → Option Number
  | '-' :: rest => unsigned? true rest
  | cs => unsigned? false cs

/-- An integer of 64 bits, with a sign or without. -/
def isKept (x : Number) : Bool :=
  let size := (Text.value? 10 x.whole).getD 0
  x.fraction.isEmpty && x.exponent.isNone
    && if x.negative then 0 < size && size ≤ UInt64.size / 2 else size < UInt64.size

/-- Numbers whose first digit has an exponent between these are written without it. -/
def leastPlain : Int := -5
def greatestPlain : Int := 15

/-- Digits, the first of which has an exponent, with a point among them. -/
def layout (digits : List Char) (exponent : Int) : List Char :=
  if exponent < leastPlain ∨ greatestPlain < exponent then
    digits.take 1 ++ (if digits.length ≤ 1 then [] else '.' :: digits.drop 1)
      ++ 'e' :: (if exponent < 0 then '-' else '+') :: (toString exponent.natAbs).toList
  else
    match exponent with
    | .ofNat e =>
      let places := e + 1
      digits.take places ++ List.replicate (places - digits.length) '0'
        ++ '.' :: (if digits.length ≤ places then ['0'] else digits.drop places)
    | .negSucc e => '0' :: '.' :: (List.replicate e '0' ++ digits)

/-- The shortest text of the floating-point number nearest to this; none if it is too large. -/
def floating? (x : Number) : Option String := do
  let n ← Binary64.ofDecimal? x.whole x.fraction (x.exponent.getD 0)
  let (digits, exponent) ← if n = 0 then some (['0'], 0) else Binary64.digits? n
  return String.ofList ((if x.negative then ['-'] else []) ++ layout digits exponent)

/-- The written form of a number; other texts, and numbers too large, stay as they are. -/
def canonical (literal : String) : String :=
  match ofChars? literal.toList with
  | some x => if x.isKept then literal else x.floating?.getD literal
  | none => literal

end Number
end ServiceChain.Document.Json
