/-! Floating-point numbers of 64 bits: the one nearest to a decimal, and the fewest decimal digits
that read back. A number is counted in the smallest positive one, so that each is natural and all
arithmetic is exact; signs are kept elsewhere. -/
namespace ServiceChain.Binary64

/-- A quotient to the nearest integer, in the middle to the even one. -/
def roundDiv (n d : Nat) : Nat :=
  let q := n / d
  let r := n % d
  if 2 * r < d then q else if d < 2 * r then q + 1 else q + q % 2

def one : Nat := Nat.pow 2 1074

def bound : Nat := Nat.pow 2 1024 * one

/-- How far apart the numbers of this size are: each has 53 binary digits at most. -/
def spacing (size : Nat) : Nat := Nat.pow 2 (size.log2 - 52)

/-- The number nearest to a quotient. -/
def nearest (n d : Nat) : Nat :=
  let gap := spacing (n / d)
  roundDiv n (d * gap) * gap

def highestPower : Nat := 308

def tenTo (k : Nat) : Nat := nearest (Nat.pow 10 k * one) 1

/-- The number divided by a power of ten. Both are rounded first. -/
def lower (n k : Nat) : Nat :=
  if n = 0 then 0
  else if k ≤ highestPower then nearest (n * one) (tenTo k)
  else lower (nearest (n * one) (tenTo highestPower)) (k - highestPower)
termination_by k
decreasing_by
  simp only [highestPower] at *
  omega

/-- The number multiplied by a power of ten, both rounded first; none if the product is too
large. -/
def raise? (n k : Nat) : Option Nat :=
  if n = 0 then some 0
  else if k ≤ highestPower then (some (nearest (n * tenTo k) one)).filter (· < bound)
  else none

/-- The digits that fit in 64 bits, after a number `acc`, and how many are left over. -/
def leading : Nat → List Char → Nat × Nat
  | acc, [] => (acc, 0)
  | acc, c :: rest =>
    let next := acc * 10 + (c.toNat - '0'.toNat)
    if next < UInt64.size then leading next rest else (acc, rest.length + 1)

def ofDecimal? (whole fraction : List Char) (exponent : Int) : Option Nat :=
  let (digits, left) := leading 0 (whole ++ fraction)
  let n := nearest (digits * one) 1
  match exponent + left - fraction.length with
  | .ofNat k => raise? n k
  | .negSucc k => some (lower n (k + 1))

def finest : Nat := 350

/-- So many times a step, in finest places, is nearest to the number. -/
def readsBack (n step times : Nat) : Bool := nearest (times * step * one) (Nat.pow 10 finest) = n

/-- The multiple of a step next to the number, of the two around it, that reads back. -/
def multiple? (n step : Nat) : Option Nat :=
  let size := n * Nat.pow 10 finest
  let low := size / (one * step)
  let close := roundDiv size (one * step)
  [close, if close = low then low + 1 else low].find? (readsBack n step)

def mostDigits : Nat := 17

/-- A whole number and a count of finest places: together the shortest decimal that reads back. -/
def shortest? (n : Nat) : Option (Nat × Nat) :=
  let places := (toString (n * Nat.pow 10 finest / one)).length
  (List.range mostDigits).findSome? fun more =>
    let place := places - 1 - more
    (multiple? n (Nat.pow 10 place)).map (·, place)

/-- The digits of the shortest decimal without zeros at the end, and the exponent of the first. -/
def digits? (n : Nat) : Option (List Char × Int) :=
  (shortest? n).map fun (times, place) =>
    let digits := (toString times).toList
    ((digits.reverse.dropWhile (· = '0')).reverse, (digits.length + place : Int) - 1 - finest)

end ServiceChain.Binary64
