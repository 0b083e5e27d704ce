/-!
Digits and fields of texts, as lists of characters. The readers of addresses, numbers and
documents are built from these.
-/
namespace ServiceChain.Text

/-- The value of a digit in any base up to sixteen; letters count in either case. -/
def digit? (c : Char) : Option Nat :=
  if '0' ≤ c ∧ c ≤ '9' then some (c.toNat - '0'.toNat)
  else if 'a' ≤ c ∧ c ≤ 'f' then some (c.toNat - 'a'.toNat + 10)
  else if 'A' ≤ c ∧ c ≤ 'F' then some (c.toNat - 'A'.toNat + 10)
  else none

def digitChar (n : Nat) : Char :=
  if n < 10 then Char.ofNat ('0'.toNat + n) else Char.ofNat ('a'.toNat + (n - 10))

def digitIn? (radix : Nat) (c : Char) : Option Nat :=
  (digit? c).filter (· < radix)

/-- The value of digits read after a number `acc`; none if a character is no digit. -/
def valueFrom? (radix : Nat) : Nat → List Char → Option Nat
  | acc, [] => some acc
  | acc, c :: rest =>
    match digitIn? radix c with
    | some d => valueFrom? radix (acc * radix + d) rest
    | none => none

def value? (radix : Nat) : List Char → Option Nat
  | [] => none
  | cs => valueFrom? radix 0 cs

/-- The value of decimal digits with at most one plus sign before them. -/
def signedDecimal? : List Char → Option Nat
  | '+' :: cs => value? 10 cs
  | cs => value? 10 cs

def fields (sep : Char) : List Char → List (List Char)
  | [] => [[]]
  | c :: rest =>
    if c = sep then [] :: fields sep rest
    else
      match fields sep rest with
      | piece :: more => (c :: piece) :: more
      | [] => [[c]]

theorem fields_ne_nil (sep : Char) (cs : List Char) : fields sep cs ≠ [] := by
  cases cs with
  | nil => simp [fields]
  | cons c rest =>
    simp only [fields]
    split
    · simp
    · split <;> simp

def join (sep : List Char) : List (List Char) → List Char
  | [] => []
  | [piece] => piece
  | piece :: more => piece ++ sep ++ join sep more

def byteLength : List Char → Nat
  | [] => 0
  | c :: rest => c.utf8Size + byteLength rest

/-- Cut after `n` bytes; none if that place is inside a character or past the end. -/
def cutBytes? : Nat → List Char → Option (List Char × List Char)
  | 0, cs => some ([], cs)
  | _ + 1, [] => none
  | n + 1, c :: rest =>
    if c.utf8Size ≤ n + 1 then
      (cutBytes? (n + 1 - c.utf8Size) rest).map fun (head, tail) => (c :: head, tail)
    else none

end ServiceChain.Text
