import ServiceChain.Text

/-! Words: scalars without quotation marks. A word stands for a text, a number, a truth value or for
nothing, as the place wants it. Where nothing is wanted in particular, only a word with no other
sense is a text. -/
namespace ServiceChain.Word

def isNull (s : String) : Bool := s ∈ ["", "null", "Null", "NULL", "~"]

def flag? (s : String) : Option Bool :=
  if s ∈ ["true", "True", "TRUE"] then some true
  else if s ∈ ["false", "False", "FALSE"] then some false
  else none

/-- Digits without a leading zero, or digits after the mark of their base. -/
def digits? : List Char → Option Nat
  | '0' :: 'x' :: rest => Text.value? 16 rest
  | '0' :: 'o' :: rest => Text.value? 8 rest
  | '0' :: 'b' :: rest => Text.value? 2 rest
  | '0' :: _ :: _ => none
  | cs => Text.value? 10 cs

/-- A natural number; a plus sign may come first. -/
def natural? (s : String) : Option Nat :=
  match s.toList with
  | '+' :: rest => digits? rest
  | cs => digits? cs

/-- A word without the sign before it. -/
def unsigned : List Char → List Char
  | '+' :: rest => rest
  | '-' :: rest => rest
  | cs => cs

def isExponent : List Char → Bool
  | [] => true
  | e :: rest => (e = 'e' || e = 'E') && (Text.value? 10 (unsigned rest)).isSome

/-- Digits with or without a point among them, and an exponent or none. -/
def isDecimal (cs : List Char) : Bool :=
  let whole := cs.takeWhile Char.isDigit
  let rest := cs.dropWhile Char.isDigit
  match rest with
  | '.' :: more =>
    !(whole ++ more.takeWhile Char.isDigit).isEmpty && isExponent (more.dropWhile Char.isDigit)
  | _ => !whole.isEmpty && isExponent rest

def isPadded (cs : List Char) : Bool := 1 < cs.length && cs.head? = some '0' && cs.all Char.isDigit

def isNumber (s : String) : Bool :=
  let cs := unsigned s.toList
  (digits? cs).isSome || (isDecimal cs && !isPadded cs)
    || cs ∈ [".inf", ".Inf", ".INF"].map String.toList || s ∈ [".nan", ".NaN", ".NAN"]

def isText (s : String) : Bool := !isNull s && (flag? s).isNone && !isNumber s

end ServiceChain.Word
