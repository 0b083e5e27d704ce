/-! Lines in YAML texts, and the folding of scalars that run over several of them. The blanks around
a line break do not count. One break alone is a blank; of several the first does not count. -/
namespace ServiceChain.Document.Yaml

def isBlank (c : Char) : Bool := c = ' ' ∨ c = '\t'

/-- What ends a line once breaks are unified: a line feed, or a separator of lines or paragraphs. -/
def isBreak (c : Char) : Bool := c = '\n' ∨ c = '\u2028' ∨ c = '\u2029'

/-- A line feed for every break that is no separator: return and line feed together, each of them
alone, and next line. -/
def unifyBreaks : List Char → List Char
  | '\r' :: '\n' :: rest => '\n' :: unifyBreaks rest
  | '\r' :: rest => '\n' :: unifyBreaks rest
  | '\u0085' :: rest => '\n' :: unifyBreaks rest
  | c :: rest => c :: unifyBreaks rest
  | [] => []

def atBlank : List Char → Bool
  | [] => true
  | c :: _ => isBlank c || isBreak c

/-- What came after the last character of a scalar, the last first. -/
inductive Gap where
  | blanks (cs : List Char)
  /-- Line breaks; blanks around them do not count. -/
  | breaks (cs : List Char)
  /-- The line breaks that follow an escaped one. -/
  | joined (cs : List Char)
  deriving DecidableEq, Repr

namespace Gap

/-- What the gap comes to where the scalar goes on, the last character first. A separator does not
fold. -/
def folded : Gap → List Char
  | blanks cs => cs
  | joined cs => cs
  | breaks cs =>
    match cs.reverse with
    | ['\n'] => [' ']
    | '\n' :: more => more.reverse
    | _ => cs

def push : Gap → Char → Gap
  | blanks cs, c => if isBreak c then breaks [c] else blanks (c :: cs)
  | breaks cs, c => if isBreak c then breaks (c :: cs) else breaks cs
  | joined cs, c => if isBreak c then joined (c :: cs) else joined cs

def isOnNewLine : Gap → Bool
  | blanks _ => false
  | _ => true

end Gap

/-- A scalar as far as it was read, the last character first, and the gap after it. -/
structure Folding where
  chars : List Char := []
  gap : Gap := .blanks []
  deriving DecidableEq, Repr

namespace Folding

def space (f : Folding) (c : Char) : Folding := { f with gap := f.gap.push c }

def settle (f : Folding) : Folding := ⟨f.gap.folded ++ f.chars, .blanks []⟩

def push (f : Folding) (c : Char) : Folding := { f.settle with chars := c :: f.settle.chars }

def joinLines (f : Folding) : Folding := { f.settle with gap := .joined [] }

/-- The text without the last gap. -/
def trimmed (f : Folding) : String := String.ofList f.chars.reverse

def whole (f : Folding) : String := f.settle.trimmed

end Folding
end ServiceChain.Document.Yaml
