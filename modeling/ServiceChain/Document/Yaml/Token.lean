import ServiceChain.Text
import ServiceChain.Document.Yaml.Folding

/-! The tokens of a YAML text, made in one pass over its characters. Outside of flow collections the
columns of items and names open and close the blocks. A name is known only by the colon after it:
a scalar or collection that can be a name is remembered, and its mark is put before it once the
colon comes, on the same line and not too far off. -/
namespace ServiceChain.Document.Yaml

inductive Token where
  | documentStart
  | documentEnd
  /-- A list of items with dashes begins. -/
  | blockList
  /-- A record of names with colons begins. -/
  | blockRecord
  | blockEnd
  | openList
  | closeList
  | openRecord
  | closeRecord
  | dash
  | comma
  /-- What follows is the name of a member. -/
  | name
  | colon
  | quoted (s : String)
  | word (s : String)
  deriving DecidableEq, Repr

/-- Something that is the name of a member if a colon follows. -/
structure Candidate where
  column : Nat
  /-- The bytes before it on its line. -/
  offset : Nat
  /-- How many tokens come before it. -/
  before : Nat
  /-- Only a name can stand there. -/
  required : Bool
  deriving DecidableEq, Repr

namespace Candidate

def reach : Nat := 1024

end Candidate

/-- Where the reader of characters stands. -/
inductive Place where
  | between
  /-- Inside the mark of a document's beginning or end. -/
  | marker
  | comment
  | plain (f : Folding)
  | quote (f : Folding)
  | escape (f : Folding)
  /-- `left` hexadecimal digits of an escape are still to come. -/
  | digits (f : Folding) (left code : Nat)
  deriving DecidableEq, Repr

structure Scan where
  column : Nat := 0
  /-- The bytes before the column on its line. -/
  offset : Nat := 0
  place : Place := .between
  /-- The columns of the open blocks, the innermost first. -/
  blocks : List Nat := []
  candidate : Option Candidate := none
  /-- The candidates around each open flow collection, the innermost first. -/
  around : List (Option Candidate) := []
  /-- A name or the dash of an item may begin here. -/
  mayBegin : Bool := true
  tokens : Array Token := #[]
  deriving DecidableEq, Repr

namespace Scan

def inFlow (s : Scan) : Bool := !s.around.isEmpty

def emit (s : Scan) (t : Token) (place : Place) : Scan :=
  { s with tokens := s.tokens.push t, place := place }

def isInside (s : Scan) (column : Nat) : Bool := s.blocks.head?.all (· < column)

/-- A block begins with the token in this place, unless the innermost one goes on. -/
def openBlock (s : Scan) (t : Token) (column place : Nat) : Scan :=
  if s.inFlow || !s.isInside column then s
  else { s with blocks := column :: s.blocks, tokens := s.tokens.insertIdxIfInBounds place t }

def closeTo (s : Scan) (blocks : List Nat) : Scan :=
  let closed := List.replicate (s.blocks.length - blocks.length) Token.blockEnd
  { s with blocks := blocks, tokens := s.tokens ++ closed }

def closeBlocks (s : Scan) : Scan :=
  if s.inFlow then s else s.closeTo (s.blocks.dropWhile (s.column < ·))

/-- The candidate is no name after all; none if it had to be one. -/
def forget? (s : Scan) : Option Scan :=
  if s.candidate.any (·.required) then none else some { s with candidate := none }

def offer? (s : Scan) : Option Scan :=
  if s.mayBegin then
    s.forget?.map fun s =>
      let required := !s.inFlow && s.blocks.head? = some s.column
      { s with candidate := some ⟨s.column, s.offset, s.tokens.size, required⟩, mayBegin := false }
  else some s

/-- A mark that stands for itself where a name may begin: a question mark before a name, or a colon
after a name that was no candidate. Names may follow it outside of flow collections. -/
def loneMark? (s : Scan) (t : Token) : Option Scan :=
  if s.inFlow || s.mayBegin then
    (s.openBlock .blockRecord s.column s.tokens.size).forget?.map fun s =>
      { s.emit t .between with mayBegin := !s.inFlow }
  else none

def colon? (s : Scan) : Option Scan :=
  match s.candidate.filter fun c => s.offset ≤ c.offset + Candidate.reach with
  | some c =>
    let s := { s with tokens := s.tokens.insertIdxIfInBounds c.before .name, candidate := none }
    some ((s.openBlock .blockRecord c.column c.before).emit .colon .between)
  | none => s.loneMark? .colon

def endLine? (s : Scan) : Option Scan :=
  if (s.candidate :: s.around).any (·.any (·.required)) then none
  else
    some { s with
      column := 0, offset := 0, candidate := none, around := s.around.map fun _ => none }

def isFlowMark (c : Char) : Bool := c ∈ [',', '[', ']', '{', '}']

/-- Marks that begin no plain scalar; most of them open forms outside of the subset. The last two
are the single quotation marks. -/
def isReserved (c : Char) : Bool :=
  c ∈ ['#', '&', '*', '!', '|', '>', '%', '@', '"'] ∨ c.toNat = 39 ∨ c.toNat = 96

def beginsPlain (s : Scan) (c : Char) (rest : List Char) : Bool :=
  !isBlank c && !isFlowMark c && !isReserved c
    && (c ≠ '-' || !atBlank rest) && ((c ≠ '?' && c ≠ ':') || (!s.inFlow && !atBlank rest))

/-- Three dashes or points alone at the beginning of a line mark a document's beginning or end. -/
def beginsMarker (s : Scan) (c : Char) : List Char → Bool
  | a :: b :: rest => s.column = 0 && (c = '-' || c = '.') && a = c && b = c && atBlank rest
  | _ => false

def marker? (s : Scan) (c : Char) : Option Scan :=
  (if s.inFlow then none else (s.closeTo []).forget?).map fun s =>
    { s.emit (if c = '-' then .documentStart else .documentEnd) .marker with mayBegin := false }

/-- The first character of a token; `rest` comes after it. -/
def begin? (s : Scan) (c : Char) (rest : List Char) : Option Scan :=
  if s.beginsMarker c rest then s.marker? c
  else if c = '[' ∨ c = '{' then
    s.offer?.map fun s =>
      { s.emit (if c = '[' then .openList else .openRecord) .between with
        candidate := none, around := s.candidate :: s.around, mayBegin := true }
  else if c = ']' ∨ c = '}' then
    s.forget?.map fun s =>
      { s.emit (if c = ']' then .closeList else .closeRecord) .between with
        candidate := s.around.head?.join, around := s.around.tail, mayBegin := false }
  else if c = ',' then s.forget?.map ({ ·.emit .comma .between with mayBegin := true })
  else if c = '-' ∧ atBlank rest then
    if s.inFlow ∨ !s.mayBegin then none
    else
      (s.openBlock .blockList s.column s.tokens.size).forget?.map (·.emit .dash .between)
  else if c = '?' ∧ (s.inFlow ∨ atBlank rest) then s.loneMark? .name
  else if c = ':' ∧ (s.inFlow ∨ atBlank rest) then s.colon?
  else if c = '"' then s.offer?.map ({ · with place := .quote {} })
  else if s.beginsPlain c rest then
    s.offer?.map ({ · with place := .plain (Folding.push {} c) })
  else none

/-- A character between tokens. A mark for the byte order may begin a line. Tabulators may not come
before a name or a dash. -/
def between? (s : Scan) (c : Char) (rest : List Char) : Option Scan :=
  if isBreak c then some { s with place := .between, mayBegin := s.mayBegin || !s.inFlow }
  else if c = ' ' ∨ (c = '\t' ∧ (s.inFlow ∨ !s.mayBegin)) ∨ (c = '\ufeff' ∧ s.column = 0) then
    some { s with place := .between }
  else if c = '#' then some { s with place := .comment }
  else s.closeBlocks.begin? c rest

def endPlain (s : Scan) (f : Folding) : Scan :=
  { s.emit (.word f.trimmed) .between with mayBegin := s.mayBegin || f.gap.isOnNewLine }

def endsPlain (s : Scan) (f : Folding) (c : Char) (rest : List Char) : Bool :=
  (c = '#' && f.gap ≠ .blanks []) || s.beginsMarker c rest
    || (f.gap.isOnNewLine && !s.inFlow && !s.isInside s.column)
    || (c = ':' && atBlank rest) || (s.inFlow && isFlowMark c)

def plain? (s : Scan) (f : Folding) (c : Char) (rest : List Char) : Option Scan :=
  if isBreak c then some { s with place := .plain (f.space c) }
  else if isBlank c then
    if c = '\t' ∧ f.gap.isOnNewLine ∧ !s.isInside s.column then none
    else some { s with place := .plain (f.space c) }
  else if s.endsPlain f c rest then (s.endPlain f).between? c rest
  else if s.inFlow ∧ c = ':' ∧ rest.head?.any (fun d => d = '?' ∨ isFlowMark d) then none
  else some { s with place := .plain (f.push c) }

def quote? (s : Scan) (f : Folding) (c : Char) (rest : List Char) : Option Scan :=
  if isBlank c ∨ isBreak c then some { s with place := .quote (f.space c) }
  else if s.beginsMarker c rest then none
  else if c = '"' then some (s.emit (.quoted f.whole) .between)
  else if c = '\\' then some { s with place := .escape f }
  else some { s with place := .quote (f.push c) }

def escaped? : Char → Option Char
  | '0' => some '\x00'
  | 'a' => some '\x07'
  | 'b' => some '\x08'
  | 't' => some '\t'
  | '\t' => some '\t'
  | 'n' => some '\n'
  | 'v' => some '\x0b'
  | 'f' => some '\x0c'
  | 'r' => some '\r'
  | 'e' => some '\x1b'
  | ' ' => some ' '
  | '"' => some '"'
  | '/' => some '/'
  | '\\' => some '\\'
  | 'N' => some '\u0085'
  | '_' => some '\u00a0'
  | 'L' => some '\u2028'
  | 'P' => some '\u2029'
  | _ => none

def escapeDigits? : Char → Option Nat
  | 'x' => some 2
  | 'u' => some 4
  | 'U' => some 8
  | _ => none

def escape? (s : Scan) (f : Folding) (c : Char) : Option Scan :=
  if isBreak c then some { s with place := .quote f.joinLines }
  else
    match escaped? c, escapeDigits? c with
    | some e, _ => some { s with place := .quote (f.push e) }
    | none, some left => some { s with place := .digits f left 0 }
    | none, none => none

def digit? (s : Scan) (f : Folding) (left code : Nat) (c : Char) : Option Scan :=
  (Text.digitIn? 16 c).bind fun d =>
    let code := code * 16 + d
    if 1 < left then some { s with place := .digits f (left - 1) code }
    else if code.isValidChar then some { s with place := .quote (f.push (Char.ofNat code)) }
    else none

/-- A character; none where the subset has nothing that goes on with it. -/
def read? (s : Scan) (c : Char) (rest : List Char) : Option Scan :=
  match s.place with
  | .between => s.between? c rest
  | .marker => if c = '-' ∨ c = '.' then some s else s.between? c rest
  | .comment => if isBreak c then s.between? c rest else some s
  | .plain f => s.plain? f c rest
  | .quote f => s.quote? f c rest
  | .escape f => s.escape? f c
  | .digits f left code => s.digit? f left code c

def advance? (s : Scan) (c : Char) : Option Scan :=
  if isBreak c then s.endLine?
  else some { s with column := s.column + 1, offset := s.offset + c.utf8Size }

def finish? (s : Scan) : Option (List Token) :=
  let s :=
    match s.place with
    | .plain f => s.endPlain f
    | _ => s
  match s.place with
  | .quote _ => none
  | .escape _ => none
  | .digits .. => none
  | _ => if s.inFlow then none else (s.closeTo []).forget?.map (·.tokens.toList)

end Scan

def scan? : Scan → List Char → Option (List Token)
  | s, [] => s.finish?
  | s, c :: rest =>
    match (s.read? c rest).bind (·.advance? c) with
    | some s => scan? s rest
    | none => none

end ServiceChain.Document.Yaml
