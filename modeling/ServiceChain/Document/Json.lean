import ServiceChain.Text
import ServiceChain.Document.Value
import ServiceChain.Document.Json.Number

/-! The JSON form of documents, by RFC 8259. Reading is one pass over the characters, which makes
tokens, and one over the tokens, which builds the value on a stack of open lists and records. -/
namespace ServiceChain.Document.Json

inductive Token where
  | openList
  | closeList
  | openRecord
  | closeRecord
  | comma
  | colon
  /-- A quoted text; `paired` says that every surrogate escape had its partner. -/
  | quoted (chars : List Char) (paired : Bool)
  | word (chars : List Char)
  deriving DecidableEq, Repr

def punctuation? : Char → Option Token
  | '[' => some .openList
  | ']' => some .closeList
  | '{' => some .openRecord
  | '}' => some .closeRecord
  | ',' => some .comma
  | ':' => some .colon
  | _ => none

def isBlank (c : Char) : Bool := c = ' ' ∨ c = '\n' ∨ c = '\r' ∨ c = '\t'

/-- A quoted text as far as it was read, last character first. `high` is the first half of a
surrogate pair whose second half has not come yet. -/
structure Quote where
  chars : List Char := []
  paired : Bool := true
  high : Option Nat := none
  deriving DecidableEq, Repr

namespace Quote

/-- A half without its partner denotes no character and is replaced by the mark for that. -/
def settle (q : Quote) : Quote :=
  match q.high with
  | some _ => ⟨'\ufffd' :: q.chars, false, none⟩
  | none => q

def push (q : Quote) (c : Char) : Quote :=
  let q := q.settle
  { q with chars := c :: q.chars }

def pushUnit (q : Quote) (unit : Nat) : Quote :=
  if 0xDC00 ≤ unit ∧ unit ≤ 0xDFFF then
    match q.high with
    | some h =>
      let c := Char.ofNat (0x10000 + (h - 0xD800) * 0x400 + (unit - 0xDC00))
      { q with chars := c :: q.chars, high := none }
    | none => { q with chars := '\ufffd' :: q.chars, paired := false }
  else if 0xD800 ≤ unit ∧ unit ≤ 0xDBFF then { q.settle with high := some unit }
  else q.push (Char.ofNat unit)

def token (q : Quote) : Token := .quoted q.settle.chars.reverse q.settle.paired

end Quote

/-- Where the reader of characters stands. -/
inductive Place where
  | between
  | word (chars : List Char)
  | quote (q : Quote)
  | escape (q : Quote)
  /-- `left` hexadecimal digits of an escape are still to come. -/
  | digits (q : Quote) (left unit : Nat)
  deriving DecidableEq, Repr

def escaped? : Char → Option Char
  | '"' => some '"'
  | '\\' => some '\\'
  | '/' => some '/'
  | 'b' => some '\x08'
  | 'f' => some '\x0c'
  | 'n' => some '\n'
  | 'r' => some '\r'
  | 't' => some '\t'
  | _ => none

/-- One character between tokens; the tokens so far come last first. -/
def outside (tokens : List Token) (c : Char) : Place × List Token :=
  if isBlank c then (.between, tokens)
  else if c = '"' then (.quote {}, tokens)
  else
    match punctuation? c with
    | some t => (.between, t :: tokens)
    | none => (.word [c], tokens)

/-- One character; none where no JSON text can go on with it. -/
def readChar : Place × List Token → Char → Option (Place × List Token)
  | (.between, tokens), c => some (outside tokens c)
  | (.word chars, tokens), c =>
    if isBlank c ∨ c = '"' ∨ (punctuation? c).isSome then
      some (outside (.word chars.reverse :: tokens) c)
    else some (.word (c :: chars), tokens)
  | (.quote q, tokens), c =>
    if c = '"' then some (.between, q.token :: tokens)
    else if c = '\\' then some (.escape q, tokens)
    else if c.toNat < 0x20 then none
    else some (.quote (q.push c), tokens)
  | (.escape q, tokens), c =>
    if c = 'u' then some (.digits q 4 0, tokens)
    else (escaped? c).map fun e => (.quote (q.push e), tokens)
  | (.digits q left unit, tokens), c =>
    (Text.digitIn? 16 c).map fun d =>
      let unit := unit * 16 + d
      if left ≤ 1 then (.quote (q.pushUnit unit), tokens) else (.digits q (left - 1) unit, tokens)

def tokens? (cs : List Char) : Option (List Token) := do
  match ← cs.foldlM readChar (.between, []) with
  | (.between, tokens) => some tokens.reverse
  | (.word chars, tokens) => some (.word chars.reverse :: tokens).reverse
  | _ => none

def word? (cs : List Char) : Option Document :=
  if cs = "null".toList then some .null
  else if cs = "true".toList then some (.flag true)
  else if cs = "false".toList then some (.flag false)
  else
    (Number.ofChars? cs).map fun _ =>
      match Text.value? 10 cs with
      | some n => .natural n
      | none => .number (String.ofList cs)

/-- The members of an open record, the last first; a name that cannot be read is none. -/
abbrev OpenMembers := List (Option String × Document)

def closeRecord (done : OpenMembers) : Document := .ofMembers done.reverse

/-- A list or record that is still open, the last part first; a record waits for the value of
`name`. -/
inductive Frame where
  | items (done : List Document)
  | members (done : OpenMembers) (name : Option String)

/-- What the reader of tokens waits for, inside the open `frames`. -/
inductive Wait where
  | value (frames : List Frame)
  | firstItem (frames : List Frame)
  | firstName (frames : List Frame)
  | name (done : OpenMembers) (frames : List Frame)
  | colon (done : OpenMembers) (name : Option String) (frames : List Frame)
  | afterItem (done : List Document) (frames : List Frame)
  | afterMember (done : OpenMembers) (frames : List Frame)
  | finished (d : Document)

def plug (d : Document) : List Frame → Wait
  | [] => .finished d
  | .items done :: frames => .afterItem (d :: done) frames
  | .members done name :: frames => .afterMember ((name, d) :: done) frames

def openValue? (frames : List Frame) : Token → Option Wait
  | .openList => some (.firstItem frames)
  | .openRecord => some (.firstName frames)
  | .quoted chars paired =>
    some (plug (if paired then .text (String.ofList chars) else .garbled) frames)
  | .word chars => (word? chars).map fun d => plug d frames
  | _ => none

def openName? (done : OpenMembers) (frames : List Frame) : Token → Option Wait
  | .quoted chars paired =>
    some (.colon done (if paired then some (String.ofList chars) else none) frames)
  | _ => none

def readToken : Wait → Token → Option Wait
  | .value frames, t => openValue? frames t
  | .firstItem frames, .closeList => some (plug (.list []) frames)
  | .firstItem frames, t => openValue? (.items [] :: frames) t
  | .firstName frames, .closeRecord => some (plug (.record []) frames)
  | .firstName frames, t => openName? [] frames t
  | .name done frames, t => openName? done frames t
  | .colon done name frames, .colon => some (.value (.members done name :: frames))
  | .afterItem done frames, .comma => some (.value (.items done :: frames))
  | .afterItem done frames, .closeList => some (plug (.list done.reverse) frames)
  | .afterMember done frames, .comma => some (.name done frames)
  | .afterMember done frames, .closeRecord => some (plug (closeRecord done) frames)
  | _, _ => none

def parse? (s : String) : Option Document := do
  match ← (← tokens? s.toList).foldlM readToken (.value []) with
  | .finished d => some d
  | _ => none

def escape (c : Char) : List Char :=
  match c with
  | '"' => ['\\', '"']
  | '\\' => ['\\', '\\']
  | '\n' => ['\\', 'n']
  | '\r' => ['\\', 'r']
  | '\t' => ['\\', 't']
  | '\x08' => ['\\', 'b']
  | '\x0c' => ['\\', 'f']
  | c =>
    if c.toNat < 0x20 then
      ['\\', 'u', '0', '0', Text.digitChar (c.toNat / 16), Text.digitChar (c.toNat % 16)]
    else [c]

def quote (s : String) : String := "\"" ++ String.ofList (s.toList.flatMap escape) ++ "\""

def enclose (left right : String) (parts : List String) : String :=
  left ++ ",".intercalate parts ++ right

mutual

/-- A document without blanks between its tokens. -/
def print : Document → String
  | .word s => quote s
  | .null => "null"
  | .flag b => toString b
  | .natural n => Number.canonical (toString n)
  | .number literal => Number.canonical literal
  | .text s => quote s
  | .garbled => "null"
  | .list items => enclose "[" "]" (printItems items)
  | .record members => enclose "\x7b" "\x7d" (printMembers members)

def printItems : List Document → List String
  | [] => []
  | d :: rest => print d :: printItems rest

def printMembers : List (String × Document) → List String
  | [] => []
  | (name, d) :: rest => (quote name ++ ":" ++ print d) :: printMembers rest

end

def newLine (level : Nat) : String := "\n" ++ String.ofList (List.replicate (2 * level) ' ')

mutual

def pretty (level : Nat) : Document → String
  | .list [] => "[]"
  | .list items => enclose "[" (newLine level ++ "]") (prettyItems (level + 1) items)
  | .record [] => "\x7b\x7d"
  | .record members =>
    enclose "\x7b" (newLine level ++ "\x7d") (prettyMembers (level + 1) members)
  | d => print d

def prettyItems (level : Nat) : List Document → List String
  | [] => []
  | d :: rest => (newLine level ++ pretty level d) :: prettyItems level rest

def prettyMembers (level : Nat) : List (String × Document) → List String
  | [] => []
  | (name, d) :: rest =>
    (newLine level ++ quote name ++ ": " ++ pretty level d) :: prettyMembers level rest

end

end ServiceChain.Document.Json
