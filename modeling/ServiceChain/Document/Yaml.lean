import ServiceChain.Document.Value
import ServiceChain.Document.Yaml.Token

/-! A subset of the YAML form of documents: block mappings and sequences, flow mappings and
sequences (hence JSON), plain and double-quoted scalars, comments, and the marks of one document's
beginning and end. The tokens of a text are read by the grammar of nodes. -/
namespace ServiceChain.Document.Yaml

def memberName? : Document → Option String
  | .text s => some s
  | .word s => some s
  | _ => none

def empty : Document := .word ""

def isNext (stops : List Token) : List Token → Bool
  | t :: _ => t ∈ stops
  | [] => false

mutual

/-- A value and the tokens after it. The items of a list that is the value of a block member may be
no further in than the member's name: `loose` allows that. -/
def node? : Nat → Bool → List Token → Option (Document × List Token)
  | 0, _, _ => none
  | fuel + 1, loose, ts =>
    match ts with
    | .quoted s :: rest => some (.text s, rest)
    | .word s :: rest => some (.word s, rest)
    | .openList :: rest => flowItems? fuel [] rest
    | .openRecord :: rest => flowMembers? fuel [] rest
    | .blockList :: rest => blockItems? fuel [] rest
    | .blockRecord :: rest => blockMembers? fuel [] rest
    | .dash :: _ => if loose then looseItems? fuel [] ts else none
    | _ => none

def nodeBefore? : Nat → Bool → List Token → List Token → Option (Document × List Token)
  | 0, _, _, _ => none
  | fuel + 1, loose, stops, ts =>
    if isNext stops ts then some (empty, ts) else node? fuel loose ts

/-- The name and the value of a member. Either is empty before one of these tokens, and a member
without a colon has an empty value. -/
def member? : Nat → Bool → List Token → List Token →
    Option ((Option String × Document) × List Token)
  | 0, _, _, _ => none
  | fuel + 1, loose, stops, ts =>
    match nodeBefore? fuel loose (.colon :: stops) ts with
    | some (key, .colon :: rest) =>
      (nodeBefore? fuel loose stops rest).map fun (d, rest) => ((memberName? key, d), rest)
    | some (key, rest) => some ((memberName? key, empty), rest)
    | none => none

def blockItems? : Nat → List Document → List Token → Option (Document × List Token)
  | 0, _, _ => none
  | fuel + 1, done, ts =>
    match ts with
    | .dash :: rest =>
      match nodeBefore? fuel false [.dash, .blockEnd] rest with
      | some (d, rest) => blockItems? fuel (d :: done) rest
      | none => none
    | .blockEnd :: rest => some (.list done.reverse, rest)
    | _ => none

def looseItems? : Nat → List Document → List Token → Option (Document × List Token)
  | 0, _, _ => none
  | fuel + 1, done, ts =>
    match ts with
    | .dash :: rest =>
      match nodeBefore? fuel false [.dash, .name, .blockEnd] rest with
      | some (d, rest) => looseItems? fuel (d :: done) rest
      | none => none
    | _ => some (.list done.reverse, ts)

def blockMembers? : Nat → List (Option String × Document) → List Token →
    Option (Document × List Token)
  | 0, _, _ => none
  | fuel + 1, done, ts =>
    match ts with
    | .name :: rest =>
      match member? fuel true [.name, .blockEnd] rest with
      | some (m, rest) => blockMembers? fuel (m :: done) rest
      | none => none
    | .blockEnd :: rest => some (.ofMembers done.reverse, rest)
    | _ => none

/-- An item of a flow list: a value, or the only member of a record. A name that is empty takes the
token after it. -/
def flowItem? : Nat → List Token → Option (Document × List Token)
  | 0, _ => none
  | fuel + 1, ts =>
    match ts with
    | .name :: rest =>
      let stops := [.comma, .closeList]
      let member :=
        if isNext (.colon :: stops) rest then member? fuel false stops (.word "" :: rest.tail)
        else member? fuel false stops rest
      member.map fun (m, rest) => (.ofMembers [m], rest)
    | _ => node? fuel false ts

def flowItems? : Nat → List Document → List Token → Option (Document × List Token)
  | 0, _, _ => none
  | fuel + 1, done, ts =>
    if isNext [.closeList] ts then some (.list done.reverse, ts.tail)
    else
      match flowItem? fuel ts with
      | some (d, .comma :: rest) => flowItems? fuel (d :: done) rest
      | some (d, .closeList :: rest) => some (.list (d :: done).reverse, rest)
      | _ => none

/-- A member of a flow record; without a colon its value is empty. -/
def flowMember? : Nat → List Token → Option ((Option String × Document) × List Token)
  | 0, _ => none
  | fuel + 1, ts =>
    match ts with
    | .name :: rest => member? fuel false [.comma, .closeRecord] rest
    | _ => (node? fuel false ts).map fun (key, rest) => ((memberName? key, empty), rest)

def flowMembers? : Nat → List (Option String × Document) → List Token →
    Option (Document × List Token)
  | 0, _, _ => none
  | fuel + 1, done, ts =>
    if isNext [.closeRecord] ts then some (.ofMembers done.reverse, ts.tail)
    else
      match flowMember? fuel ts with
      | some (m, .comma :: rest) => flowMembers? fuel (m :: done) rest
      | some (m, .closeRecord :: rest) => some (.ofMembers (m :: done).reverse, rest)
      | _ => none

end

/-- The value of one document; after it may come marks of its end only. Of four steps in a row one
takes a token, so the limit on the steps is never reached. -/
def document? (ts : List Token) : Option Document :=
  let content :=
    match ts with
    | .documentStart :: rest => rest
    | _ => ts
  let value :=
    if content.isEmpty || (content.length < ts.length && isNext [.documentEnd] content) then
      some (empty, content)
    else node? (4 * ts.length + 4) false content
  match value with
  | some (d, rest) => if rest.all (· = .documentEnd) then some d else none
  | none => none

def isPrintable (c : Char) : Bool :=
  let n := c.toNat
  n = 0x09 ∨ n = 0x0A ∨ n = 0x0D ∨ (0x20 ≤ n ∧ n ≤ 0x7E) ∨ n = 0x85
    ∨ (0xA0 ≤ n ∧ n ≠ 0xFFFE ∧ n ≠ 0xFFFF)

def parse? (s : String) : Option Document :=
  if s.toList.all isPrintable then (scan? {} (unifyBreaks s.toList)).bind document? else none

end ServiceChain.Document.Yaml
