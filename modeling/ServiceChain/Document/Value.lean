import ServiceChain.Address.Refusal
import ServiceChain.Document.Word

/-! Documents: the values that a JSON or YAML text denotes, and the reading of their parts.
A record keeps its members in the order they were written. -/
namespace ServiceChain

inductive Document where
  /-- A scalar without quotation marks, whose sense depends on its place; only YAML has it. It is
  empty where a place is left empty. -/
  | word (s : String)
  | null
  | flag (b : Bool)
  /-- A number written as decimal digits alone. -/
  | natural (n : Nat)
  /-- Any other number, kept as it was written. -/
  | number (literal : String)
  | text (s : String)
  /-- A text or a record that can be passed over but not read: some text in it has half of a pair
  of escapes, or some name of it is no text. -/
  | garbled
  | list (items : List Document)
  | record (members : List (String × Document))
  deriving Repr

namespace Document

/-- How a document is read. In YAML an enumerated value has no form with a key, and a list does not
stand for a record. -/
inductive Dialect where
  | json
  /-- JSON in which an empty record, like null, is the content of a value that has none. -/
  | lenientJson
  | yaml
  deriving DecidableEq, Repr

/-- Why a document does not decode. -/
inductive DecodeError where
  /-- The value has not the form that is wanted in its place. -/
  | unfit
  /-- The value has the form, but the checked type refuses it. -/
  | refused (reason : Refusal)
  deriving DecidableEq, Repr

def DecodeError.message? : DecodeError → Option String
  | unfit => none
  | refused reason => some reason.message

abbrev Decoded (α : Type) := Except DecodeError α

def bounded (bound n : Nat) : Decoded Nat := if n < bound then .ok n else .error .unfit

def toBounded (bound : Nat) : Document → Decoded Nat
  | natural n => bounded bound n
  | word s =>
    match Word.natural? s with
    | some n => bounded bound n
    | none => .error .unfit
  | _ => .error .unfit

def toUInt8 (d : Document) : Decoded UInt8 := (d.toBounded UInt8.size).map UInt8.ofNat

def toUInt16 (d : Document) : Decoded UInt16 := (d.toBounded UInt16.size).map UInt16.ofNat

def toUInt32 (d : Document) : Decoded UInt32 := (d.toBounded UInt32.size).map UInt32.ofNat

def toUInt64 (d : Document) : Decoded UInt64 := (d.toBounded UInt64.size).map UInt64.ofNat

def toBool : Document → Decoded Bool
  | flag b => .ok b
  | word s =>
    match Word.flag? s with
    | some b => .ok b
    | none => .error .unfit
  | _ => .error .unfit

/-- A text; any word may stand for one. -/
def toText : Document → Decoded String
  | text s => .ok s
  | word s => .ok s
  | _ => .error .unfit

/-- A text; a word stands for one only if it has no other sense. -/
def toPlainText : Document → Decoded String
  | text s => .ok s
  | word s => if Word.isText s then .ok s else .error .unfit
  | _ => .error .unfit

def isNull : Document → Bool
  | null => true
  | word s => Word.isNull s
  | _ => false

def nullable {α : Type} (decode : Document → Decoded α) (d : Document) : Decoded (Option α) :=
  if d.isNull then .ok none else (decode d).map some

/-- The items of a list; an empty place is an empty list. -/
def toItems : Document → Decoded (List Document)
  | list items => .ok items
  | word s => if s.isEmpty then .ok [] else .error .unfit
  | _ => .error .unfit

/-- The items decoded in order; the first failure counts. -/
def toList {α : Type} (decode : Document → Decoded α) (d : Document) : Decoded (List α) := do
  (← d.toItems).mapM decode

/-- The members of a record; an empty place is an empty record. -/
def toMembers : Document → Decoded (List (String × Document))
  | record members => .ok members
  | word s => if s.isEmpty then .ok [] else .error .unfit
  | _ => .error .unfit

def ofMembers (members : List (Option String × Document)) : Document :=
  match members.mapM fun (name, d) => name.map fun name => (name, d) with
  | some members => record members
  | none => garbled

/-- A value that must be there. -/
def require {α : Type} : Option α → Decoded α
  | some a => .ok a
  | none => .error .unfit

/-- The name of an enumerated value and its content: a text is a name alone, and in JSON a record
of one member is a name with content. -/
def toTagged (dialect : Dialect) : Document → Decoded (String × Option Document)
  | text s => .ok (s, none)
  | word s => .ok (s, none)
  | record [(name, content)] =>
    match dialect with
    | .yaml => .error .unfit
    | _ => .ok (name, some content)
  | _ => .error .unfit

/-- Content of a value that has none: absent or null. -/
def toNothing (dialect : Dialect) : Option Document → Decoded Unit
  | none => .ok ()
  | some null => .ok ()
  | some (record []) => if dialect = .lenientJson then .ok () else .error .unfit
  | some _ => .error .unfit

def toContent {α : Type} (decode : Document → Decoded α) : Option Document → Decoded α
  | some d => decode d
  | none => .error .unfit

/-- An enumerated value without content, found by its name in a table. -/
def toNamed {α : Type} (dialect : Dialect) (table : List (String × α)) (d : Document) :
    Decoded α := do
  let (name, content) ← d.toTagged dialect
  match table.lookup name with
  | some a => do
    toNothing dialect content
    return a
  | none => .error .unfit

/-- An optional value; null stands for none. -/
def ofOption {α : Type} (encode : α → Document) : Option α → Document
  | some a => encode a
  | none => null

def ofList {α : Type} (encode : α → Document) (as : List α) : Document := list (as.map encode)

theorem toList_ofList {α : Type} {encode : α → Document} {decode : Document → Decoded α}
    (h : ∀ a, decode (encode a) = .ok a) (as : List α) :
    (ofList encode as).toList decode = .ok as := by
  simp only [ofList, toList, toItems]
  change (as.map encode).mapM decode = .ok as
  induction as with
  | nil => rfl
  | cons a rest ih => simp only [List.map_cons, List.mapM_cons, h, ih]; rfl

def present {α : Type} (name : String) (encode : α → Document) :
    Option α → List (String × Document)
  | some a => [(name, encode a)]
  | none => []

end Document
end ServiceChain
