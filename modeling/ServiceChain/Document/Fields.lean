import ServiceChain.Document.Value

/-! The fields of a type that a document stands for. A record gives them by their names, and a list
by their places. Every field is read on its own. Of several faults one counts: in a record the one
under the first name, in a list the one in the first place, and a missing field or an item too many
only after all others. -/
namespace ServiceChain.Document

/-- What the reading of some fields gives: their value, or the fault that counts, with its place. -/
inductive Reading (α : Type) where
  | value (a : α)
  | fault (place : Nat) (reason : DecodeError)
  deriving DecidableEq, Repr

namespace Reading

/-- Both are read; of two faults the one in the earlier place counts. -/
def apply {α β : Type} : Reading (α → β) → Reading α → Reading β
  | value f, value a => value (f a)
  | value _, fault q e => fault q e
  | fault p d, value _ => fault p d
  | fault p d, fault q e => if q < p then fault q e else fault p d

instance : Applicative Reading where
  pure := value
  seq f a := f.apply (a ())

def result {α : Type} : Reading α → Decoded α
  | value a => .ok a
  | fault _ reason => .error reason

@[simp] theorem map_value {α β : Type} (f : α → β) (a : α) : f <$> value a = value (f a) := rfl

@[simp] theorem value_seq_value {α β : Type} (f : α → β) (a : α) :
    value f <*> value a = value (f a) := rfl

end Reading

/-- The fields that are there, each with its place and its content, and the place of what is noticed
only after all of them. -/
structure Fields where
  present : List (String × Nat × Document)
  last : Nat

namespace Fields

def read {α : Type} (f : Fields) (name : String) (decode : Document → Decoded α)
    (absent : Reading α) : Reading α :=
  match f.present.lookup name with
  | some (place, d) =>
    match decode d with
    | .ok a => .value a
    | .error reason => .fault place reason
  | none => absent

/-- A field that must be there. -/
def required {α : Type} (f : Fields) (name : String) (decode : Document → Decoded α) : Reading α :=
  f.read name decode (.fault f.last .unfit)

def optional {α : Type} (f : Fields) (name : String) (decode : Document → Decoded α) :
    Reading (Option α) :=
  f.read name (nullable decode) (.value none)

def withDefault {α : Type} (f : Fields) (name : String) (decode : Document → Decoded α)
    (absent : α) : Reading α :=
  f.read name decode (.value absent)

def ofMembers (names : List String) (members : List (String × Document)) : Fields where
  present := members.map fun (name, d) => (name, (names.filter (· < name)).length, d)
  last := names.length

def ofItems (names : List String) (items : List Document) : Fields where
  present := names.zip (items.zipIdx.map fun (d, place) => (place, d))
  last := names.length

end Fields

/-- The value that a document gives the fields `names`. A record has none of them twice and may have
other members. Only JSON has lists for records. -/
def toFields {α : Type} (dialect : Dialect) (names : List String) (read : Fields → Reading α) :
    Document → Decoded α
  | record members =>
    if names.all fun name => (members.filter (·.1 = name)).length ≤ 1 then
      (read (.ofMembers names members)).result
    else .error .unfit
  | list items =>
    match dialect with
    | .yaml => .error .unfit
    | _ => do
      let a ← (read (.ofItems names items)).result
      if items.length ≤ names.length then return a else throw .unfit
  | word s => if s.isEmpty then (read (.ofItems names [])).result else .error .unfit
  | _ => .error .unfit

end ServiceChain.Document
