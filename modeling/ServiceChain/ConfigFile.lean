import ServiceChain.Document.Json
import ServiceChain.Document.Yaml
import ServiceChain.Form.Config

/-! Configuration files: JSON by the extension of their name, else YAML. -/
namespace ServiceChain

/-- Why a configuration cannot be loaded. -/
inductive LoadError where
  | unreadable
  | json
  | yaml
  | invalid (fault : ConfigFault)
  deriving DecidableEq, Repr

namespace LoadError

def kind : LoadError → String
  | unreadable => "io"
  | json => "json"
  | yaml => "yaml"
  | invalid _ => "invalid"

def message? : LoadError → Option String
  | invalid fault => some fault.message
  | _ => none

end LoadError

/-- The formats of a configuration text. -/
inductive TextFormat where
  | json
  | yaml
  deriving DecidableEq, Repr

namespace TextFormat

/-- What follows the last dot of a name that does not begin with that dot. -/
def extension? (name : String) : Option String :=
  match (Text.fields '.' name.toList).reverse with
  | last :: stem :: more =>
    if stem.isEmpty ∧ more.isEmpty then none else some (String.ofList last)
  | _ => none

def ofName (name : String) : TextFormat :=
  if extension? name = some "json" then json else yaml

def read? : TextFormat → String → Option Document
  | json, s => Document.Json.parse? s
  | yaml, s => Document.Yaml.parse? s

def dialect : TextFormat → Document.Dialect
  | json => .json
  | yaml => .yaml

def error : TextFormat → LoadError
  | json => .json
  | yaml => .yaml

end TextFormat

namespace Config

def checked (c : Config) : Except LoadError Config :=
  match c.validate with
  | .ok () => .ok c
  | .error fault => .error (.invalid fault)

def ofText (format : TextFormat) (s : String) : Except LoadError Config :=
  match (format.read? s).map (Config.ofDocument format.dialect) with
  | some (.ok c) => c.checked
  | _ => .error format.error

def ofFile (name : String) : Option String → Except LoadError Config
  | some s => ofText (TextFormat.ofName name) s
  | none => .error .unreadable

end Config
end ServiceChain
