import ServiceChain.Document.Value

/-! Audit records: who did what, to what, and how it ended. -/
namespace ServiceChain

inductive AuditCategory where
  | pathRender
  | pathDelete
  | forwarderInit
  | rollback
  | configurationChange
  deriving DecidableEq, Repr

namespace AuditCategory

def name : AuditCategory → String
  | pathRender => "PATH_RENDER"
  | pathDelete => "PATH_DELETE"
  | forwarderInit => "FORWARDER_INIT"
  | rollback => "ROLLBACK"
  | configurationChange => "CONFIGURATION_CHANGE"

def table : List (String × AuditCategory) :=
  [pathRender, pathDelete, forwarderInit, rollback, configurationChange].map fun c => (c.name, c)

end AuditCategory

inductive AuditOutcome where
  | success
  | failure
  | inProgress
  deriving DecidableEq, Repr

namespace AuditOutcome

def name : AuditOutcome → String
  | success => "success"
  | failure => "failure"
  | inProgress => "inprogress"

def text : AuditOutcome → String
  | success => "success"
  | failure => "failure"
  | inProgress => "in_progress"

def table : List (String × AuditOutcome) :=
  [success, failure, inProgress].map fun o => (o.name, o)

def level : AuditOutcome → String
  | success => "info"
  | failure => "warn"
  | inProgress => "debug"

end AuditOutcome

structure AuditRecord where
  category : AuditCategory
  source : String
  action : String
  outcome : AuditOutcome := .inProgress
  objectId : Option String := none
  objectType : Option String := none
  details : Option Document := none
  error : Option String := none

namespace AuditRecord

def withOutcome (r : AuditRecord) (outcome : AuditOutcome) : AuditRecord :=
  { r with outcome := outcome }

def withObjectId (r : AuditRecord) (id : String) : AuditRecord := { r with objectId := some id }

def withObjectType (r : AuditRecord) (type : String) : AuditRecord :=
  { r with objectType := some type }

def withDetails (r : AuditRecord) (details : Document) : AuditRecord :=
  { r with details := some details }

def withError (r : AuditRecord) (error : String) : AuditRecord :=
  { r with error := some error, outcome := .failure }

def message (r : AuditRecord) : String :=
  "AUDIT: " ++ r.category.name ++ " - " ++ r.action ++ " - " ++ r.outcome.text

end AuditRecord
end ServiceChain
