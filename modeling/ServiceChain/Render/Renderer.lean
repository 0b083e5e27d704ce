import ServiceChain.Document.Value
import ServiceChain.Render.Audit
import ServiceChain.Render.Compilation
import ServiceChain.Render.Event

/-! The renderer: it renders paths into the flow sink, all or nothing, deletes them again, and
keeps account of both. Every call answers a result, the state after it, and a trace of what it
told the outside. -/
namespace ServiceChain

def saturate (n : Nat) : Nat := min n (UInt64.size - 1)

structure RenderStats where
  renders : Nat := 0
  renderFailures : Nat := 0
  deletes : Nat := 0
  flowsCommitted : Nat := 0
  forwardersInitialized : Nat := 0
  legsSkipped : Nat := 0
  deriving DecidableEq, Repr

structure RenderReport where
  pathId : PathId
  variant : Variant
  logical : Bool
  flowsCommitted : Nat
  /-- The switches that got their default flows, in ascending order. -/
  initialized : List SwitchId
  skipped : List SkippedLeg
  deriving DecidableEq, Repr

namespace RenderStats

def addRender (s : RenderStats) (report : RenderReport) : RenderStats :=
  { s with
    renders := saturate (s.renders + 1)
    flowsCommitted := saturate (s.flowsCommitted + report.flowsCommitted)
    forwardersInitialized := saturate (s.forwardersInitialized + report.initialized.length)
    legsSkipped := saturate (s.legsSkipped + report.skipped.length) }

def addFailure (s : RenderStats) : RenderStats :=
  { s with renderFailures := saturate (s.renderFailures + 1) }

def addDelete (s : RenderStats) : RenderStats := { s with deletes := saturate (s.deletes + 1) }

end RenderStats

structure Renderer (σ : Type := FlowSink) where
  sink : σ
  /-- The switches that have their default flows, in ascending order. -/
  initialized : List SwitchId := []
  pool : VlanPool
  stats : RenderStats := {}
  /-- The paths that are being rendered, in ascending order. -/
  inFlight : List PathId := []
  deriving DecidableEq, Repr

def Renderer.start {σ : Type} (d : Deployment) (sink : σ) : Renderer σ where
  sink := sink
  pool := ⟨d.config.vlanRange, []⟩

def Renderer.fresh (d : Deployment) : Renderer := .start d {}

/-- A batch that was offered to the sink, and the paths in flight at that moment. -/
structure CommitAttempt where
  batch : List Flow
  inFlight : List PathId
  deriving DecidableEq, Repr

/-- What a call told the outside, each in order. -/
structure RenderTrace where
  attempts : List CommitAttempt := []
  events : List PathEvent := []
  records : List AuditRecord := []

def RenderTrace.withRecord (t : RenderTrace) (record : AuditRecord) : RenderTrace :=
  { t with records := t.records ++ [record] }

/-- A call's result, the renderer after it, and its trace. -/
structure Outcome (α : Type) (σ : Type := FlowSink) where
  result : Except RenderError α
  renderer : Renderer σ
  trace : RenderTrace

namespace AuditRecord

def aboutPath (category : AuditCategory) (action : String) (path : PathId) : AuditRecord where
  category := category
  source := "RspRenderer"
  action := action
  objectId := some (toString path.toNat)
  objectType := some "rendered_service_path"

def rendered (path : ServicePath) (report : RenderReport) : AuditRecord :=
  ((aboutPath .pathRender "render_path" path.id).withOutcome .success).withDetails
    (.record [("name", .text path.name), ("variant", .text report.variant.name),
      ("flows", .natural report.flowsCommitted),
      ("initialized_nodes", .ofList .text report.initialized),
      ("skipped_legs", .natural report.skipped.length)])

def renderFailed (path : ServicePath) (e : RenderError) : AuditRecord :=
  ((aboutPath .pathRender "render_path" path.id).withDetails
    (.record [("kind", .text e.kind)])).withError e.message

def rolledBack (path : PathId) (e : RenderError) (purged : Nat) : AuditRecord :=
  ((aboutPath .rollback "purge_staged_flows" path).withDetails
    (.record [("purged", .natural purged)])).withError e.message

def initialized (switch : SwitchId) : AuditRecord where
  category := .forwarderInit
  source := "RspRenderer"
  action := "install_defaults"
  outcome := .success
  objectId := some switch
  objectType := some "switch"

def deleted (path : PathId) (switches : List SwitchId) : AuditRecord :=
  ((aboutPath .pathDelete "delete_path" path).withOutcome .success).withDetails
    (.record [("nodes", .ofList .text switches)])

def deleteFailed (path : PathId) (e : RenderError) : AuditRecord :=
  (aboutPath .pathDelete "delete_path" path).withError e.message

end AuditRecord

namespace Renderer

variable {σ : Type} [FlowDestination σ]

/-- Offer a compiled batch to the sink. Only when it is taken do the switches count as
initialized and is the consumer told. -/
def commit (r : Renderer σ) (path : ServicePath) (p : Plan) (c : Compilation) :
    Outcome RenderReport σ :=
  let attempts := ((c.batch.offer r.sink).asked.map fun batch => ⟨batch, r.inFlight⟩).toList
  match c.batch.flush r.sink with
  | .error fault =>
    let e := RenderError.flowSink fault
    { result := .error e
      renderer := r
      trace := { attempts := attempts, records := [.rolledBack path.id e 0] } }
  | .ok sink =>
    { result := .ok ⟨path.id, p.variant, p.graph.isLogical, c.batch.size, c.pending, c.skipped⟩
      renderer :=
        { r with sink := sink, initialized := Ordered.insertAll c.pending r.initialized }
      trace :=
        { attempts := attempts
          events := [.ofGraph path p.graph]
          records := c.pending.map .initialized } }

def attempt (d : Deployment) (r : Renderer σ) (path : ServicePath) : Outcome RenderReport σ :=
  let (plan, pool) := Plan.make d r.pool path
  let r := { r with pool := pool }
  match plan with
  | .error e => { result := .error e, renderer := r, trace := {} }
  | .ok p =>
    match Compilation.make d p r.initialized with
    | .error (e, purged) =>
      { result := .error e, renderer := r, trace := { records := [.rolledBack path.id e purged] } }
    | .ok c => r.commit path p c

/-- Settle an attempt: leases are kept or given back, the call is counted and put on record. -/
def settle (path : ServicePath) (o : Outcome RenderReport σ) : Outcome RenderReport σ :=
  match o.result with
  | .ok report =>
    { o with
      renderer :=
        { o.renderer with
          pool := o.renderer.pool.commit path.id
          stats := o.renderer.stats.addRender report }
      trace := o.trace.withRecord (.rendered path report) }
  | .error e =>
    { o with
      renderer :=
        { o.renderer with
          pool := o.renderer.pool.abandon path.id
          stats := o.renderer.stats.addFailure }
      trace := o.trace.withRecord (.renderFailed path e) }

def markInFlight (r : Renderer σ) (path : PathId) : Renderer σ :=
  { r with inFlight := Ordered.insert path r.inFlight }

def clearInFlight (r : Renderer σ) (path : PathId) : Renderer σ :=
  { r with inFlight := Ordered.without r.inFlight [path] }

/-- Install every flow that a path needs, or none. -/
def render (d : Deployment) (r : Renderer σ) (path : ServicePath) : Outcome RenderReport σ :=
  let o := settle path (attempt d (r.markInFlight path.id) path)
  { o with renderer := o.renderer.clearInFlight path.id }

/-- Remove every flow of a path. The switches that lose one get their default flows again when
they are next rendered to. -/
def delete (r : Renderer σ) (path : ServicePath) : Outcome (List SwitchId) σ :=
  match FlowDestination.deletePath r.sink path.id with
  | .error fault =>
    let e := RenderError.flowSink fault
    { result := .error e, renderer := r, trace := { records := [.deleteFailed path.id e] } }
  | .ok (switches, sink) =>
    { result := .ok switches
      renderer :=
        { r with
          sink := sink
          initialized := Ordered.without r.initialized switches
          stats := r.stats.addDelete
          pool := r.pool.release path.id }
      trace :=
        { events := [.ofRemoval path], records := [.deleted path.id switches] } }

end Renderer
end ServiceChain
