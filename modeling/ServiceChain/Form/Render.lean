import ServiceChain.Form.Flow
import ServiceChain.Form.Topology
import ServiceChain.Render.Renderer

/-! The document forms of what rendering answers: graphs, reports, events, audit records. -/
namespace ServiceChain

open Document (Decoded Dialect)

namespace Endpoint

def toDocument : Endpoint → Document
  | ingress => .text "ingress"
  | egress => .text "egress"
  | forwarder name => .record [("forwarder", .text name)]

def ofDocument (dialect : Dialect) (d : Document) : Decoded Endpoint := do
  let (name, content) ← d.toTagged dialect
  match name with
  | "ingress" => do
    Document.toNothing dialect content
    return ingress
  | "egress" => do
    Document.toNothing dialect content
    return egress
  | "forwarder" => return forwarder (← Document.toContent (·.toText) content)
  | _ => .error .unfit

end Endpoint

def HopEntry.toDocument (e : HopEntry) : Document :=
  .record [("src", e.src.toDocument), ("dst", e.dst.toDocument),
    ("sf", .ofOption .text e.serviceFunction), ("sf_group", .ofOption .text e.group),
    ("prev_sf", .ofOption .text e.previousFunction), ("path_id", .ofUInt32 e.pathId),
    ("is_forward_path", .flag (e.direction = .forward)), ("service_index", .ofUInt8 e.index),
    ("src_placement", .ofOption Placement.toDocument e.srcPlacement),
    ("dst_placement", .ofOption Placement.toDocument e.dstPlacement),
    ("src_egress_locator", .ofOption .text e.srcEgressLocator),
    ("dst_ingress_locator", .ofOption .text e.dstIngressLocator),
    ("hop_ingress", .ofOption BoundLocator.toDocument e.hopIngress),
    ("path_egress", .ofOption BoundLocator.toDocument e.pathEgress)]

def HopGraph.toDocument (g : HopGraph) : Document :=
  .record [("path_id", .ofUInt32 g.pathId), ("entries", .ofList HopEntry.toDocument g.entries)]

def Variant.toDocument (v : Variant) : Document := .text v.name

def SkipCause.toDocument : SkipCause → Document
  | notRequired => .text "not-required"
  | missing part => .record [("missing-locator", .text part.text)]
  | unsupported what => .record [("unsupported", .text what.text)]

def SkippedLeg.toDocument (s : SkippedLeg) : Document :=
  .record [("entry", .natural s.entry), ("leg", .text s.leg), ("reason", s.reason.toDocument)]

def RenderReport.toDocument (r : RenderReport) : Document :=
  .record [("path_id", .ofUInt32 r.pathId), ("variant", r.variant.toDocument),
    ("logical_mode", .flag r.logical), ("flows_committed", .natural r.flowsCommitted),
    ("initialized_nodes", .ofList .text r.initialized),
    ("skipped", .ofList SkippedLeg.toDocument r.skipped)]

def RenderStats.toDocument (s : RenderStats) : Document :=
  .record [("renders", .natural s.renders), ("render_failures", .natural s.renderFailures),
    ("deletes", .natural s.deletes), ("flows_committed", .natural s.flowsCommitted),
    ("forwarders_initialized", .natural s.forwardersInitialized),
    ("legs_skipped", .natural s.legsSkipped)]

def HopSummary.toDocument (h : HopSummary) : Document :=
  .record <|
    [("forwarder", .text h.forwarder), ("service_function", .text h.serviceFunction),
      ("service_index", .ofUInt8 h.index)]
      ++ Document.present "placement" Placement.toDocument h.placement

def PathEvent.toDocument : PathEvent → Document
  | rendered path name hops =>
    .record [("event", .text "rendered"), ("path_id", .ofUInt32 path), ("name", .text name),
      ("hops", .ofList HopSummary.toDocument hops)]
  | removed path name =>
    .record [("event", .text "removed"), ("path_id", .ofUInt32 path), ("name", .text name)]

namespace AuditRecord

def toDocument (r : AuditRecord) : Document :=
  .record <|
    [("category", .text r.category.name), ("source", .text r.source), ("action", .text r.action),
      ("outcome", .text r.outcome.name)]
      ++ Document.present "object_id" .text r.objectId
      ++ Document.present "object_type" .text r.objectType
      ++ Document.present "details" id r.details
      ++ Document.present "error" .text r.error

def logged (r : AuditRecord) : Document :=
  .record [("level", .text r.outcome.level), ("message", .text r.message),
    ("record", r.toDocument)]

end AuditRecord
end ServiceChain
