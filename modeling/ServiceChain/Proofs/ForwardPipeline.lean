import Mathlib.Logic.Relation
import ServiceChain.Proofs.KeyAgreement

/-! The pipeline runs one way. Whatever is staged sends packets on to a later stage, or out of the
switch, or to another application; so in a numbering that follows the stages no packet comes back to
a table it has been to. -/
namespace ServiceChain

namespace TableRef

def pipeline : List TableRef :=
  [classifier, transportIngress, pathMapper, pathMapperAcl, nextHop, transportEgress]

/-- Both are stages, and `next` comes later. -/
def Before (t next : TableRef) : Prop := List.Sublist [t, next] pipeline

instance (t next : TableRef) : Decidable (t.Before next) :=
  inferInstanceAs (Decidable (List.Sublist [t, next] pipeline))

theorem Before.mem_pipeline {t next : TableRef} (h : t.Before next) : next ∈ pipeline :=
  h.subset (by simp)

end TableRef

namespace TableNumbers

variable {tables : TableNumbers}

theorem resolve_mem {t : TableRef} (h : t ∈ TableRef.pipeline) : tables.resolve t ∈ tables.toList :=
  List.mem_map_of_mem (f := tables.resolve) h

theorem resolve_lt (hascending : tables.toList.Pairwise (· < ·)) {t next : TableRef}
    (h : t.Before next) : tables.resolve t < tables.resolve next := by
  have hpair : ([t, next].map tables.resolve).Pairwise (· < ·) :=
    hascending.sublist (h.map tables.resolve)
  simpa using hpair

theorem toNat_shift {offset : UInt8} {n : Nat} (h : offset.toNat + n ≤ 255) :
    (shift offset n).toNat = offset.toNat + n := by
  rw [shift, Nat.min_eq_right h, UInt8.toNat_ofNat_of_lt' (by simpa [UInt8.size] using by omega)]

end TableNumbers

namespace Config

variable {c : Config}

theorem offset_of_validate (h : c.validate = .ok ()) : c.tableOffset.toNat + 10 ≤ 255 := by
  by_contra hhigh
  have hthrow : c.tableOffset.toNat + 10 > 255 := by omega
  simp only [validate, hthrow, if_true] at h
  split at h
  · cases h
  · obtain ⟨-, -, h⟩ := bind_eq_ok.mp h
    obtain ⟨-, -, h⟩ := bind_eq_ok.mp h
    cases h

theorem standardTables_toNat (h : c.validate = .ok ()) :
    c.standardTables.toList.map UInt8.toNat =
      [0, 1, 2, 3, 4, 10].map (c.tableOffset.toNat + ·) := by
  have hroom := offset_of_validate h
  have hshift (n : Nat) (hn : n ≤ 10) :
      (TableNumbers.shift c.tableOffset n).toNat = c.tableOffset.toNat + n :=
    TableNumbers.toNat_shift (by omega)
  simp [standardTables, TableNumbers.standard, TableNumbers.toList, hshift]

theorem standardTables_ascending (h : c.validate = .ok ()) :
    c.standardTables.toList.Pairwise (· < ·) := by
  have hnumbers : (c.standardTables.toList.map UInt8.toNat).Pairwise (· < ·) := by
    rw [standardTables_toNat h]
    simp
  simpa [List.pairwise_map, UInt8.lt_iff_toNat_lt] using hnumbers

end Config

/-- The template belongs to a stage and sends packets on to later stages only. -/
structure FlowTemplate.Forward (template : FlowTemplate) : Prop where
  stage : template.table ∈ TableRef.pipeline
  later : ∀ next, .goto next ∈ template.actions → template.table.Before next

def LegOutcome.Forward (o : LegOutcome) : Prop := ∀ template ∈ o.templates, template.Forward

namespace LegOutcome

@[simp] theorem forward_one {template : FlowTemplate} :
    (one template).Forward ↔ template.Forward := by
  simp [Forward, one, templates]

@[simp] theorem forward_skipped (reason : SkipCause) : (skipped reason).Forward := by
  simp [Forward, templates]

@[simp] theorem forward_notRequired : notRequired.Forward := forward_skipped _

@[simp] theorem forward_missing (part : MissingPart) : (missing part).Forward := forward_skipped _

end LegOutcome

namespace FlowTemplate

variable {role : FlowRole} {m : FlowMatch}

@[simp] theorem forward_ingress {next : TableRef} :
    (ingress role m next).Forward ↔ TableRef.transportIngress.Before next := by
  refine ⟨fun h => h.later next (by simp [ingress]), fun h => ⟨?_, ?_⟩⟩
  · simp [ingress, TableRef.pipeline]
  · simpa [ingress] using h

@[simp] theorem forward_mapper {path : PathId} {pop : FlowAction}
    (hpop : ∀ next, pop ≠ .goto next) : (mapper role path m pop).Forward where
  stage := by simp [mapper, TableRef.pipeline]
  later := by
    intro next hnext
    obtain rfl : next = .nextHop := by simpa [mapper, (hpop next).symm] using hnext
    exact (by decide : TableRef.pathMapper.Before .nextHop)

@[simp] theorem forward_nextHop {actions : List FlowAction} (h : ∀ next, .goto next ∉ actions) :
    (nextHop m actions).Forward where
  stage := by simp [nextHop, TableRef.pipeline]
  later := by
    intro next hnext
    obtain rfl : next = .transportEgress := by simpa [nextHop, h next] using hnext
    exact (by decide : TableRef.nextHop.Before .transportEgress)

@[simp] theorem forward_egress {priority : UInt16} {actions : List FlowAction}
    (h : ∀ next, .goto next ∉ actions) : (egress role priority m actions).Forward where
  stage := by simp [egress, TableRef.pipeline]
  later := fun next hnext => absurd hnext (h next)

end FlowTemplate

@[simp] theorem FlowAction.outputTo_ne_goto (port : Option UInt32) (t : TableRef) :
    .goto t ≠ outputTo port := by
  cases port <;> simp [outputTo]

@[simp] theorem FlowAction.leaveTo_ne_goto (port : Option UInt32) (table : UInt8) (t : TableRef) :
    .goto t ≠ leaveTo port table := by
  cases port <;> simp [leaveTo]

namespace NshEthernet

theorem forward_deliver (ctx : LegContext) (e : HopEntry) (srcMac : Option MacAddress)
    (dst : Attachment) : (deliver ctx e srcMac dst).Forward := by
  unfold deliver
  split <;> simp

theorem forward_emit (ctx : LegContext) (e : HopEntry) (leg : Leg) : (emit ctx e leg).Forward := by
  cases leg with
  | forwarderIngress | functionToGateway | functionEgress | terminalEgress => simp +decide [emit]
  | functionIngress | functionToForwarder =>
    simp only [emit]
    split <;> simp +decide
  | forwarderMapper | functionMapper | forwarderEgress => simp [emit]
  | gatewayToFunction | forwarderToFunction | functionToFunction => exact forward_deliver ctx e _ _

end NshEthernet

namespace NshTunnel

theorem forward_deliver (ctx : LegContext) (e : HopEntry) (srcMac : Option MacAddress)
    (dst : Attachment) : (deliver ctx e srcMac dst).Forward := by
  unfold deliver
  split
  · exact NshEthernet.forward_deliver ctx e srcMac dst
  · split <;> simp [throughTunnel]

theorem forward_emit (ctx : LegContext) (e : HopEntry) (leg : Leg) : (emit ctx e leg).Forward := by
  cases leg with
  | forwarderIngress => simp +decide [emit]
  | functionIngress dst =>
    simp only [emit]
    split
    · exact NshEthernet.forward_emit ctx e _
    · split <;> simp +decide
  | forwarderMapper | functionMapper => simp [emit]
  | gatewayToFunction | forwarderToFunction | functionToFunction => exact forward_deliver ctx e _ _
  | functionToGateway src =>
    simp only [emit]
    split
    · exact NshEthernet.forward_emit ctx e _
    · simp
  | functionToForwarder src dstIngress =>
    simp only [emit]
    split
    · simp
    · split <;> simp [throughTunnel]
  | functionEgress dst =>
    simp only [emit]
    split
    · exact NshEthernet.forward_emit ctx e _
    · split <;> simp
  | forwarderEgress srcEgress dstIngress hopIngress =>
    simp only [emit]
    split <;> simp
  | terminalEgress src pathEgress => simp [emit, LegOutcome.Forward, LegOutcome.templates, terminal]

end NshTunnel

namespace LogicalForwarder

theorem forward_sendOut (ctx : LegContext) (e : HopEntry) (role : FlowRole)
    (interface : Option String) (part : MissingPart) :
    (sendOut ctx e role interface part).Forward := by
  unfold sendOut
  split <;> simp

theorem forward_emit (ctx : LegContext) (e : HopEntry) (leg : Leg) : (emit ctx e leg).Forward := by
  cases leg with
  | functionEgress | forwarderEgress => exact forward_sendOut ctx e _ _ _
  | forwarderIngress | terminalEgress => simp +decide [emit]
  | gatewayToFunction | forwarderToFunction | functionToFunction => simp [emit, deliver]
  | functionIngress | forwarderMapper | functionMapper | functionToGateway | functionToForwarder =>
    simp [emit]

end LogicalForwarder

namespace MacChaining

theorem forward_deliver (ctx : LegContext) (e : HopEntry) (m : FlowMatch) (dst : Attachment) :
    (deliver ctx e m dst).Forward := by
  unfold deliver
  split <;> simp

theorem forward_sendOut (role : FlowRole) (m : FlowMatch) (port : Option UInt32)
    (part : MissingPart) : (sendOut role m port part).Forward := by
  unfold sendOut
  split <;> simp

theorem forward_functionToForwarder (ctx : LegContext) (e : HopEntry) (src : Attachment) :
    (functionToForwarder ctx e src).Forward := by
  unfold functionToForwarder
  split
  · split <;> simp
  · simp

theorem forward_emit (ctx : LegContext) (e : HopEntry) (leg : Leg) : (emit ctx e leg).Forward := by
  cases leg with
  | forwarderIngress => simp +decide [emit]
  | functionIngress dst =>
    simp only [emit, functionIngress]
    split
    · split <;> simp +decide
    · simp +decide
  | forwarderMapper | functionMapper => simp [emit]
  | gatewayToFunction | forwarderToFunction => exact forward_deliver ctx e _ _
  | functionToGateway | functionToForwarder => exact forward_functionToForwarder ctx e _
  | functionToFunction src dst =>
    simp only [emit, functionToFunction]
    split
    · split
      · exact forward_deliver ctx e _ dst
      · simp
    · simp
  | functionEgress | forwarderEgress | terminalEgress => exact forward_sendOut _ _ _ _

end MacChaining

namespace Mpls

theorem forward_nextHop (ctx : LegContext) (src dst : Option MacAddress) :
    (nextHop ctx src dst).Forward where
  stage := by simp [nextHop, TableRef.pipeline]
  later := by
    intro next hnext
    obtain rfl : next = .transportEgress := by simpa [nextHop] using hnext
    exact (by decide : TableRef.nextHop.Before .transportEgress)

theorem forward_forwarderEgress (ctx : LegContext) (srcEgress dstIngress : Option BoundLocator)
    {push : FlowAction} (hpush : ∀ next, push ≠ .goto next) :
    (forwarderEgress ctx srcEgress dstIngress push).Forward := by
  refine FlowTemplate.forward_egress fun next => ?_
  generalize srcEgress.bind (·.mac?) = mac
  cases mac <;> simp [(hpush next).symm]

theorem forward_emit (ctx : LegContext) (leg : Leg) : (emit ctx leg).Forward := by
  cases leg with
  | forwarderIngress => simp +decide [emit]
  | functionIngress | forwarderMapper | functionMapper =>
    simp only [emit]
    split <;> simp +decide
  | gatewayToFunction | forwarderToFunction | functionToGateway | functionToFunction
  | functionToForwarder => simp [emit, forward_nextHop]
  | functionEgress => simp [emit]
  | forwarderEgress =>
    simp only [emit]
    split <;> simp [forward_forwarderEgress]
  | terminalEgress =>
    simp only [emit, terminal]
    split <;> simp

end Mpls

namespace Vlan

theorem forward_emit (ctx : LegContext) (e : HopEntry) (leg : Leg) : (emit ctx e leg).Forward := by
  cases leg with
  | forwarderIngress | forwarderMapper =>
    simp only [emit]
    split <;> simp +decide
  | forwarderEgress =>
    simp only [emit]
    split <;> simp [Mpls.forward_forwarderEgress]
  | functionIngress | functionMapper | gatewayToFunction | forwarderToFunction
  | functionToGateway | functionToFunction | functionToForwarder | functionEgress
  | terminalEgress =>
    simp only [emit]
    exact Mpls.forward_emit ctx _

end Vlan

theorem Variant.forward_emit (v : Variant) (ctx : LegContext) (e : HopEntry) (leg : Leg) :
    (v.emit ctx e leg).Forward := by
  cases v with
  | nshTunnel => exact NshTunnel.forward_emit ctx e leg
  | nshEthernet => exact NshEthernet.forward_emit ctx e leg
  | mpls => exact Mpls.forward_emit ctx leg
  | vlan => exact Vlan.forward_emit ctx e leg
  | macChaining => exact MacChaining.forward_emit ctx e leg
  | logicalForwarder => exact LogicalForwarder.forward_emit ctx e leg

/-- Default flows send packets forward too, but for that of the egress table, which may send them on
to another application. -/
theorem forward_of_mem_defaultFlows {c : Config} {port : Option UInt32} {template : FlowTemplate}
    (h : template ∈ defaultFlows c port) :
    template.Forward ∨ template = .matchAny .transportEgress c.egressMiss := by
  have hmatchAny {t : TableRef} {action : FlowAction} (ht : t ∈ TableRef.pipeline)
      (hlater : ∀ next, action = .goto next → t.Before next) :
      (FlowTemplate.matchAny t action).Forward :=
    ⟨ht, fun next hnext => hlater next (List.mem_singleton.mp hnext).symm⟩
  have hbypass {port : Port} {action : FlowAction}
      (hlater : ∀ next, action = .goto next → TableRef.classifier.Before next) :
      (FlowTemplate.bypass port action).Forward :=
    ⟨by simp [FlowTemplate.bypass, TableRef.pipeline],
      fun next hnext => hlater next (List.mem_singleton.mp hnext).symm⟩
  rcases List.mem_append.mp h with h | h
  · simp only [List.mem_cons, List.not_mem_nil, or_false] at h
    rcases h with rfl | rfl | rfl | rfl | rfl
    · exact Or.inl (hmatchAny (by decide) (by simp))
    · exact Or.inl (hmatchAny (by decide) (by simp +decide))
    · exact Or.inl (hmatchAny (by decide) (by simp +decide))
    · exact Or.inl (hmatchAny (by decide) (by simp +decide))
    · exact Or.inr rfl
  · cases port with
    | none => cases h
    | some port =>
      simp only [acceleratedFlows, List.mem_cons, List.not_mem_nil, or_false] at h
      rcases h with rfl | rfl
      · exact Or.inl (hbypass (by simp +decide))
      · exact Or.inl (hbypass (by simp))

/-- What is described for a switch, and for whom: default flows where a hop leads, and what the
transport makes of a leg. -/
inductive Plan.Describes (p : Plan) (d : Deployment) (path : ServicePath) :
    FlowOwner → SwitchId → FlowTemplate → Prop
  | default {hop : Hop} {switch : SwitchId} {template : FlowTemplate} (hhop : hop ∈ path.hops)
      (hswitch : d.switchOf? hop = some switch)
      (htemplate : template ∈ defaultFlows d.config (d.acceleratedPort? hop)) :
      Describes p d path .unowned switch template
  | leg {i : Nat} {l : LocatedEntry} {switch : SwitchId} {leg : Leg} {template : FlowTemplate}
      (hl : p.Locates d i l) (hleg : (switch, leg) ∈ l.legs p.graph)
      (htemplate : template ∈
        (p.variant.emit (d.legContext path.id) l.entry leg).templates) :
      Describes p d path (.path path.id) switch template

/-- A target by its number; any other action stays as it is. -/
inductive FlowAction.NumberedAs (tables : TableNumbers) : FlowAction → FlowAction → Prop
  | goto (t : TableRef) : NumberedAs tables (.goto t) (.goto (.raw (tables.resolve t)))
  | resubmit (t : TableRef) : NumberedAs tables (.resubmit t) (.resubmit (.raw (tables.resolve t)))
  | other {action : FlowAction} (hgoto : ∀ t, action ≠ .goto t)
      (hresubmit : ∀ t, action ≠ .resubmit t) : NumberedAs tables action action

theorem FlowAction.numberedAs_numbered (tables : TableNumbers) (action : FlowAction) :
    NumberedAs tables action (action.numbered tables) := by
  cases action with
  | goto t => exact .goto t
  | resubmit t => exact .resubmit t
  | _ => exact .other (by simp) (by simp)

/-- The flow is the template as the numbering has it. -/
structure Flow.Realizes (flow : Flow) (tables : TableNumbers) (template : FlowTemplate) : Prop where
  tableId : flow.tableId = tables.resolve template.table
  priority : flow.priority = template.priority
  flowMatch : flow.flowMatch = template.flowMatch
  role : flow.role = template.role
  actions : List.Forall₂ (FlowAction.NumberedAs tables) template.actions flow.actions

theorem FlowTemplate.realizes_on (template : FlowTemplate) (tables : TableNumbers)
    (owner : FlowOwner) (switch : SwitchId) :
    (template.on tables owner switch).Realizes tables template where
  tableId := rfl
  priority := rfl
  flowMatch := rfl
  role := rfl
  actions := List.forall₂_map_right_iff.mpr
    (List.forall₂_same.mpr fun action _ => action.numberedAs_numbered tables)

/-- The default flow of the egress table may send packets on to another application, whatever number
that has. -/
structure Flow.Releases (flow : Flow) (c : Config) (tables : TableNumbers) (id : UInt8) : Prop where
  owner : flow.owner = .unowned
  role : flow.role = .matchAny
  tableId : flow.tableId = tables.transportEgress
  target : c.appEgressTable = some id

namespace Flow.Realizes

variable {flow : Flow} {tables : TableNumbers} {template : FlowTemplate}

theorem exists_described (h : flow.Realizes tables template) {action : FlowAction}
    (haction : action ∈ flow.actions) :
    ∃ described ∈ template.actions, described.NumberedAs tables action := by
  have hactions := h.actions
  generalize flow.actions = actions, template.actions = described at hactions haction ⊢
  induction hactions with
  | nil => cases haction
  | cons hfirst _ ih =>
    rcases List.mem_cons.mp haction with rfl | haction
    · exact ⟨_, List.mem_cons_self, hfirst⟩
    · obtain ⟨found, hfound, hnumbered⟩ := ih haction
      exact ⟨found, List.mem_cons_of_mem _ hfound, hnumbered⟩

theorem numeric (h : flow.Realizes tables template) {target : TableRef}
    (htarget : .goto target ∈ flow.actions ∨ .resubmit target ∈ flow.actions) :
    ∃ id, target = .raw id := by
  rcases htarget with hgoto | hresubmit
  · obtain ⟨described, -, hnumbered⟩ := h.exists_described hgoto
    cases hnumbered with
    | goto t => exact ⟨_, rfl⟩
    | other hgoto _ => exact absurd rfl (hgoto target)
  · obtain ⟨described, -, hnumbered⟩ := h.exists_described hresubmit
    cases hnumbered with
    | resubmit t => exact ⟨_, rfl⟩
    | other _ hresubmit => exact absurd rfl (hresubmit target)

theorem exists_target (h : flow.Realizes tables template) {id : UInt8}
    (hid : .goto (.raw id) ∈ flow.actions) :
    ∃ t, .goto t ∈ template.actions ∧ tables.resolve t = id := by
  obtain ⟨described, hdescribed, hnumbered⟩ := h.exists_described hid
  cases hnumbered with
  | goto t => exact ⟨t, hdescribed, rfl⟩
  | other hgoto _ => exact absurd rfl (hgoto (.raw id))

theorem forward (h : flow.Realizes tables template) (hforward : template.Forward)
    (hascending : tables.toList.Pairwise (· < ·)) {id : UInt8}
    (hid : .goto (.raw id) ∈ flow.actions) : id ∈ tables.toList ∧ flow.tableId < id := by
  obtain ⟨t, ht, rfl⟩ := h.exists_target hid
  have hbefore := hforward.later t ht
  exact ⟨TableNumbers.resolve_mem hbefore.mem_pipeline,
    h.tableId ▸ TableNumbers.resolve_lt hascending hbefore⟩

end Flow.Realizes

namespace Plan.Describes

variable {p : Plan} {d : Deployment} {path : ServicePath} {owner : FlowOwner} {switch : SwitchId}
  {template : FlowTemplate}

theorem forward (h : p.Describes d path owner switch template) :
    template.Forward ∨
      owner = .unowned ∧ template = .matchAny .transportEgress d.config.egressMiss := by
  cases h with
  | default hhop hswitch htemplate =>
    exact (forward_of_mem_defaultFlows htemplate).imp_right fun h => ⟨rfl, h⟩
  | leg hl hleg htemplate => exact Or.inl (p.variant.forward_emit _ _ _ template htemplate)

theorem stage (h : p.Describes d path owner switch template) :
    template.table ∈ TableRef.pipeline := by
  rcases h.forward with hforward | ⟨-, rfl⟩
  · exact hforward.stage
  · exact (by decide : TableRef.transportEgress ∈ TableRef.pipeline)

theorem target (h : p.Describes d path owner switch template) {flow : Flow}
    (howner : flow.owner = owner) {tables : TableNumbers} (hflow : flow.Realizes tables template)
    (hascending : tables.toList.Pairwise (· < ·)) {id : UInt8}
    (hid : .goto (.raw id) ∈ flow.actions) :
    flow.Releases d.config tables id ∨ id ∈ tables.toList ∧ flow.tableId < id := by
  rcases h.forward with hforward | ⟨rfl, rfl⟩
  · exact Or.inr (hflow.forward hforward hascending hid)
  · obtain ⟨t, ht, rfl⟩ := hflow.exists_target hid
    have hmiss : d.config.egressMiss = .goto t := (List.mem_singleton.mp ht).symm
    refine Or.inl ⟨howner, hflow.role, hflow.tableId, ?_⟩
    cases happ : d.config.appEgressTable with
    | none => simp [Config.egressMiss, happ] at hmiss
    | some table =>
      obtain rfl : .raw table = t := by simpa [Config.egressMiss, happ] using hmiss
      rfl

end Plan.Describes

namespace Compilation

variable {d : Deployment} {path : ServicePath} {p : Plan} {initialized : List SwitchId}
  {c : Compilation} {flow : Flow}

theorem exists_described (hp : p.Carries d path) (hmake : make d p initialized = .ok c)
    (hflow : flow ∈ c.batch.flows) :
    ∃ template, p.Describes d path flow.owner flow.switch template ∧
      flow.Realizes (d.numbering p.graph.isLogical) template := by
  rw [← hp.tables_eq]
  by_cases hnobody : flow.owner = .unowned
  · obtain ⟨hpending, hdefault⟩ := default_of_mem hp hmake hflow hnobody
    obtain ⟨hsome, -⟩ := ((covers_make hp hmake).pending flow.switch).mp hpending
    obtain ⟨first, hfirst⟩ : ∃ hop, path.hops.find? (d.switchOf? · = some flow.switch) = some hop :=
      Option.isSome_iff_exists.mp (by simpa using hsome)
    have hswitch : d.switchOf? first = some flow.switch := by simpa using List.find?_some hfirst
    obtain ⟨template, htemplate, hon⟩ := List.mem_map.mp hdefault
    rw [Deployment.firstPort?, hfirst] at htemplate
    refine ⟨template, ?_, hon ▸ template.realizes_on _ _ _⟩
    rw [hnobody]
    exact .default (List.mem_of_find?_eq_some hfirst) hswitch htemplate
  · obtain ⟨i, l, leg, template, hl, hleg, htemplate, -, hon⟩ :=
      exists_leg_of_mem_own hmake hflow hnobody
    have howner : flow.owner = .path path.id := by rw [hon, ← hp.pathId]; rfl
    refine ⟨template, ?_, hon ▸ template.realizes_on _ _ _⟩
    rw [howner]
    exact .leg hl hleg (hp.pathId ▸ htemplate)

end Compilation

/-- A packet in table `a` may be sent on to table `b`, other than to another application. -/
def FlowStep (c : Config) (tables : TableNumbers) (flows : List Flow) (a b : UInt8) : Prop :=
  ∃ flow ∈ flows, flow.tableId = a ∧ .goto (.raw b) ∈ flow.actions ∧ ¬ flow.Releases c tables b

/-- Steps that only go forward do so however many are taken. -/
theorem lt_of_transGen {step : UInt8 → UInt8 → Prop} (hstep : ∀ a b, step a b → a < b)
    {a b : UInt8} (h : Relation.TransGen step a b) : a < b := by
  induction h with
  | single hlast => exact hstep _ _ hlast
  | tail _ hlast ih => exact UInt8.lt_trans ih (hstep _ _ hlast)

namespace Renderer

variable {σ : Type} [FlowDestination σ]

/-- The pipeline has no cycle. The usual numbering follows the stages whenever its offset is
accepted, and whatever is rendered in a numbering that does is committed as it was described, action
by action, with targets by number; it stays in the pipeline's tables and sends packets on to later
ones of them only, but for the default flow that may send them to another application. So packets
that are sent on come to no table twice. -/
theorem pipeline_forward :
    (∀ c : Config, c.validate = .ok () →
        c.standardTables.toList.Pairwise (· < ·) ∧
          c.standardTables.toList.map UInt8.toNat =
            [0, 1, 2, 3, 4, 10].map (c.tableOffset.toNat + ·)) ∧
      ∀ (d : Deployment) (r : Renderer σ) (path : ServicePath) (report : RenderReport),
        (r.render d path).result = .ok report →
        let tables := d.numbering report.logical
        let flows := (r.render d path).trace.offered
        tables.toList.Pairwise (· < ·) →
          (flows ≠ [] →
            FlowDestination.commit r.sink flows = .ok (r.render d path).renderer.sink) ∧
          (∃ p, (Plan.make d r.pool path).1 = .ok p ∧
            ∀ flow ∈ flows, ∃ template, p.Describes d path flow.owner flow.switch template ∧
              flow.Realizes tables template) ∧
          (∀ flow ∈ flows, flow.tableId ∈ tables.toList ∧
            (∀ target, .goto target ∈ flow.actions ∨ .resubmit target ∈ flow.actions →
              ∃ id, target = .raw id) ∧
            ∀ id, .goto (.raw id) ∈ flow.actions →
              flow.Releases d.config tables id ∨ id ∈ tables.toList ∧ flow.tableId < id) ∧
          ∀ id, ¬ Relation.TransGen (FlowStep d.config tables flows) id id := by
  refine ⟨fun c hvalid => ⟨Config.standardTables_ascending hvalid,
    Config.standardTables_toNat hvalid⟩, ?_⟩
  intro d r path report h tables flows hascending
  obtain ⟨p, c, hplan, hmake, -, rfl, -, hoffered⟩ := render_taken h
  have hp : p.Carries d path := Plan.make_ok (Prod.ext hplan rfl)
  have hdescribed : ∀ flow ∈ flows, ∃ template,
      p.Describes d path flow.owner flow.switch template ∧ flow.Realizes tables template :=
    fun flow hflow => Compilation.exists_described hp hmake (hoffered ▸ hflow)
  have htarget : ∀ flow ∈ flows, ∀ id, .goto (.raw id) ∈ flow.actions →
      flow.Releases d.config tables id ∨ id ∈ tables.toList ∧ flow.tableId < id := by
    intro flow hflow id hid
    obtain ⟨template, hdescribes, hrealizes⟩ := hdescribed flow hflow
    exact hdescribes.target rfl hrealizes hascending hid
  refine ⟨commit_of_offered h, ⟨p, hplan, hdescribed⟩, fun flow hflow => ?_, fun id hcycle => ?_⟩
  · obtain ⟨template, hdescribes, hrealizes⟩ := hdescribed flow hflow
    refine ⟨?_, fun target htarget => hrealizes.numeric htarget, htarget flow hflow⟩
    exact hrealizes.tableId ▸ TableNumbers.resolve_mem hdescribes.stage
  · have hstep : ∀ a b, FlowStep d.config tables flows a b → a < b := by
      rintro a b ⟨flow, hflow, rfl, hgoto, hkept⟩
      exact ((htarget flow hflow b hgoto).resolve_left hkept).2
    exact UInt8.lt_irrefl id (lt_of_transGen hstep hcycle)

/-- Tables at the highest numbers there are, with the classifier as the table of the other
application. -/
def wrappedDeployment : Deployment :=
  { chainDeployment with config := { tableOffset := 245, appEgressTable := some 245 } }

/-- From the egress table packets may go back to the classifier, which is where the other
application takes over; by themselves they come to no table twice. -/
theorem pipeline_forward_wrapped :
    let rendered := (fresh wrappedDeployment).render wrappedDeployment longPath
    let tables := wrappedDeployment.config.standardTables
    wrappedDeployment.config.validate = .ok () ∧
      (∃ flow ∈ rendered.trace.offered, flow.tableId = 255 ∧ .goto (.raw 245) ∈ flow.actions) ∧
      ∀ id, ¬ Relation.TransGen
        (FlowStep wrappedDeployment.config tables rendered.trace.offered) id id := by
  intro rendered tables
  have hvalid : wrappedDeployment.config.validate = .ok () := by decide
  obtain ⟨hstandard, hrender⟩ := @pipeline_forward FlowSink _
  obtain ⟨-, -, -, hnone⟩ := hrender wrappedDeployment (fresh wrappedDeployment) longPath _ rfl
    (hstandard _ hvalid).1
  exact ⟨hvalid, by decide +kernel, hnone⟩

end Renderer
end ServiceChain
