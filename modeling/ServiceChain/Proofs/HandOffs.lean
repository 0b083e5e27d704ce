import ServiceChain.Proofs.HopLegs
import ServiceChain.Proofs.HopMappers

/-! Hand-offs by label or tag. Six flows take a packet from one function to the next on another
forwarder, two on the switch that it leaves and four on the one it comes to. Each of them sets,
pushes or writes what a later one matches. -/
namespace ServiceChain

/-- What marks a path's packets between two forwarders. -/
inductive WireTag where
  | label (number : MplsLabel)
  | vlan (id : VlanId)
  deriving DecidableEq, Repr

namespace WireTag

def push : WireTag → FlowAction
  | label number => .pushMpls number
  | vlan id => .pushVlan id

def pop : WireTag → FlowAction
  | label _ => .popMpls
  | vlan _ => .popVlan

def carried : WireTag → FlowMatch
  | label number => FlowMatch.any.withMplsLabel number
  | vlan id => FlowMatch.any.withVlan (some id)

def admitted : WireTag → FlowMatch
  | label _ => FlowMatch.any.withEthType ethTypeMpls
  | vlan id => FlowMatch.any.withVlan (some id)

end WireTag

namespace FlowAction

def ethSrc? : FlowAction → Option MacAddress
  | setEthSrc mac => some mac
  | _ => none

def ethDst? : FlowAction → Option MacAddress
  | setEthDst mac => some mac
  | _ => none

def pushedTag? : FlowAction → Option WireTag
  | pushMpls label => some (.label label)
  | pushVlan vlan => some (.vlan vlan)
  | _ => none

def metadata? : FlowAction → Option UInt64
  | writeMetadata value => some value
  | _ => none

end FlowAction

namespace Flow

def srcMacs (flow : Flow) : List MacAddress := flow.actions.filterMap (·.ethSrc?)

def dstMacs (flow : Flow) : List MacAddress := flow.actions.filterMap (·.ethDst?)

def pushedTags (flow : Flow) : List WireTag := flow.actions.filterMap (·.pushedTag?)

def writtenMetadata (flow : Flow) : List UInt64 := flow.actions.filterMap (·.metadata?)

end Flow

/-- The flows that take a packet from a function to the next, on another forwarder. -/
structure LinkFlows where
  /-- From the function to the link. -/
  onward : Flow
  /-- Out to the link. -/
  departing : Flow
  arriving : Flow
  mapping : Flow
  /-- From the link to the next function. -/
  delivering : Flow
  /-- Out to the next function. -/
  leaving : Flow

/-- What one of the flows does to a packet the next ones expect. An address that is not known is
neither set nor matched, and where it is the source, the flow gives way to those that match one. -/
structure LinkFlows.Agree (f : LinkFlows) (tables : TableNumbers) (id : PathId)
    (src dst : SwitchId) : Prop where
  onward : f.onward.StandsIn tables id src .nextHop
  departing : f.departing.StandsIn tables id src .transportEgress
  arriving : f.arriving.StandsIn tables id dst .transportIngress
  mapping : f.mapping.StandsIn tables id dst .pathMapper
  delivering : f.delivering.StandsIn tables id dst .nextHop
  leaving : f.leaving.StandsIn tables id dst .transportEgress
  linkDst : f.onward.dstMacs = f.departing.flowMatch.ethDst.toList
  tag : ∃ tag : WireTag, f.departing.pushedTags = [tag] ∧ f.arriving.flowMatch = tag.admitted ∧
    f.mapping.flowMatch = tag.carried ∧ tag.pop ∈ f.mapping.actions
  linkSrc : f.departing.srcMacs = f.delivering.flowMatch.ethSrc.toList
  priority : f.delivering.priority =
    if f.delivering.flowMatch.ethSrc.isSome then Priority.nextHop else Priority.nextHopAnySource
  functionDst : f.delivering.dstMacs = f.leaving.flowMatch.ethDst.toList
  written : f.mapping.writtenMetadata = [PathId.metadata id]
  marked : ∀ flow ∈ [f.onward, f.departing, f.delivering, f.leaving],
    flow.flowMatch.metadata = some (PathId.metadata id)

namespace Variant

variable {v : Variant} {e : HopEntry} {tag : WireTag}

/-- What the transport marks packets with that enter a hop here. -/
def wireTag? (hopIngress : Option BoundLocator) : Variant → Option WireTag
  | mpls => (hopIngress.bind (·.label?)).map .label
  | vlan => (hopIngress.bind (·.vlan?)).map .vlan
  | _ => none

/-- Next hops go by the mark and the source address, whether it is labels or tags that mark. -/
theorem emit_nextHops (hv : v = .mpls ∨ v = .vlan) (ctx : LegContext) (e : HopEntry)
    (back into : Attachment) (srcEgress dstIngress : Option BoundLocator) :
    v.emit ctx e (.functionToForwarder back dstIngress) =
        .one (Mpls.nextHop ctx back.mac? (dstIngress.bind (·.mac?))) ∧
      v.emit ctx e (.forwarderToFunction srcEgress into) =
        .one (Mpls.nextHop ctx (srcEgress.bind (·.mac?)) into.mac?) ∧
      v.emit ctx e (.functionEgress into) =
        .one (.egress .functionTransportEgress Priority.transportEgress
          ((Mpls.marked ctx).withEthDst into.mac?)
          ((into.vlan?.map FlowAction.pushVlan).toList ++ [.outputTo into.port])) := by
  rcases hv with rfl | rfl <;> exact ⟨rfl, rfl, rfl⟩

theorem emit_of_wireTag (htag : v.wireTag? e.hopIngress = some tag) (ctx : LegContext)
    (srcEgress dstIngress : Option BoundLocator) :
    v.emit ctx e (.forwarderEgress srcEgress dstIngress e.hopIngress) =
        .one (Mpls.forwarderEgress ctx srcEgress dstIngress tag.push) ∧
      v.emit ctx e .forwarderIngress =
        .one (.ingress .transportIngress tag.admitted .pathMapper) ∧
      v.emit ctx e (.forwarderMapper e.hopIngress) =
        .one (.mapper .pathMapper ctx.pathId tag.carried tag.pop) := by
  cases v with
  | mpls =>
    obtain ⟨label, hlabel, rfl⟩ := Option.map_eq_some_iff.mp htag
    simp [emit, Mpls.emit, hlabel, WireTag.push, WireTag.admitted, WireTag.carried, WireTag.pop]
  | vlan =>
    obtain ⟨vlan, hvlan, rfl⟩ := Option.map_eq_some_iff.mp htag
    simp [emit, Vlan.emit, hvlan, WireTag.push, WireTag.admitted, WireTag.carried, WireTag.pop]
  | nshTunnel | nshEthernet | macChaining | logicalForwarder => cases htag

theorem emit_of_no_wireTag (hv : v = .mpls ∨ v = .vlan) (hnone : v.wireTag? e.hopIngress = none)
    (ctx : LegContext) (srcEgress dstIngress : Option BoundLocator) :
    (v.emit ctx e (.forwarderEgress srcEgress dstIngress e.hopIngress)).templates = [] := by
  rcases hv with rfl | rfl
  · simp [emit, Mpls.emit, Option.map_eq_none_iff.mp hnone, LegOutcome.missing,
      LegOutcome.templates]
  · simp [emit, Vlan.emit, Option.map_eq_none_iff.mp hnone, LegOutcome.missing,
      LegOutcome.templates]

end Variant

namespace FlowAction

@[simp] theorem ethSrc?_setEthSrc (mac : MacAddress) : (setEthSrc mac).ethSrc? = some mac := rfl

@[simp] theorem pushedTag?_setEthSrc (mac : MacAddress) : (setEthSrc mac).pushedTag? = none := rfl

@[simp] theorem ethSrc?_push (tag : WireTag) : tag.push.ethSrc? = none := by cases tag <;> rfl

@[simp] theorem pushedTag?_push (tag : WireTag) : tag.push.pushedTag? = some tag := by
  cases tag <;> rfl

@[simp] theorem ethSrc?_outputTo (port : Option UInt32) : (outputTo port).ethSrc? = none := by
  cases port <;> rfl

@[simp] theorem pushedTag?_outputTo (port : Option UInt32) :
    (outputTo port).pushedTag? = none := by
  cases port <;> rfl

end FlowAction

namespace Mpls

variable (ctx : LegContext) (tables : TableNumbers) (owner : FlowOwner) (switch : SwitchId)
  (srcEgress dstIngress : Option BoundLocator) (tag : WireTag)

theorem dstMacs_nextHop (src dst : Option MacAddress) :
    ((nextHop ctx src dst).on tables owner switch).dstMacs = dst.toList := by
  cases dst <;> simp [nextHop, FlowTemplate.on, Flow.dstMacs, FlowAction.numbered,
    FlowAction.ethDst?]

theorem actions_forwarderEgress :
    ((forwarderEgress ctx srcEgress dstIngress tag.push).on tables owner switch).actions =
      ((srcEgress.bind (·.mac?)).map .setEthSrc).toList ++
        [tag.push, .outputTo (srcEgress.bind (·.port))] := by
  simp only [forwarderEgress, FlowTemplate.egress, FlowTemplate.on, List.map_append, List.map_cons,
    List.map_nil]
  cases srcEgress.bind (·.mac?) <;> cases srcEgress.bind (·.port) <;> cases tag <;> rfl

theorem srcMacs_forwarderEgress :
    ((forwarderEgress ctx srcEgress dstIngress tag.push).on tables owner switch).srcMacs =
      (srcEgress.bind (·.mac?)).toList := by
  rw [Flow.srcMacs, actions_forwarderEgress]
  cases srcEgress.bind (·.mac?) <;> simp

theorem pushedTags_forwarderEgress :
    ((forwarderEgress ctx srcEgress dstIngress tag.push).on tables owner switch).pushedTags =
      [tag] := by
  rw [Flow.pushedTags, actions_forwarderEgress]
  cases srcEgress.bind (·.mac?) <;> simp [List.filterMap_cons]

end Mpls

theorem WireTag.writtenMetadata_mapper (tag : WireTag) (role : FlowRole) (id : PathId)
    (m : FlowMatch) (tables : TableNumbers) (owner : FlowOwner) (switch : SwitchId) :
    ((FlowTemplate.mapper role id m tag.pop).on tables owner switch).writtenMetadata =
      [PathId.metadata id] := by
  cases tag <;> rfl

def Mpls.linkFlows (ctx : LegContext) (tables : TableNumbers) (src dst : SwitchId)
    (back into : Attachment) (srcEgress dstIngress : Option BoundLocator) (tag : WireTag) :
    LinkFlows where
  onward := (nextHop ctx back.mac? (dstIngress.bind (·.mac?))).on tables (.path ctx.pathId) src
  departing :=
    (forwarderEgress ctx srcEgress dstIngress tag.push).on tables (.path ctx.pathId) src
  arriving :=
    (FlowTemplate.ingress .transportIngress tag.admitted .pathMapper).on tables
      (.path ctx.pathId) dst
  mapping :=
    (FlowTemplate.mapper .pathMapper ctx.pathId tag.carried tag.pop).on tables
      (.path ctx.pathId) dst
  delivering := (nextHop ctx (srcEgress.bind (·.mac?)) into.mac?).on tables (.path ctx.pathId) dst
  leaving :=
    (FlowTemplate.egress .functionTransportEgress Priority.transportEgress
      ((marked ctx).withEthDst into.mac?)
      ((into.vlan?.map FlowAction.pushVlan).toList ++ [.outputTo into.port])).on tables
        (.path ctx.pathId) dst

theorem Mpls.linkFlows_agree (ctx : LegContext) (tables : TableNumbers) (src dst : SwitchId)
    (back into : Attachment) (srcEgress dstIngress : Option BoundLocator) (tag : WireTag) :
    (linkFlows ctx tables src dst back into srcEgress dstIngress tag).Agree tables ctx.pathId src
      dst where
  onward := FlowTemplate.standsIn_on tables ctx.pathId src _
  departing := FlowTemplate.standsIn_on tables ctx.pathId src _
  arriving := FlowTemplate.standsIn_on tables ctx.pathId dst _
  mapping := FlowTemplate.standsIn_on tables ctx.pathId dst _
  delivering := FlowTemplate.standsIn_on tables ctx.pathId dst _
  leaving := FlowTemplate.standsIn_on tables ctx.pathId dst _
  linkDst := dstMacs_nextHop ..
  tag := ⟨tag, pushedTags_forwarderEgress .., rfl, rfl, by cases tag <;> exact .head _⟩
  linkSrc := srcMacs_forwarderEgress ..
  priority := rfl
  functionDst := dstMacs_nextHop ..
  written := tag.writtenMetadata_mapper ..
  marked := by
    intro flow hflow
    simp only [List.mem_cons, List.not_mem_nil, or_false] at hflow
    rcases hflow with rfl | rfl | rfl | rfl <;> rfl

theorem Mpls.mapper_of_role {ctx : LegContext} {leg : Leg} {template : FlowTemplate}
    (h : template ∈ (emit ctx leg).templates)
    (hrole : template.role = .pathMapper ∨ template.role = .functionPathMapper) :
    ∃ (m : FlowMatch) (tag : WireTag), template = .mapper template.role ctx.pathId m tag.pop := by
  cases leg with
  | forwarderMapper hopIngress =>
    simp only [emit] at h
    split at h
    · next label _ =>
      cases List.mem_singleton.mp h
      exact ⟨_, .label label, rfl⟩
    · cases h
  | functionMapper dst =>
    simp only [emit] at h
    split at h
    · next vlan _ =>
      cases List.mem_singleton.mp h
      exact ⟨_, .vlan vlan, rfl⟩
    · cases h
  | functionIngress | forwarderEgress =>
    simp only [emit] at h
    split at h
    · cases List.mem_singleton.mp h
      rcases hrole with hrole | hrole <;> cases hrole
    · cases h
  | terminalEgress =>
    simp only [emit, terminal] at h
    split at h
    · cases h
    · cases h
    · cases List.mem_singleton.mp h
      rcases hrole with hrole | hrole <;> cases hrole
  | forwarderIngress | gatewayToFunction | forwarderToFunction | functionToGateway
  | functionToFunction | functionToForwarder | functionEgress =>
    cases List.mem_singleton.mp h
    rcases hrole with hrole | hrole <;> cases hrole

theorem Vlan.mapper_of_role {ctx : LegContext} {e : HopEntry} {leg : Leg}
    {template : FlowTemplate} (h : template ∈ (emit ctx e leg).templates)
    (hrole : template.role = .pathMapper ∨ template.role = .functionPathMapper) :
    ∃ (m : FlowMatch) (tag : WireTag), template = .mapper template.role ctx.pathId m tag.pop := by
  cases leg with
  | forwarderMapper hopIngress =>
    simp only [emit] at h
    split at h
    · next vlan _ =>
      cases List.mem_singleton.mp h
      exact ⟨_, .vlan vlan, rfl⟩
    · cases h
  | forwarderIngress | forwarderEgress =>
    simp only [emit] at h
    split at h
    · cases List.mem_singleton.mp h
      rcases hrole with hrole | hrole <;> cases hrole
    · cases h
  | functionIngress | functionMapper | gatewayToFunction | forwarderToFunction
  | functionToGateway | functionToFunction | functionToForwarder | functionEgress
  | terminalEgress =>
    simp only [emit] at h
    exact Mpls.mapper_of_role h hrole

theorem Deployment.role_of_mem_defaultsOn {d : Deployment} {tables : TableNumbers}
    {switch : SwitchId} {port : Option UInt32} {flow : Flow}
    (h : flow ∈ d.defaultsOn tables switch port) :
    flow.role = .matchAny ∨ flow.role = .acceleratedBypass := by
  obtain ⟨template, htemplate, rfl⟩ := List.mem_map.mp h
  have hrole : ∀ other ∈ defaultFlows d.config port,
      other.role = .matchAny ∨ other.role = .acceleratedBypass := by
    cases port <;> simp [defaultFlows, acceleratedFlows, FlowTemplate.matchAny, FlowTemplate.bypass]
  exact hrole template htemplate

theorem Compilation.writtenMetadata_of_role {d : Deployment} {path : ServicePath} {p : Plan}
    {initialized : List SwitchId} {c : Compilation} (hp : p.Carries d path)
    (hmake : make d p initialized = .ok c) (hv : p.variant = .mpls ∨ p.variant = .vlan)
    {flow : Flow} (hflow : flow ∈ c.batch.flows)
    (hrole : flow.role = .pathMapper ∨ flow.role = .functionPathMapper) :
    flow.writtenMetadata = [PathId.metadata path.id] := by
  by_cases hnobody : flow.owner = .unowned
  · obtain ⟨-, hdefault⟩ := default_of_mem hp hmake hflow hnobody
    rcases Deployment.role_of_mem_defaultsOn hdefault with h | h <;> simp [h] at hrole
  · obtain ⟨i, e, l, -, -, hmem⟩ := exists_of_mem_own hmake hflow hnobody
    obtain ⟨leg, template, -, htemplate, hon, -⟩ := exists_leg_of_mem_ownFlows hmem
    rw [show flow.role = template.role from congrArg Flow.role hon] at hrole
    obtain ⟨m, tag, hmapper⟩ : ∃ (m : FlowMatch) (tag : WireTag),
        template = .mapper template.role p.graph.pathId m tag.pop := by
      rcases hv with hv | hv <;> rw [hv] at htemplate
      · exact Mpls.mapper_of_role htemplate hrole
      · exact Vlan.mapper_of_role htemplate hrole
    rw [hon, hmapper, tag.writtenMetadata_mapper, hp.pathId]

namespace Compilation

variable {d : Deployment} {p : Plan} {l : LocatedEntry} {src dst : SwitchId}
  {back into : Attachment}

theorem legFlows_of_filter {name : String} {switch : SwitchId} {leg : Leg}
    {template : FlowTemplate}
    (hleg : (l.legs p.graph).filter (·.2.name = name) = [(switch, leg)])
    (hemit : p.variant.emit (d.legContext p.graph.pathId) l.entry leg = .one template) :
    legFlows d p l name =
      [template.on (p.tables d.config) (.path p.graph.pathId) switch] := by
  simp [legFlows, hleg, hemit, LegOutcome.one, LegOutcome.templates]

end Compilation

namespace Plan

variable {σ : Type} {d : Deployment} {r : Renderer σ} {path : ServicePath} {p : Plan}
  {initialized : List SwitchId} {c : Compilation} {i : Nat} {hop next : Hop}

/-- If a link has a flow that sends packets to it, it has all six, and they agree. -/
theorem link_agrees (hplan : (make d r.pool path).1 = .ok p)
    (hmake : Compilation.make d p initialized = .ok c) (hv : p.variant = .mpls ∨ p.variant = .vlan)
    (hhop : path.hops[i]? = some hop) (hnext : path.hops[i + 1]? = some next)
    (hcross : hop.forwarder ≠ next.forwarder) (hback : (d.outlet? path hop).isSome)
    (hinto : (d.inlet? path next).isSome)
    (hsent : r.legFlows d path (i + 1) "sff-transport-egress" ≠ []) :
    ∃ src dst, d.switchOf? hop = some src ∧ d.switchOf? next = some dst ∧
      ∃ f : LinkFlows, f.Agree d.config.standardTables path.id src dst ∧
        r.legFlows d path (i + 1) "next-hop-sf-to-sff" = [f.onward] ∧
        r.legFlows d path (i + 1) "sff-transport-egress" = [f.departing] ∧
        r.legFlows d path (i + 1) "sff-transport-ingress" = [f.arriving] ∧
        r.legFlows d path (i + 1) "sff-path-mapper" = [f.mapping] ∧
        r.legFlows d path (i + 1) "next-hop-sff-to-sf" = [f.delivering] ∧
        r.legFlows d path (i + 1) "sf-transport-egress" = [f.leaving] := by
  have hp : p.Carries d path := make_ok (Prod.ext hplan rfl)
  obtain ⟨l, src, dst, back, into, hl, hsrc, hdst, -, -, -, -, hlegs⟩ :=
    exists_link hp hmake (Variant.ne_logicalForwarder hv) hhop hnext hcross hback hinto
  simp only [Renderer.legFlows_eq hplan hl] at hsent ⊢
  have hlegFlows {name : String} {switch : SwitchId} {leg : Leg} {template : FlowTemplate}
      (hleg : (l.linkLegs src dst back into).filter (·.2.name = name) = [(switch, leg)])
      (hemit : p.variant.emit (d.legContext path.id) l.entry leg = .one template) :
      Compilation.legFlows d p l name =
        [template.on d.config.standardTables (.path path.id) switch] := by
    rw [Compilation.legFlows_of_filter (hlegs.symm ▸ hleg) (hp.pathId.symm ▸ hemit), hp.pathId,
      tables_of_carriesId (Variant.carriesId_eq_false hv)]
  obtain ⟨tag, htag⟩ : ∃ tag, p.variant.wireTag? l.entry.hopIngress = some tag := by
    refine Option.ne_none_iff_exists'.mp fun hnone => hsent ?_
    have hleg : (l.legs p.graph).filter (·.2.name = "sff-transport-egress") =
        [(src, .forwarderEgress l.srcEgress l.dstIngress l.entry.hopIngress)] := by
      rw [hlegs]
      rfl
    simp [Compilation.legFlows, hleg, Variant.emit_of_no_wireTag hv hnone]
  obtain ⟨honward, hdelivering, hleaving⟩ := Variant.emit_nextHops hv (d.legContext path.id) l.entry
    back into l.srcEgress l.dstIngress
  obtain ⟨hdeparting, harriving, hmapping⟩ :=
    Variant.emit_of_wireTag htag (d.legContext path.id) l.srcEgress l.dstIngress
  exact ⟨src, dst, hsrc, hdst, _, Mpls.linkFlows_agree (d.legContext path.id)
    d.config.standardTables src dst back into l.srcEgress l.dstIngress tag,
    hlegFlows rfl honward, hlegFlows rfl hdeparting, hlegFlows rfl harriving,
    hlegFlows rfl hmapping, hlegFlows rfl hdelivering, hlegFlows rfl hleaving⟩

end Plan

namespace Renderer

variable {σ : Type} [FlowDestination σ]

/-- Labels and tags are handed off. All that is offered is taken, what a leg has is part of it, and
every flow that maps packets to the path writes the path's metadata. If the function before a link
and the one behind it are known and there is a flow that sends packets to the link, one flow each
takes them from the function to the link, admits them, maps them, and takes them to the function
behind it; and what each of these does to the packets is what the next ones match. -/
theorem hand_offs_agree (d : Deployment) (r : Renderer σ) (path : ServicePath)
    (report : RenderReport) (h : (r.render d path).result = .ok report)
    (hvariant : report.variant = .mpls ∨ report.variant = .vlan) :
    ((r.render d path).trace.offered ≠ [] →
        FlowDestination.commit r.sink (r.render d path).trace.offered =
          .ok (r.render d path).renderer.sink) ∧
      (∀ number name, r.legFlows d path number name ⊆ (r.render d path).trace.offered) ∧
      (∀ flow ∈ (r.render d path).trace.offered,
        flow.role = .pathMapper ∨ flow.role = .functionPathMapper →
          flow.writtenMetadata = [PathId.metadata path.id]) ∧
      ∀ i hop next, path.hops[i]? = some hop → path.hops[i + 1]? = some next →
        hop.forwarder ≠ next.forwarder → (d.outlet? path hop).isSome →
        (d.inlet? path next).isSome → r.legFlows d path (i + 1) "sff-transport-egress" ≠ [] →
        ∃ src dst, d.switchOf? hop = some src ∧ d.switchOf? next = some dst ∧
          ∃ f : LinkFlows, f.Agree d.config.standardTables path.id src dst ∧
            r.legFlows d path (i + 1) "next-hop-sf-to-sff" = [f.onward] ∧
            r.legFlows d path (i + 1) "sff-transport-egress" = [f.departing] ∧
            r.legFlows d path (i + 1) "sff-transport-ingress" = [f.arriving] ∧
            r.legFlows d path (i + 1) "sff-path-mapper" = [f.mapping] ∧
            r.legFlows d path (i + 1) "next-hop-sff-to-sf" = [f.delivering] ∧
            r.legFlows d path (i + 1) "sf-transport-egress" = [f.leaving] := by
  obtain ⟨p, c, hplan, hmake, -, rfl, -, hoffered⟩ := render_taken h
  have hp : p.Carries d path := Plan.make_ok (Prod.ext hplan rfl)
  refine ⟨fun hsome => ?_, fun number name => legFlows_subset h, fun flow hflow hrole => ?_,
    fun i hop next hhop hnext hcross hback hinto hsent => ?_⟩
  · obtain ⟨flow, hflow⟩ := List.exists_mem_of_ne_nil _ hsome
    exact commit_render h hflow
  · rw [hoffered] at hflow
    exact Compilation.writtenMetadata_of_role hp hmake hvariant hflow hrole
  · exact Plan.link_agrees hplan hmake hvariant hhop hnext hcross hback hinto hsent

theorem hand_offs_agree_back :
    ∃ f : LinkFlows, f.Agree taggedDeployment.config.standardTables 4 "openflow:20" "openflow:10" ∧
      f.mapping ∈
        ((fresh taggedDeployment).render taggedDeployment (backPath 4)).trace.offered := by
  have hback : ∃ report,
      ((fresh taggedDeployment).render taggedDeployment (backPath 4)).result = .ok report :=
    isOk_iff.mp (by decide +kernel)
  obtain ⟨report, hreport⟩ := hback
  have hvariant : report.variant = .vlan :=
    Option.some.inj ((variant?_of_render hreport).symm.trans rfl)
  obtain ⟨-, hstaged, -, hlinks⟩ := hand_offs_agree taggedDeployment (fresh taggedDeployment)
    (backPath 4) report hreport (Or.inr hvariant)
  obtain ⟨src, dst, hsrc, hdst, f, hagree, -, -, -, hmapping, -⟩ := hlinks 0 _ _ rfl rfl (by decide)
    (by decide +kernel) (by decide +kernel) (by decide +kernel)
  cases hsrc
  cases hdst
  exact ⟨f, hagree, hstaged 1 _ (hmapping ▸ List.mem_singleton.mpr rfl)⟩

end Renderer
end ServiceChain
