import ServiceChain.Proofs.OwnFlows

/-! What tells the flows of two paths apart. Some transports write the path's id into every match,
in the service header or in a synthetic address; the others mark packets of the path by label, tag
or metadata. And whatever the transport, a leg's flows have other priorities than default flows. -/
namespace ServiceChain

def MacAddress.pathPart (m : MacAddress) : PathId :=
  UInt32.ofNat (((m.o2.toNat * 256 + m.o3.toNat) * 256 + m.o4.toNat) * 256 + m.o5.toNat)

@[simp] theorem MacAddress.pathPart_synthetic (path : PathId) (index : UInt8) :
    (MacAddress.synthetic path index).pathPart = path := by
  have hlt := path.toNat_lt
  have hnumber : ((path.toNat / 2 ^ (8 * 3) % 256 * 256 + path.toNat / 2 ^ (8 * 2) % 256) * 256 +
      path.toNat / 2 ^ (8 * 1) % 256) * 256 + path.toNat / 2 ^ (8 * 0) % 256 = path.toNat := by
    omega
  simp only [pathPart, synthetic, octetAt, UInt8.toNat_ofNat', Nat.shiftRight_eq_div_pow, hnumber]
  exact UInt32.ofNat_toNat

/-- The path named in a match: that of the service header, or in plain Ethernet frames that of the
synthetic address, which is the source if there is one. -/
def FlowMatch.carrier? (m : FlowMatch) : Option PathId :=
  match m.nsp with
  | some path => some path
  | none =>
    if m.ethType.isSome || m.vlan.isSome || m.metadata.isSome then none
    else (m.ethSrc <|> m.ethDst).map MacAddress.pathPart

/-- The transports that name the path in every match. -/
def Variant.carriesId : Variant → Bool
  | nshTunnel | nshEthernet | macChaining | logicalForwarder => true
  | mpls | vlan => false

theorem Variant.carriesId_eq_false {v : Variant} (hv : v = .mpls ∨ v = .vlan) :
    v.carriesId = false := by
  rcases hv with rfl | rfl <;> rfl

theorem Variant.ne_logicalForwarder {v : Variant} (hv : v = .mpls ∨ v = .vlan) :
    v ≠ .logicalForwarder := by
  rcases hv with rfl | rfl <;> decide

def Leg.priorities : Leg → List UInt16
  | forwarderIngress | functionIngress _ => [Priority.transportIngress]
  | forwarderMapper _ | functionMapper _ => [Priority.pathMapper]
  | gatewayToFunction _ | forwarderToFunction _ _ | functionToGateway _ | functionToFunction _ _
  | functionToForwarder _ _ => [Priority.nextHop, Priority.nextHopAnySource]
  | functionEgress _ => [Priority.transportEgress, Priority.nshContextEgress]
  | forwarderEgress _ _ _ => [Priority.transportEgress]
  | terminalEgress _ _ =>
    [Priority.lastHopEgress, Priority.nshContextEgress, Priority.appCoexistenceEgress,
      Priority.transportEgress]

/-- What all flows of a leg have in common: how they name the path, and their priorities. -/
structure FlowTemplate.Fits (template : FlowTemplate) (carrier : Option PathId) (leg : Leg) :
    Prop where
  carrier : template.flowMatch.carrier? = carrier
  priority : template.priority ∈ leg.priorities

/-- All flows of the outcome have this in common. -/
def LegOutcome.Fits (o : LegOutcome) (carrier : Option PathId) (leg : Leg) : Prop :=
  ∀ template ∈ o.templates, template.Fits carrier leg

namespace LegOutcome

variable {carrier : Option PathId} {leg : Leg}

theorem fits_one {template : FlowTemplate} (h : template.Fits carrier leg) :
    (one template).Fits carrier leg := by
  intro other hother
  cases List.mem_singleton.mp hother
  exact h

theorem fits_skipped (reason : SkipCause) : (skipped reason).Fits carrier leg :=
  fun _ hnone => absurd hnone List.not_mem_nil

end LegOutcome

open LegOutcome (fits_one fits_skipped)

namespace NshEthernet

theorem fits_deliver (ctx : LegContext) (e : HopEntry) (srcMac : Option MacAddress)
    (dst : Attachment) {leg : Leg} (hleg : Priority.nextHop ∈ leg.priorities) :
    (deliver ctx e srcMac dst).Fits (some ctx.pathId) leg := by
  unfold deliver
  split
  · exact fits_one ⟨rfl, hleg⟩
  · exact fits_skipped _

theorem fits_emit (ctx : LegContext) (e : HopEntry) (leg : Leg) :
    (emit ctx e leg).Fits (some ctx.pathId) leg := by
  cases leg with
  | forwarderIngress => exact fits_one ⟨rfl, .head _⟩
  | functionIngress dst =>
    simp only [emit]
    split
    · exact fits_one ⟨rfl, .head _⟩
    · exact fits_skipped _
  | forwarderMapper hopIngress => exact fits_skipped _
  | functionMapper dst => exact fits_skipped _
  | gatewayToFunction dst => exact fits_deliver ctx e none dst (.head _)
  | forwarderToFunction srcEgress dst => exact fits_deliver ctx e _ dst (.head _)
  | functionToGateway src => exact fits_one ⟨rfl, .head _⟩
  | functionToFunction src dst => exact fits_deliver ctx e none dst (.head _)
  | functionToForwarder src dstIngress =>
    simp only [emit]
    split <;> exact fits_skipped _
  | functionEgress dst => exact fits_one ⟨rfl, .head _⟩
  | forwarderEgress srcEgress dstIngress hopIngress => exact fits_skipped _
  | terminalEgress src pathEgress => exact fits_one ⟨rfl, .head _⟩

end NshEthernet

namespace NshTunnel

theorem fits_deliver (ctx : LegContext) (e : HopEntry) (srcMac : Option MacAddress)
    (dst : Attachment) {leg : Leg} (hleg : Priority.nextHop ∈ leg.priorities) :
    (deliver ctx e srcMac dst).Fits (some ctx.pathId) leg := by
  unfold deliver
  split
  · exact NshEthernet.fits_deliver ctx e srcMac dst hleg
  · split
    · exact fits_one ⟨rfl, hleg⟩
    · exact fits_skipped _

theorem fits_emit (ctx : LegContext) (e : HopEntry) (leg : Leg) :
    (emit ctx e leg).Fits (some ctx.pathId) leg := by
  cases leg with
  | forwarderIngress => exact fits_one ⟨rfl, .head _⟩
  | functionIngress dst =>
    simp only [emit]
    split
    · exact NshEthernet.fits_emit ctx e _
    · split
      · exact fits_one ⟨rfl, .head _⟩
      · exact fits_skipped _
  | forwarderMapper hopIngress => exact fits_skipped _
  | functionMapper dst => exact fits_skipped _
  | gatewayToFunction dst => exact fits_deliver ctx e none dst (.head _)
  | forwarderToFunction srcEgress dst => exact fits_deliver ctx e _ dst (.head _)
  | functionToGateway src =>
    simp only [emit]
    split
    · exact NshEthernet.fits_emit ctx e _
    · exact fits_skipped _
  | functionToFunction src dst => exact fits_deliver ctx e none dst (.head _)
  | functionToForwarder src dstIngress =>
    simp only [emit]
    split
    · exact fits_skipped _
    · split
      · exact fits_one ⟨rfl, .head _⟩
      · exact fits_skipped _
  | functionEgress dst =>
    simp only [emit]
    split
    · exact NshEthernet.fits_emit ctx e _
    · split
      · exact fits_one ⟨rfl, .tail _ (.head _)⟩
      · exact fits_one ⟨rfl, .head _⟩
  | forwarderEgress srcEgress dstIngress hopIngress =>
    simp only [emit]
    split
    · exact fits_one ⟨rfl, .head _⟩
    · exact fits_skipped _
  | terminalEgress src pathEgress =>
    intro template htemplate
    simp only [emit, LegOutcome.templates, terminal, List.mem_cons, List.not_mem_nil,
      or_false] at htemplate
    rcases htemplate with rfl | rfl | rfl
    · exact ⟨rfl, .head _⟩
    · exact ⟨rfl, .tail _ (.head _)⟩
    · exact ⟨rfl, .tail _ (.tail _ (.head _))⟩

end NshTunnel

namespace LogicalForwarder

theorem fits_sendOut (ctx : LegContext) (e : HopEntry) (role : FlowRole)
    (interface : Option String) (part : MissingPart) {leg : Leg}
    (hleg : Priority.transportEgress ∈ leg.priorities) :
    (sendOut ctx e role interface part).Fits (some ctx.pathId) leg := by
  unfold sendOut
  split
  · exact fits_one ⟨rfl, hleg⟩
  · exact fits_skipped _

theorem fits_emit (ctx : LegContext) (e : HopEntry) (leg : Leg) :
    (emit ctx e leg).Fits (some ctx.pathId) leg := by
  cases leg with
  | functionEgress dst => exact fits_sendOut ctx e _ _ _ (.head _)
  | forwarderEgress srcEgress dstIngress hopIngress => exact fits_sendOut ctx e _ _ _ (.head _)
  | functionIngress | forwarderMapper | functionMapper | functionToGateway | functionToForwarder =>
    exact fits_skipped _
  | forwarderIngress | gatewayToFunction | forwarderToFunction | functionToFunction
  | terminalEgress => exact fits_one ⟨rfl, .head _⟩

end LogicalForwarder

namespace MacChaining

theorem carrier?_between (path : PathId) (index : ServiceIndex) (dst : Option MacAddress) :
    ((FlowMatch.any.withEthSrc (some (.synthetic path index))).withEthDst dst).carrier? =
      some path := by
  simp [FlowMatch.carrier?, FlowMatch.withEthSrc, FlowMatch.withEthDst, FlowMatch.any]

theorem carrier?_toAddress (path : PathId) (index : ServiceIndex) :
    (toAddress (.synthetic path index)).carrier? = some path := by
  simp [FlowMatch.carrier?, toAddress, FlowMatch.withEthDst, FlowMatch.any]

theorem fits_deliver (ctx : LegContext) (e : HopEntry) {m : FlowMatch} (dst : Attachment)
    {leg : Leg} (hm : m.carrier? = some ctx.pathId) (hleg : Priority.nextHop ∈ leg.priorities) :
    (deliver ctx e m dst).Fits (some ctx.pathId) leg := by
  unfold deliver
  split
  · exact fits_one ⟨hm, hleg⟩
  · exact fits_skipped _

theorem exists_of_mem_sendOut {role : FlowRole} {m : FlowMatch} {port : Option UInt32}
    {part : MissingPart} {t : FlowTemplate} (h : t ∈ (sendOut role m port part).templates) :
    ∃ number, port = some number ∧
      t = .egress role Priority.transportEgress m [.output (.number number)] := by
  unfold sendOut at h
  split at h
  · next number => exact ⟨number, rfl, List.mem_singleton.mp h⟩
  · cases h

theorem fits_sendOut (role : FlowRole) {m : FlowMatch} (port : Option UInt32) (part : MissingPart)
    {carrier : Option PathId} {leg : Leg} (hm : m.carrier? = carrier)
    (hleg : Priority.transportEgress ∈ leg.priorities) :
    (sendOut role m port part).Fits carrier leg := by
  intro t ht
  obtain ⟨_, -, rfl⟩ := exists_of_mem_sendOut ht
  exact ⟨hm, hleg⟩

theorem fits_functionToForwarder (ctx : LegContext) (e : HopEntry) (src : Attachment) {leg : Leg}
    (hleg : Priority.nextHop ∈ leg.priorities) :
    (functionToForwarder ctx e src).Fits (some ctx.pathId) leg := by
  unfold functionToForwarder
  split
  · split
    · exact fits_one ⟨carrier?_between _ _ _, hleg⟩
    · exact fits_skipped _
  · exact fits_one ⟨carrier?_toAddress _ _, hleg⟩

theorem fits_emit (ctx : LegContext) (e : HopEntry) (leg : Leg) :
    (emit ctx e leg).Fits (some ctx.pathId) leg := by
  have haddress : (toAddress (address ctx e)).carrier? = some ctx.pathId :=
    carrier?_toAddress _ _
  cases leg with
  | forwarderIngress => exact fits_one ⟨haddress, .head _⟩
  | functionIngress dst =>
    simp only [emit, functionIngress]
    split
    · split
      · exact fits_one ⟨carrier?_between _ _ _, .head _⟩
      · exact fits_skipped _
    · exact fits_one ⟨carrier?_toAddress _ _, .head _⟩
  | forwarderMapper hopIngress => exact fits_skipped _
  | functionMapper dst => exact fits_skipped _
  | gatewayToFunction dst => exact fits_deliver ctx e dst haddress (.head _)
  | forwarderToFunction srcEgress dst => exact fits_deliver ctx e dst haddress (.head _)
  | functionToGateway src => exact fits_functionToForwarder ctx e src (.head _)
  | functionToFunction src dst =>
    simp only [emit, functionToFunction]
    split
    · split
      · exact fits_deliver ctx e dst (carrier?_between _ _ _) (.head _)
      · exact fits_skipped _
    · exact fits_skipped _
  | functionToForwarder src dstIngress => exact fits_functionToForwarder ctx e src (.head _)
  | functionEgress dst => exact fits_sendOut _ _ _ (carrier?_between _ _ _) (.head _)
  | forwarderEgress srcEgress dstIngress hopIngress =>
    exact fits_sendOut _ _ _ haddress (.head _)
  | terminalEgress src pathEgress =>
    exact fits_sendOut _ _ _ haddress (.tail _ (.tail _ (.tail _ (.head _))))

end MacChaining

namespace Mpls

theorem fits_nextHop (ctx : LegContext) (src dst : Option MacAddress) {leg : Leg}
    (hleg : leg.priorities = [Priority.nextHop, Priority.nextHopAnySource]) :
    (LegOutcome.one (nextHop ctx src dst)).Fits none leg := by
  refine fits_one ⟨rfl, ?_⟩
  rw [hleg]
  cases src with
  | none => exact .tail _ (.head _)
  | some mac => exact .head _

theorem fits_emit (ctx : LegContext) (leg : Leg) : (emit ctx leg).Fits none leg := by
  cases leg with
  | forwarderIngress => exact fits_one ⟨rfl, .head _⟩
  | functionIngress dst =>
    simp only [emit]
    split
    · exact fits_one ⟨rfl, .head _⟩
    · exact fits_skipped _
  | forwarderMapper hopIngress =>
    simp only [emit]
    split
    · exact fits_one ⟨rfl, .head _⟩
    · exact fits_skipped _
  | functionMapper dst =>
    simp only [emit]
    split
    · exact fits_one ⟨rfl, .head _⟩
    · exact fits_skipped _
  | gatewayToFunction | forwarderToFunction | functionToGateway | functionToFunction
  | functionToForwarder => exact fits_nextHop ctx _ _ rfl
  | functionEgress dst => exact fits_one ⟨rfl, .head _⟩
  | forwarderEgress srcEgress dstIngress hopIngress =>
    simp only [emit]
    split
    · exact fits_one ⟨rfl, .head _⟩
    · exact fits_skipped _
  | terminalEgress src pathEgress =>
    simp only [emit, terminal]
    split
    · exact fits_skipped _
    · exact fits_skipped _
    · exact fits_one ⟨rfl, .head _⟩

end Mpls

namespace Vlan

theorem fits_emit (ctx : LegContext) (e : HopEntry) (leg : Leg) :
    (emit ctx e leg).Fits none leg := by
  cases leg with
  | forwarderIngress =>
    simp only [emit]
    split
    · exact fits_one ⟨rfl, .head _⟩
    · exact fits_skipped _
  | forwarderMapper hopIngress =>
    simp only [emit]
    split
    · exact fits_one ⟨rfl, .head _⟩
    · exact fits_skipped _
  | forwarderEgress srcEgress dstIngress hopIngress =>
    simp only [emit]
    split
    · exact fits_one ⟨rfl, .head _⟩
    · exact fits_skipped _
  | functionIngress | functionMapper | gatewayToFunction | forwarderToFunction
  | functionToGateway | functionToFunction | functionToForwarder | functionEgress
  | terminalEgress =>
    simp only [emit]
    exact Mpls.fits_emit ctx _

end Vlan

/-- A flow names its path if the transport does, and has a priority of its leg. -/
theorem Variant.fits_emit (v : Variant) (ctx : LegContext) (e : HopEntry) (leg : Leg) :
    (v.emit ctx e leg).Fits (if v.carriesId then some ctx.pathId else none) leg := by
  cases v with
  | nshTunnel => exact NshTunnel.fits_emit ctx e leg
  | nshEthernet => exact NshEthernet.fits_emit ctx e leg
  | mpls => exact Mpls.fits_emit ctx leg
  | vlan => exact Vlan.fits_emit ctx e leg
  | macChaining => exact MacChaining.fits_emit ctx e leg
  | logicalForwarder => exact LogicalForwarder.fits_emit ctx e leg

def Priority.defaults : List UInt16 := [Priority.matchAny, Priority.acceleratedBypass]

theorem Leg.priority_notMem_defaults {leg : Leg} {priority : UInt16}
    (h : priority ∈ leg.priorities) : priority ∉ Priority.defaults := by
  have hapart : leg.priorities.all (fun other => decide (other ∉ Priority.defaults)) = true := by
    cases leg <;> rfl
  exact of_decide_eq_true (List.all_eq_true.mp hapart priority h)

theorem Deployment.priority_mem_of_mem_defaultsOn (d : Deployment) {tables : TableNumbers}
    {switch : SwitchId} {port : Option UInt32} {flow : Flow}
    (h : flow ∈ d.defaultsOn tables switch port) : flow.priority ∈ Priority.defaults := by
  obtain ⟨template, htemplate, rfl⟩ := List.mem_map.mp h
  have hpriority : ∀ other ∈ defaultFlows d.config port, other.priority ∈ Priority.defaults := by
    cases port <;> simp [defaultFlows, acceleratedFlows, FlowTemplate.matchAny, FlowTemplate.bypass,
      Priority.defaults]
  exact hpriority template htemplate

namespace Compilation

variable {d : Deployment} {p : Plan} {initialized : List SwitchId} {c : Compilation}
  {l : LocatedEntry} {flow : Flow}

theorem exists_leg_of_mem_ownFlows (h : flow ∈ ownFlows d p l) :
    ∃ leg template, (flow.switch, leg) ∈ l.legs p.graph ∧
      template ∈ (p.variant.emit ⟨d.topology, d.config, p.graph.pathId⟩ l.entry leg).templates ∧
      flow = template.on (p.tables d.config) (.path p.graph.pathId) flow.switch ∧
      template.Fits (if p.variant.carriesId then some p.graph.pathId else none) leg := by
  obtain ⟨⟨switch, leg⟩, hleg, h⟩ := List.mem_flatMap.mp h
  obtain ⟨template, htemplate, rfl⟩ := List.mem_map.mp h
  exact ⟨leg, template, hleg, htemplate, rfl, p.variant.fits_emit _ _ _ _ htemplate⟩

theorem carrier?_of_mem (h : make d p initialized = .ok c) (hflow : flow ∈ c.batch.flows)
    (hown : flow.owner ≠ .unowned) :
    flow.flowMatch.carrier? = (if p.variant.carriesId then some p.graph.pathId else none) ∧
      flow.priority ∉ Priority.defaults := by
  obtain ⟨i, e, l, -, -, hmem⟩ := exists_of_mem_own h hflow hown
  obtain ⟨leg, template, -, -, hflow, hfits⟩ := exists_leg_of_mem_ownFlows hmem
  have hmatch : flow.flowMatch = template.flowMatch := congrArg Flow.flowMatch hflow
  have hpriority : flow.priority = template.priority := congrArg Flow.priority hflow
  rw [hmatch, hpriority]
  exact ⟨hfits.carrier, leg.priority_notMem_defaults hfits.priority⟩

theorem default_of_mem {path : ServicePath} (hp : p.Carries d path)
    (h : make d p initialized = .ok c) (hflow : flow ∈ c.batch.flows)
    (hnobody : flow.owner = .unowned) :
    flow.switch ∈ c.pending ∧
      flow ∈ d.defaultsOn (p.tables d.config) flow.switch (d.firstPort? path.hops flow.switch) := by
  have hmem : flow ∈ c.batch.flows.filter (·.isDefaultOn flow.switch) := by
    simp [hflow, Flow.isDefaultOn, hnobody]
  rw [(covers_make hp h).defaults] at hmem
  split at hmem
  · next hpending => exact ⟨hpending, hmem⟩
  · cases hmem

/-- A batch has default flows and flows of the path, told apart by their priorities. -/
theorem owner_of_mem {path : ServicePath} (hp : p.Carries d path)
    (h : make d p initialized = .ok c) (hflow : flow ∈ c.batch.flows) :
    flow.owner = .unowned ∧ flow.priority ∈ Priority.defaults ∨
      flow.owner = .path path.id ∧ flow.priority ∉ Priority.defaults := by
  by_cases hnobody : flow.owner = .unowned
  · obtain ⟨-, hdefault⟩ := default_of_mem hp h hflow hnobody
    exact Or.inl ⟨hnobody, d.priority_mem_of_mem_defaultsOn hdefault⟩
  · obtain ⟨i, e, l, -, -, hmem⟩ := exists_of_mem_own h hflow hnobody
    obtain ⟨-, hpriority⟩ := carrier?_of_mem h hflow hnobody
    exact Or.inr ⟨hp.pathId ▸ owner_of_mem_ownFlows hmem, hpriority⟩

end Compilation
end ServiceChain
