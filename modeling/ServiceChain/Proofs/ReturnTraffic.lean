import ServiceChain.Flow.Packet
import ServiceChain.Proofs.DefaultsOnce
import ServiceChain.Proofs.FlowMarks
import ServiceChain.Proofs.HopLegs
import ServiceChain.Proofs.Replacement

/-! What functions send back. A packet comes back with the index after that of its hop, on the
switch of the hop. Where all packets of a path are admitted this is too; where those of a hop are
admitted on the switch that the hop leads to, it is only if the next hop leads to the same one. -/
namespace ServiceChain

/-- A flow of the path that takes the packet from the first table of the switch to the next hops,
before the flow for all packets drops it. -/
structure Flow.Admits (flow : Flow) (tables : TableNumbers) (id : PathId) (switch : SwitchId)
    (packet : Packet) : Prop extends flow.StandsIn tables id switch .transportIngress where
  next : flow.GoesTo tables .nextHop
  priority : Priority.matchAny < flow.priority
  covers : flow.flowMatch.covers packet = true

/-- What the function of a hop sends back stays on the switch. -/
def Deployment.StaysOn (d : Deployment) (path : ServicePath) (i : Nat) (switch : SwitchId) : Prop :=
  ∃ next, path.hops[i + 1]? = some next ∧ d.switchOf? next = some switch

theorem LogicalForwarder.eq_of_transportIngress {ctx : LegContext} {e : HopEntry} {leg : Leg}
    {template : FlowTemplate} (h : template ∈ (emit ctx e leg).templates)
    (htable : template.table = .transportIngress) :
    leg = .forwarderIngress ∧ template.flowMatch = FlowMatch.any.withNsh ctx.pathId e.index := by
  cases leg with
  | forwarderIngress =>
    cases List.mem_singleton.mp h
    exact ⟨rfl, rfl⟩
  | functionEgress | forwarderEgress =>
    simp only [emit, sendOut] at h
    split at h
    · cases List.mem_singleton.mp h
      cases htable
    · cases h
  | gatewayToFunction | forwarderToFunction | functionToFunction | terminalEgress =>
    cases List.mem_singleton.mp h
    cases htable
  | functionIngress | forwarderMapper | functionMapper | functionToGateway
  | functionToForwarder => cases h

theorem FlowTemplate.admits_ingress (tables : TableNumbers) (id : PathId) (switch : SwitchId)
    (role : FlowRole) {m : FlowMatch} {packet : Packet} (hcovers : m.covers packet = true) :
    ((ingress role m .nextHop).on tables (.path id) switch).Admits tables id switch packet where
  toStandsIn := standsIn_on tables id switch _
  next := goesTo_ingress tables id switch role m .nextHop
  priority := show Priority.matchAny < Priority.transportIngress from by decide
  covers := hcovers

namespace Variant

def arrivalMatch (v : Variant) (id : PathId) (index : ServiceIndex) : FlowMatch :=
  if v = logicalForwarder then FlowMatch.any.withNsh id index else FlowMatch.any.withNsp id

theorem emit_forwarderIngress {v : Variant}
    (h : v = nshTunnel ∨ v = nshEthernet ∨ v = logicalForwarder) (ctx : LegContext) (e : HopEntry) :
    v.emit ctx e .forwarderIngress =
      .one (.ingress .transportIngress (v.arrivalMatch ctx.pathId e.index) .nextHop) := by
  rcases h with rfl | rfl | rfl <;> rfl

theorem covers_arrivalMatch {v : Variant} {id : PathId} {index : ServiceIndex} {packet : Packet}
    {arrived : ServiceIndex} (hpacket : packet.HasNsh id arrived)
    (hindex : v = logicalForwarder → arrived = index) :
    (v.arrivalMatch id index).covers packet = true := by
  unfold arrivalMatch
  split
  · next hv => exact FlowMatch.covers_withNsh.mpr (hindex hv ▸ hpacket)
  · exact FlowMatch.covers_withNsp.mpr ⟨hpacket.ethType, hpacket.nsp⟩

end Variant

namespace Plan

variable {d : Deployment} {path : ServicePath} {p : Plan} {initialized : List SwitchId}
  {c : Compilation} {i : Nat} {hop : Hop} {switch : SwitchId}

/-- Packets of the path are admitted where they arrive at a hop; those with other indices too,
unless logical forwarders carry the path. -/
theorem admits_arriving (hp : p.Carries d path) (hmake : Compilation.make d p initialized = .ok c)
    (hv : p.variant = .nshTunnel ∨ p.variant = .nshEthernet ∨ p.variant = .logicalForwarder)
    (hhop : path.hops[i]? = some hop) :
    ∃ switch, d.switchOf? hop = some switch ∧ ∃ flow ∈ c.batch.flows, ∀ index packet,
      packet.HasNsh path.id index → (p.variant = .logicalForwarder → index = hop.index) →
        flow.Admits (d.numbering p.graph.isLogical) path.id switch packet := by
  obtain ⟨l, switch, hl, hswitch, harrives⟩ := exists_arrival hp hmake hhop
  have hstaged := hl.staged hp hmake (harrives.forwarderIngress_mem p.graph)
  rw [Variant.emit_forwarderIngress hv, harrives.index] at hstaged
  refine ⟨switch, hswitch, _, hstaged.mem, fun index packet hpacket hindex => ?_⟩
  exact FlowTemplate.admits_ingress _ path.id switch _ (Variant.covers_arrivalMatch hpacket hindex)

theorem admits_returning (hp : p.Carries d path) (hmake : Compilation.make d p initialized = .ok c)
    (hv : p.variant = .nshTunnel ∨ p.variant = .nshEthernet ∨ p.variant = .logicalForwarder)
    (hhop : path.hops[i]? = some hop) (hswitch : d.switchOf? hop = some switch)
    (hstays : p.variant ≠ .logicalForwarder ∨ d.StaysOn path i switch) :
    ∃ flow ∈ c.batch.flows, ∀ packet, packet.HasNsh path.id (hop.index - 1) →
      flow.Admits (d.numbering p.graph.isLogical) path.id switch packet := by
  rcases hstays with hany | ⟨next, hnext, hsame⟩
  · obtain ⟨found, hfound, flow, hflow, hadmits⟩ := admits_arriving hp hmake hv hhop
    obtain rfl : found = switch := Option.some.inj (hfound.symm.trans hswitch)
    exact ⟨flow, hflow, fun packet hpacket =>
      hadmits _ packet hpacket fun hlogical => absurd hlogical hany⟩
  · obtain ⟨found, hfound, flow, hflow, hadmits⟩ := admits_arriving hp hmake hv hnext
    obtain rfl : found = switch := Option.some.inj (hfound.symm.trans hsame)
    exact ⟨flow, hflow, fun packet hpacket =>
      hadmits _ packet hpacket fun _ => (HopGraph.index_next hp.checked hhop hnext).symm⟩

theorem staysOn_of_covers (hp : p.Carries d path)
    (hmake : Compilation.make d p initialized = .ok c) (hv : p.variant = .logicalForwarder)
    (hhop : path.hops[i]? = some hop) {flow : Flow} (hflow : flow ∈ c.batch.flows)
    (hown : flow.owner = .path path.id) (htable : flow.table = .transportIngress)
    {packet : Packet} (hpacket : packet.HasNsh path.id (hop.index - 1))
    (hcovers : flow.flowMatch.covers packet = true) : d.StaysOn path i flow.switch := by
  obtain ⟨j, e, l, hentry, hlocate, hmem⟩ :=
    Compilation.exists_of_mem_own hmake hflow (by simp [hown])
  obtain ⟨rfl, -, -⟩ := LocatedEntry.locate_ok hlocate
  have hl : p.Locates d j l := ⟨hentry, hlocate⟩
  obtain ⟨leg, template, hleg, htemplate, hon, -⟩ := Compilation.exists_leg_of_mem_ownFlows hmem
  rw [hv] at htemplate
  rw [show flow.table = template.table from congrArg Flow.table hon] at htable
  obtain ⟨rfl, hmatch⟩ := LogicalForwarder.eq_of_transportIngress htemplate htable
  obtain ⟨hdst⟩ := LocatedEntry.hasLeg_of_mem_legs hleg
  obtain ⟨next, hnext, hswitch, harrives⟩ := hl.exists_hop hp hdst
  -- indices count down, so it is the entry after the hop's that has the packet's index
  rw [show flow.flowMatch = template.flowMatch from congrArg Flow.flowMatch hon, hmatch,
    harrives.index] at hcovers
  have hindex : next.index = hop.index - 1 :=
    Option.some.inj ((FlowMatch.covers_withNsh.mp hcovers).nsi.symm.trans hpacket.nsi)
  obtain ⟨hsum, hpos⟩ := HopGraph.index_of_checkHops hp.checked hhop
  obtain ⟨hafter, -⟩ := HopGraph.index_of_checkHops hp.checked hnext
  have hless := HopGraph.toNat_pred hpos
  rw [hindex, hless] at hafter
  obtain rfl : j = i + 1 := by omega
  exact ⟨next, hnext, hswitch⟩

end Plan

namespace Renderer

variable {σ : Type} [FlowDestination σ]

/-- What the function of a hop sends back is admitted on the switch of the hop, except behind
logical interfaces: there it is only if the next hop leads to the same switch, and otherwise no flow
of the path in the first table covers it. -/
theorem return_admitted_iff (d : Deployment) (r : Renderer σ) (path : ServicePath)
    (report : RenderReport) (h : (r.render d path).result = .ok report)
    (hvariant : report.variant = .nshTunnel ∨ report.variant = .nshEthernet ∨
      report.variant = .logicalForwarder) (i : Nat) (hop : Hop) (hhop : path.hops[i]? = some hop) :
    FlowDestination.commit r.sink (r.render d path).trace.offered =
        .ok (r.render d path).renderer.sink ∧
      ∃ switch, d.switchOf? hop = some switch ∧
        ((∃ flow ∈ (r.render d path).trace.offered, ∀ packet,
            packet.HasNsh path.id (hop.index - 1) →
              flow.Admits (d.numbering report.logical) path.id switch packet) ↔
          report.variant ≠ .logicalForwarder ∨ d.StaysOn path i switch) ∧
        (¬ (report.variant ≠ .logicalForwarder ∨ d.StaysOn path i switch) →
          ∀ flow ∈ (r.render d path).trace.offered, flow.owner = .path path.id →
            flow.switch = switch → flow.table = .transportIngress →
            ∀ packet, packet.HasNsh path.id (hop.index - 1) →
              flow.flowMatch.covers packet = false) := by
  have hcommit {flow : Flow} := @commit_render σ _ d r path report h flow
  obtain ⟨p, c, hp, hmake, -, rfl, -, hoffered⟩ := render_ok h
  rw [hoffered] at hcommit ⊢
  obtain ⟨switch, hswitch, flow, hflow, -⟩ := Plan.admits_arriving hp hmake hvariant hhop
  have hstays {flow : Flow} (hflow : flow ∈ c.batch.flows) (hown : flow.owner = .path path.id)
      (hat : flow.switch = switch) (htable : flow.table = .transportIngress) {packet : Packet}
      (hpacket : packet.HasNsh path.id (hop.index - 1))
      (hcovers : flow.flowMatch.covers packet = true) :
      p.variant ≠ .logicalForwarder ∨ d.StaysOn path i switch :=
    Decidable.or_iff_not_imp_left.mpr fun hv => hat ▸ Plan.staysOn_of_covers hp hmake
      (Decidable.not_not.mp hv) hhop hflow hown htable hpacket hcovers
  refine ⟨hcommit hflow, switch, hswitch, ⟨fun ⟨flow, hflow, hadmits⟩ => ?_,
    Plan.admits_returning hp hmake hvariant hhop hswitch⟩,
    fun hleaves flow hflow hown hat htable packet hpacket => ?_⟩
  · have hreturned := Packet.hasNsh_withNsh path.id (hop.index - 1)
    have hadmitted := hadmits _ hreturned
    exact hstays hflow hadmitted.owner hadmitted.switch hadmitted.table hreturned hadmitted.covers
  · refine Bool.eq_false_iff.mpr fun hcovers => hleaves ?_
    exact hstays hflow hown hat htable hpacket hcovers

theorem return_admitted_long :
    ∃ flow ∈ ((fresh chainDeployment).render chainDeployment longPath).trace.offered,
      flow.Admits chainDeployment.config.standardTables 1 "openflow:1" (.withNsh 1 254) := by
  obtain ⟨-, switch, hswitch, hadmitted, -⟩ := return_admitted_iff chainDeployment
    (fresh chainDeployment) longPath _ rfl (Or.inl rfl) 0 _ rfl
  obtain ⟨flow, hflow, hadmits⟩ := hadmitted.mpr (Or.inl (by decide))
  cases hswitch
  exact ⟨flow, hflow, hadmits _ (Packet.hasNsh_withNsh 1 254)⟩

/-- On the overlay path, what comes back from the inspector has the index of the flow that ends the
path, but the first table admits only the index before it. -/
theorem return_not_admitted :
    ¬ ∀ (d : Deployment) (log : List Reply) (r : Renderer), Reached d ({} : FlowSink) log r →
      ∀ path report, (r.render d path).result = .ok report →
        report.variant = .nshTunnel ∨ report.variant = .nshEthernet ∨
          report.variant = .logicalForwarder →
        ∀ hop ∈ path.hops, ∀ switch, d.switchOf? hop = some switch →
          ∃ flow ∈ (r.render d path).trace.offered, ∀ packet,
            packet.HasNsh path.id (hop.index - 1) →
              flow.Admits (d.numbering report.logical) path.id switch packet := by
  intro hadmitted
  obtain ⟨flow, hflow, hadmits⟩ := hadmitted sharedDeployment [] (fresh sharedDeployment) .start
    overlayPath _ rfl (Or.inr (Or.inr rfl)) _ (List.mem_singleton.mpr rfl) "openflow:7" rfl
  have hadmits := hadmits _ (Packet.hasNsh_withNsh 2 254)
  have hdropped : ∀ flow ∈ ((fresh sharedDeployment).render sharedDeployment
      overlayPath).trace.offered, flow.owner = .path 2 → flow.table = .transportIngress →
        flow.flowMatch.covers (.withNsh 2 254) = false := by
    decide +kernel
  exact Bool.false_ne_true
    ((hdropped flow hflow hadmits.owner hadmits.table).symm.trans hadmits.covers)

end Renderer
end ServiceChain
