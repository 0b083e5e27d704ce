import ServiceChain.Proofs.HopLegs
import ServiceChain.Proofs.Reached
import ServiceChain.Proofs.Replacement

/-! Delivery to the function of a hop. A function that its forwarder knows gets its flows, or a note
says what they lack; for one that is not known no leg is tried, and nothing is noted. -/
namespace ServiceChain

namespace Leg

/-- The names of the legs that need to know how a function is reached. -/
def functionNames : List String :=
  ["sf-transport-ingress", "sf-path-mapper", "next-hop-gateway-to-sf", "next-hop-sff-to-sf",
    "next-hop-sf-to-sf", "sf-transport-egress"]

def deliveryNames : List String :=
  ["next-hop-gateway-to-sf", "next-hop-sff-to-sf", "next-hop-sf-to-sf"]

def deliveryTable? : Leg → Option TableRef
  | gatewayToFunction _ | forwarderToFunction _ _ => some .nextHop
  | functionEgress _ => some .transportEgress
  | _ => none

end Leg

namespace LegOutcome

/-- One flow in this table, or a reason other than that none is needed. -/
def Answers (o : LegOutcome) (table : TableRef) : Prop :=
  (∃ template, o = one template ∧ template.table = table) ∨
    ∃ reason, o = skipped reason ∧ reason ≠ .notRequired

theorem answers_one {template : FlowTemplate} {table : TableRef} (h : template.table = table) :
    (one template).Answers table :=
  Or.inl ⟨template, rfl, h⟩

theorem answers_missing (part : MissingPart) (table : TableRef) : (missing part).Answers table :=
  Or.inr ⟨.missing part, rfl, by simp⟩

end LegOutcome

open LegOutcome (answers_one answers_missing)

section Emit

variable {ctx : LegContext} {e : HopEntry} {leg : Leg} {table : TableRef}

theorem NshEthernet.answers_deliver (srcMac : Option MacAddress) (dst : Attachment) :
    (deliver ctx e srcMac dst).Answers .nextHop := by
  unfold deliver
  split
  · exact answers_one rfl
  · exact answers_missing _ _

theorem NshEthernet.answers_emit (h : leg.deliveryTable? = some table) :
    (emit ctx e leg).Answers table := by
  cases leg with
  | gatewayToFunction dst | forwarderToFunction srcEgress dst =>
    cases h
    exact answers_deliver _ dst
  | functionEgress dst =>
    cases h
    exact answers_one rfl
  | _ => cases h

theorem NshTunnel.answers_deliver (srcMac : Option MacAddress) (dst : Attachment) :
    (deliver ctx e srcMac dst).Answers .nextHop := by
  unfold deliver
  split
  · exact NshEthernet.answers_deliver srcMac dst
  · split
    · exact answers_one rfl
    · exact answers_missing _ _

theorem NshTunnel.answers_emit (h : leg.deliveryTable? = some table) :
    (emit ctx e leg).Answers table := by
  cases leg with
  | gatewayToFunction dst | forwarderToFunction srcEgress dst =>
    cases h
    exact answers_deliver _ dst
  | functionEgress dst =>
    cases h
    simp only [emit]
    split
    · exact NshEthernet.answers_emit rfl
    · split <;> exact answers_one rfl
  | _ => cases h

theorem Mpls.answers_emit (h : leg.deliveryTable? = some table) : (emit ctx leg).Answers table := by
  cases leg with
  | gatewayToFunction dst | forwarderToFunction srcEgress dst | functionEgress dst =>
    cases h
    exact answers_one rfl
  | _ => cases h

theorem Vlan.answers_emit (h : leg.deliveryTable? = some table) :
    (emit ctx e leg).Answers table := by
  cases leg with
  | gatewayToFunction dst | forwarderToFunction srcEgress dst | functionEgress dst =>
    exact Mpls.answers_emit h
  | _ => cases h

theorem MacChaining.answers_deliver (m : FlowMatch) (dst : Attachment) :
    (deliver ctx e m dst).Answers .nextHop := by
  unfold deliver
  split
  · exact answers_one rfl
  · exact answers_missing _ _

theorem MacChaining.answers_emit (h : leg.deliveryTable? = some table) :
    (emit ctx e leg).Answers table := by
  cases leg with
  | gatewayToFunction dst | forwarderToFunction srcEgress dst =>
    cases h
    exact answers_deliver _ dst
  | functionEgress dst =>
    cases h
    simp only [emit, sendOut]
    split
    · exact answers_one rfl
    · exact answers_missing _ _
  | _ => cases h

theorem LogicalForwarder.answers_emit (h : leg.deliveryTable? = some table) :
    (emit ctx e leg).Answers table := by
  cases leg with
  | gatewayToFunction dst | forwarderToFunction srcEgress dst =>
    cases h
    exact answers_one rfl
  | functionEgress dst =>
    cases h
    simp only [emit, sendOut]
    split
    · exact answers_one rfl
    · exact answers_missing _ _
  | _ => cases h

theorem Variant.answers_emit (v : Variant) (h : leg.deliveryTable? = some table) :
    (v.emit ctx e leg).Answers table := by
  cases v with
  | nshTunnel => exact NshTunnel.answers_emit h
  | nshEthernet => exact NshEthernet.answers_emit h
  | mpls => exact Mpls.answers_emit h
  | vlan => exact Vlan.answers_emit h
  | macChaining => exact MacChaining.answers_emit h
  | logicalForwarder => exact LogicalForwarder.answers_emit h

end Emit

theorem LocatedEntry.HasLeg.name_notMem {l : LocatedEntry} {switch : SwitchId} {leg : Leg}
    (h : l.HasLeg switch leg) (hnone : l.dstFunction = none) : leg.name ∉ Leg.functionNames := by
  cases h with
  | functionIngress _ hdst | functionMapper _ hdst | gatewayToFunction _ hdst
  | forwarderToFunction _ hdst | functionToFunction _ _ hdst | functionEgress _ hdst =>
    cases hnone.symm.trans hdst
  | forwarderIngress | forwarderMapper | functionToGateway | functionToForwarder | forwarderEgress
  | terminalEgress => simp [Leg.name, Leg.functionNames]

namespace Plan.Locates

variable {d : Deployment} {path : ServicePath} {p : Plan} {i : Nat} {l : LocatedEntry}
  {initialized : List SwitchId} {c : Compilation} {switch : SwitchId} {leg : Leg}
  {table : TableRef}

/-- A leg that answers has a flow, or a note that it lacks something. -/
theorem answered (h : p.Locates d i l) (hp : p.Carries d path)
    (hmake : Compilation.make d p initialized = .ok c) (hleg : (switch, leg) ∈ l.legs p.graph)
    (htable : leg.deliveryTable? = some table) :
    (∃ flow ∈ Compilation.legFlows d p l leg.name, flow.switch = switch ∧ flow.table = table) ∨
      ∃ skipped ∈ c.skipped,
        skipped.entry = i ∧ skipped.leg = leg.name ∧ skipped.reason ≠ .notRequired := by
  have hanswers : (p.variant.emit (d.legContext path.id) l.entry leg).Answers table :=
    p.variant.answers_emit htable
  rcases hanswers with ⟨template, hemit, rfl⟩ | ⟨reason, hemit, hreason⟩
  · refine Or.inl ⟨template.on (p.tables d.config) (.path p.graph.pathId) switch, ?_, rfl, rfl⟩
    rw [← hp.pathId] at hemit
    refine List.mem_flatMap.mpr ⟨(switch, leg), List.mem_filter.mpr ⟨hleg, by simp⟩, ?_⟩
    simp [hemit, LegOutcome.one, LegOutcome.templates]
  · exact Or.inr ⟨_, h.mem_skipped hp hmake hleg hemit, rfl, rfl, hreason⟩

/-- A note is about a leg of the entry whose number it has. -/
theorem exists_leg_of_skipped (h : p.Locates d i l)
    (hmake : Compilation.make d p initialized = .ok c) {skipped : SkippedLeg}
    (hskipped : skipped ∈ c.skipped) (hentry : skipped.entry = i) :
    ∃ switch leg, (switch, leg) ∈ l.legs p.graph ∧ skipped.leg = leg.name := by
  obtain ⟨located, hlocated, -, hall⟩ := Compilation.own_make hmake
  rw [hall] at hskipped
  obtain ⟨other, hother, hskipped⟩ := List.mem_flatMap.mp hskipped
  obtain ⟨⟨switch, leg⟩, hleg, hnote⟩ := List.mem_filterMap.mp hskipped
  obtain ⟨k, e, hk, hlocate⟩ := LocatedEntry.locate_of_mem hlocated hother
  rw [Nat.zero_add] at hlocate
  have hnumber : other.number = k := (LocatedEntry.parts_of_locate hlocate).1
  split at hnote
  · cases hnote
  · next reason hreason =>
    cases hnote
    obtain rfl : k = i := hnumber.symm.trans hentry
    obtain rfl : e = l.entry := Option.some.inj (hk.symm.trans h.entry)
    obtain rfl : other = l := Except.ok.inj (hlocate.symm.trans h.located)
    exact ⟨switch, leg, hleg, rfl⟩

end Plan.Locates

theorem Compilation.legFlows_eq_nil {d : Deployment} {p : Plan} {l : LocatedEntry} {name : String}
    (h : ∀ leg ∈ l.legs p.graph, leg.2.name ≠ name) : legFlows d p l name = [] := by
  rw [legFlows, List.filter_eq_nil_iff.mpr (by simpa using h)]
  rfl

/-- The report notes that a leg of this entry lacks something. -/
def RenderReport.Notes (report : RenderReport) (number : Nat) (name : String) : Prop :=
  ∃ skipped ∈ report.skipped,
    skipped.entry = number ∧ skipped.leg = name ∧ skipped.reason ≠ .notRequired

namespace Renderer

/-- Flows of the entry take packets to its function: one readdresses them, one sends them out. -/
def Delivers {σ : Type} (d : Deployment) (r : Renderer σ) (path : ServicePath) (number : Nat)
    (switch : SwitchId) : Prop :=
  (∃ name ∈ Leg.deliveryNames, ∃ flow ∈ r.legFlows d path number name,
      flow.switch = switch ∧ flow.table = .nextHop) ∧
    ∃ flow ∈ r.legFlows d path number "sf-transport-egress", flow.switch = switch

variable {σ : Type} [FlowDestination σ]

/-- A hop has flows to its function or a note exactly if its forwarder knows the function, or a leg
that does without the function lacks something. Where the forwarder does not know it, the legs
towards it leave nothing: no flow and no note. -/
theorem hop_accounted_iff (d : Deployment) (r : Renderer σ) (path : ServicePath)
    (report : RenderReport) (h : (r.render d path).result = .ok report) (i : Nat) (hop : Hop)
    (hhop : path.hops[i]? = some hop) :
    ((r.render d path).trace.offered ≠ [] →
        FlowDestination.commit r.sink (r.render d path).trace.offered =
          .ok (r.render d path).renderer.sink) ∧
      (∀ name, r.legFlows d path i name ⊆ (r.render d path).trace.offered) ∧
      ∃ switch, d.switchOf? hop = some switch ∧
        (r.Delivers d path i switch ∨ (∃ name, report.Notes i name) ↔
          (d.inlet? path hop).isSome ∨ ∃ name ∉ Leg.functionNames, report.Notes i name) ∧
        (d.inlet? path hop = none → ∀ name ∈ Leg.functionNames,
          r.legFlows d path i name = [] ∧
            ∀ skipped ∈ report.skipped, skipped.entry = i → skipped.leg ≠ name) := by
  refine ⟨commit_of_offered h, fun name => legFlows_subset h, ?_⟩
  obtain ⟨p, c, hplan, hmake, -, rfl, -, -⟩ := render_taken h
  have hp : p.Carries d path := Plan.make_ok (Prod.ext hplan rfl)
  obtain ⟨l, switch, hl, hswitch, harrives⟩ := Plan.exists_arrival hp hmake hhop
  have hlegFlows : ∀ name, r.legFlows d path i name = Compilation.legFlows d p l name := fun name =>
    legFlows_eq hplan hl
  have hsilent (hnone : d.inlet? path hop = none) :
      ∀ leg ∈ l.legs p.graph, leg.2.name ∉ Leg.functionNames := fun leg hleg =>
    (LocatedEntry.hasLeg_of_mem_legs hleg).name_notMem (harrives.dstFunction.trans hnone)
  have hnothing (hnone : d.inlet? path hop = none) : ∀ name ∈ Leg.functionNames,
      r.legFlows d path i name = [] ∧
        ∀ skipped ∈ c.skipped, skipped.entry = i → skipped.leg ≠ name := by
    refine fun name hname => ⟨?_, fun skipped hskipped hentry hleg => ?_⟩
    · rw [hlegFlows]
      exact Compilation.legFlows_eq_nil fun leg hleg hsame => hsilent hnone leg hleg (hsame ▸ hname)
    · obtain ⟨other, leg, hmem, hsame⟩ := hl.exists_leg_of_skipped hmake hskipped hentry
      exact hsilent hnone _ hmem (hsame ▸ hleg ▸ hname)
  refine ⟨switch, hswitch, ⟨?_, ?_⟩, hnothing⟩
  · cases hinto : d.inlet? path hop with
    | some into => exact fun _ => Or.inl rfl
    | none =>
      rintro (⟨-, flow, hflow, -⟩ | ⟨name, skipped, hskipped, hentry, rfl, hreason⟩)
      · simp [(hnothing hinto "sf-transport-egress" (by decide)).1] at hflow
      · refine Or.inr ⟨skipped.leg, fun hname => ?_, skipped, hskipped, hentry, rfl, hreason⟩
        exact (hnothing hinto _ hname).2 skipped hskipped hentry rfl
  · rintro (hinto | ⟨name, -, hnotes⟩)
    · obtain ⟨into, hinto⟩ := Option.isSome_iff_exists.mp hinto
      obtain ⟨leg, hleg, htable, hname⟩ : ∃ leg, (switch, leg) ∈ l.legs p.graph ∧
          leg.deliveryTable? = some .nextHop ∧ leg.name ∈ Leg.deliveryNames := by
        rcases harrives.delivery_mem hinto p.graph with hleg | hleg
        · exact ⟨_, hleg, rfl, by simp [Leg.name, Leg.deliveryNames]⟩
        · exact ⟨_, hleg, rfl, by simp [Leg.name, Leg.deliveryNames]⟩
      rcases hl.answered hp hmake hleg htable with hdelivers | hnote
      · rcases hl.answered hp hmake (harrives.functionEgress_mem hinto p.graph) rfl with
          ⟨flow, hflow, hat, -⟩ | hnote
        · exact Or.inl ⟨⟨leg.name, hname, (hlegFlows _).symm ▸ hdelivers⟩, flow,
            (hlegFlows _).symm ▸ hflow, hat⟩
        · exact Or.inr ⟨_, hnote⟩
      · exact Or.inr ⟨_, hnote⟩
    · exact Or.inr ⟨name, hnotes⟩

def unlistedDeployment : Deployment where
  topology :=
    { forwarders :=
        [⟨"edge", some "openflow:1",
            [⟨"tunnel", .ip (.v4 192 0 2 1) none, some 10, none, none⟩], [], none, none, none⟩]
      serviceFunctions := chainDeployment.topology.serviceFunctions }

theorem hop_accounted_firewall :
    (fresh chainDeployment).Delivers chainDeployment shortPath 0 "openflow:1" := by
  obtain ⟨-, -, switch, hswitch, haccounted, -⟩ := hop_accounted_iff chainDeployment
    (fresh chainDeployment) shortPath _ rfl 0 ⟨"edge", "firewall", none, 255⟩ rfl
  cases hswitch
  rcases haccounted.mpr (Or.inl (by decide)) with
    hdelivers | ⟨name, skipped, hskipped, -, -, hreason⟩
  · exact hdelivers
  · have hclean : ∀ skipped ∈ ((fresh chainDeployment).render chainDeployment
        shortPath).result.toOption.elim [] (·.skipped), skipped.reason = .notRequired := by
      decide +kernel
    exact absurd (hclean skipped hskipped) hreason

/-- Where the forwarder does not list the firewall, nothing is staged for it and nothing noted. -/
theorem hop_not_accounted :
    ¬ ∀ (d : Deployment) (log : List Reply) (r : Renderer), Reached d ({} : FlowSink) log r →
      ∀ path report, (r.render d path).result = .ok report →
        ∀ i hop, path.hops[i]? = some hop → ∀ switch, d.switchOf? hop = some switch →
          r.Delivers d path i switch ∨ ∃ name, report.Notes i name := by
  intro haccounted
  have hedge := haccounted unlistedDeployment [] (fresh unlistedDeployment) .start shortPath _ rfl 0
    _ rfl "openflow:1" rfl
  have hnone : (fresh unlistedDeployment).legFlows unlistedDeployment shortPath 0
      "sf-transport-egress" = [] := by
    decide +kernel
  have hclean : ∀ skipped ∈ ((fresh unlistedDeployment).render unlistedDeployment
      shortPath).result.toOption.elim [] (·.skipped), skipped.reason = .notRequired := by
    decide +kernel
  rcases hedge with ⟨-, flow, hflow, -⟩ | ⟨name, skipped, hskipped, -, -, hreason⟩
  · rw [hnone] at hflow
    cases hflow
  · exact hreason (hclean skipped hskipped)

end Renderer
end ServiceChain
