import ServiceChain.Proofs.HopLegs
import ServiceChain.Proofs.PathIsolation

/-! Chains of synthetic addresses. What a function sends back is addressed to the index after its
own, and where nothing is missing there are flows for that address: on the same switch up to the
next function, or on to the next forwarder, or out of the path. -/
namespace ServiceChain

/-- The function of the hop sends frames back with the addresses it got them with. -/
def Deployment.isTransparent (d : Deployment) (hop : Hop) : Bool :=
  (d.topology.serviceFunction? hop.serviceFunction).any (·.transparent)

theorem Topology.transparent_of_attachment? {t : Topology} {forwarder function : String}
    {direction : Direction} {crossing : ServiceChain.Crossing} {a : Attachment}
    (h : t.attachment? forwarder function direction crossing = some a) :
    (t.serviceFunction? function).any (·.transparent) = a.transparent := by
  obtain ⟨f, -, h⟩ := Option.bind_eq_some_iff.mp h
  obtain ⟨sf, hsf, h⟩ := Option.bind_eq_some_iff.mp h
  obtain ⟨entry, -, h⟩ := Option.bind_eq_some_iff.mp h
  obtain ⟨locator, -, h⟩ := Option.bind_eq_some_iff.mp h
  cases h
  simp [hsf]

namespace MacChaining

/-- Some flow admits what is addressed to this index. -/
def Admits (flows : List Flow) (tables : TableNumbers) (id : PathId) (switch : SwitchId)
    (index : ServiceIndex) : Prop :=
  ∃ flow ∈ flows,
    flow.Serves tables id switch .transportIngress (toAddress (.synthetic id index)) ∧
      flow.GoesTo tables .nextHop

/-- What is addressed to this index is admitted, readdressed from the next index to the function at
`mac`, and sent out to there. What comes back to the next index is admitted. -/
structure Delivers (flows : List Flow) (tables : TableNumbers) (id : PathId) (switch : SwitchId)
    (index : ServiceIndex) (mac : MacAddress) : Prop where
  admitted : Admits flows tables id switch index
  readdressed : ∃ flow ∈ flows,
    flow.Serves tables id switch .nextHop (toAddress (.synthetic id index)) ∧
      flow.actions = [.setEthSrc (.synthetic id (index - 1)), .setEthDst mac,
        .goto (.raw (tables.resolve .transportEgress))]
  sent : ∃ flow ∈ flows,
    flow.Serves tables id switch .transportEgress (between (.synthetic id (index - 1)) mac) ∧
      ∃ port, flow.actions = [.output (.number port)]
  answered : Admits flows tables id switch (index - 1)

/-- What is addressed to this index leaves by a port as it is. -/
structure Passes (flows : List Flow) (tables : TableNumbers) (id : PathId) (switch : SwitchId)
    (index : ServiceIndex) : Prop where
  kept : ∃ flow ∈ flows,
    flow.Serves tables id switch .nextHop (toAddress (.synthetic id index)) ∧
      flow.actions = [.goto (.raw (tables.resolve .transportEgress))]
  sent : ∃ flow ∈ flows,
    flow.Serves tables id switch .transportEgress (toAddress (.synthetic id index)) ∧
      ∃ port, flow.actions = [.output (.number port)]

variable {ctx : LegContext} {e : HopEntry} {tables : TableNumbers} {switch : SwitchId}
  {flows : List Flow}

theorem reply_eq (hpos : 0 < e.index.toNat) :
    reply ctx e = .synthetic ctx.pathId (e.index - 1) := by
  rw [reply, ← HopGraph.toNat_pred hpos, UInt8.ofNat_toNat]

theorem admits_forwarderIngress
    (h : (emit ctx e .forwarderIngress).Staged tables ctx.pathId switch flows) :
    Admits flows tables ctx.pathId switch e.index :=
  ⟨_, h.mem, FlowTemplate.serves_on tables ctx.pathId switch _,
    FlowTemplate.goesTo_ingress tables ctx.pathId switch _ _ _⟩

theorem admits_functionIngress {dst : Attachment} (hpos : 0 < e.index.toNat)
    (hplain : dst.transparent = false)
    (h : (emit ctx e (.functionIngress dst)).Staged tables ctx.pathId switch flows) :
    Admits flows tables ctx.pathId switch (e.index - 1) := by
  simp only [emit, functionIngress, hplain, reply_eq hpos, Bool.false_eq_true, if_false] at h
  exact ⟨_, h.mem, FlowTemplate.serves_on tables ctx.pathId switch _,
    FlowTemplate.goesTo_ingress tables ctx.pathId switch _ _ _⟩

theorem readdressed_deliver {dst : Attachment} (hpos : 0 < e.index.toNat)
    (h : (deliver ctx e (toAddress (address ctx e)) dst).Staged tables ctx.pathId switch flows)
    (hcomplete : (deliver ctx e (toAddress (address ctx e)) dst).Complete) :
    ∃ mac, dst.mac? = some mac ∧ ∃ flow ∈ flows,
      flow.Serves tables ctx.pathId switch .nextHop
          (toAddress (.synthetic ctx.pathId e.index)) ∧
        flow.actions = [.setEthSrc (.synthetic ctx.pathId (e.index - 1)), .setEthDst mac,
          .goto (.raw (tables.resolve .transportEgress))] := by
  unfold deliver at h hcomplete
  split at h
  · next mac hmac =>
    refine ⟨mac, hmac, _, h.mem, FlowTemplate.serves_on tables ctx.pathId switch _, ?_⟩
    simp [FlowAction.numbered, reply_eq hpos]
  · next hnone =>
    rw [hnone] at hcomplete
    exact absurd hcomplete (LegOutcome.not_complete_missing _)

theorem sent_sendOut {role : FlowRole} {m : FlowMatch} {port : Option UInt32} {part : MissingPart}
    {id : PathId} (h : (sendOut role m port part).Staged tables id switch flows)
    (hcomplete : (sendOut role m port part).Complete) :
    ∃ flow ∈ flows, flow.Serves tables id switch .transportEgress m ∧
      ∃ port, flow.actions = [.output (.number port)] := by
  unfold sendOut at h hcomplete
  split at h
  · next port =>
    exact ⟨_, h.mem, FlowTemplate.serves_on tables id switch _, port, rfl⟩
  · exact absurd hcomplete (LegOutcome.not_complete_missing _)

theorem sent_functionEgress {dst : Attachment} {mac : MacAddress} (hpos : 0 < e.index.toNat)
    (hmac : dst.mac? = some mac)
    (h : (emit ctx e (.functionEgress dst)).Staged tables ctx.pathId switch flows)
    (hcomplete : (emit ctx e (.functionEgress dst)).Complete) :
    ∃ flow ∈ flows,
      flow.Serves tables ctx.pathId switch .transportEgress
          (between (.synthetic ctx.pathId (e.index - 1)) mac) ∧
        ∃ port, flow.actions = [.output (.number port)] := by
  simp only [emit, reply_eq hpos, hmac] at h hcomplete
  exact sent_sendOut h hcomplete

theorem kept_functionToForwarder {src : Attachment} (ingress : Option BoundLocator)
    (hplain : src.transparent = false)
    (h : (emit ctx e (.functionToForwarder src ingress)).Staged tables ctx.pathId switch flows) :
    ∃ flow ∈ flows,
      flow.Serves tables ctx.pathId switch .nextHop
          (toAddress (.synthetic ctx.pathId e.index)) ∧
        flow.actions = [.goto (.raw (tables.resolve .transportEgress))] := by
  simp only [emit, functionToForwarder, hplain, Bool.false_eq_true, if_false] at h
  exact ⟨_, h.mem, FlowTemplate.serves_on tables ctx.pathId switch _, rfl⟩

end MacChaining

namespace Plan

variable {d : Deployment} {path : ServicePath} {p : Plan} {initialized : List SwitchId}
  {c : Compilation} {i : Nat} {hop next : Hop}

/-- On its switch, a hop has the flows that bring packets to its function and admit the answer. -/
theorem chained_hop (hp : p.Carries d path) (hmake : Compilation.make d p initialized = .ok c)
    (hv : p.variant = .macChaining)
    (hclean : ∀ skipped ∈ c.skipped, skipped.reason = .notRequired)
    (hhop : path.hops[i]? = some hop) (hresolves : d.Resolves path hop)
    (hplain : d.isTransparent hop = false) :
    ∃ switch into mac, d.switchOf? hop = some switch ∧ d.inlet? path hop = some into ∧
      into.mac? = some mac ∧
      MacChaining.Delivers c.batch.flows d.config.standardTables path.id switch hop.index mac := by
  obtain ⟨l, switch, hl, hswitch, harrives⟩ := exists_arrival hp hmake hhop
  obtain ⟨into, hinto⟩ := Option.isSome_iff_exists.mp hresolves.1
  have hanswers : into.transparent = false :=
    (Topology.transparent_of_attachment? hinto).symm.trans hplain
  have hpos : 0 < l.entry.index.toNat := by
    rw [harrives.index]
    exact (HopGraph.index_of_checkHops hp.checked hhop).2
  have hingress := harrives.forwarderIngress_mem p.graph
  have hanswer := harrives.functionIngress_mem hinto p.graph
  have hegress := harrives.functionEgress_mem hinto p.graph
  obtain ⟨mac, hmac, hreaddressed⟩ : ∃ mac, into.mac? = some mac ∧ ∃ flow ∈ c.batch.flows,
      flow.Serves d.config.standardTables path.id switch .nextHop
          (MacChaining.toAddress (.synthetic path.id l.entry.index)) ∧
        flow.actions = [.setEthSrc (.synthetic path.id (l.entry.index - 1)), .setEthDst mac,
          .goto (.raw (d.config.standardTables.resolve .transportEgress))] := by
    rcases harrives.delivery_mem hinto p.graph with hleg | hleg <;>
      exact MacChaining.readdressed_deliver hpos (hl.staged_plain hp hmake hv (by decide) hleg)
        (hl.complete hp hmake hv hclean hleg)
  rw [← harrives.index]
  exact ⟨switch, into, mac, hswitch, hinto, hmac,
    { admitted :=
        MacChaining.admits_forwarderIngress (hl.staged_plain hp hmake hv (by decide) hingress)
      readdressed := hreaddressed
      sent := MacChaining.sent_functionEgress hpos hmac
        (hl.staged_plain hp hmake hv (by decide) hegress) (hl.complete hp hmake hv hclean hegress)
      answered := MacChaining.admits_functionIngress hpos hanswers
        (hl.staged_plain hp hmake hv (by decide) hanswer) }⟩

theorem chained_link (hp : p.Carries d path) (hmake : Compilation.make d p initialized = .ok c)
    (hv : p.variant = .macChaining)
    (hclean : ∀ skipped ∈ c.skipped, skipped.reason = .notRequired)
    (hresolves : ∀ hop ∈ path.hops, d.Resolves path hop)
    (hplain : ∀ hop ∈ path.hops, d.isTransparent hop = false) (hhop : path.hops[i]? = some hop)
    (hnext : path.hops[i + 1]? = some next) (hcross : hop.forwarder ≠ next.forwarder) :
    ∃ switch, d.switchOf? hop = some switch ∧
      MacChaining.Passes c.batch.flows d.config.standardTables path.id switch next.index := by
  obtain ⟨l, switch, dst, back, into, hl, hswitch, -, hback, -, harrives, -, hlegs⟩ :=
    exists_link hp hmake (by simp [hv]) hhop hnext hcross
      (hresolves hop (List.mem_of_getElem? hhop)).2 (hresolves next (List.mem_of_getElem? hnext)).1
  have hanswers : back.transparent = false :=
    (Topology.transparent_of_attachment? hback).symm.trans
      (hplain hop (List.mem_of_getElem? hhop))
  have hforward : (switch, Leg.functionToForwarder back l.dstIngress) ∈ l.legs p.graph := by
    simp [hlegs, LocatedEntry.linkLegs]
  have hegress : (switch, Leg.forwarderEgress l.srcEgress l.dstIngress l.entry.hopIngress) ∈
      l.legs p.graph := by
    simp [hlegs, LocatedEntry.linkLegs]
  rw [← harrives.index]
  exact ⟨switch, hswitch,
    MacChaining.kept_functionToForwarder l.dstIngress hanswers
      (hl.staged_plain hp hmake hv (by decide) hforward),
    MacChaining.sent_sendOut (hl.staged_plain hp hmake hv (by decide) hegress)
      (hl.complete hp hmake hv hclean hegress)⟩

theorem chained_exit (hp : p.Carries d path) (hmake : Compilation.make d p initialized = .ok c)
    (hv : p.variant = .macChaining)
    (hclean : ∀ skipped ∈ c.skipped, skipped.reason = .notRequired)
    (hresolves : ∀ hop ∈ path.hops, d.Resolves path hop)
    (hplain : ∀ hop ∈ path.hops, d.isTransparent hop = false)
    (hlast : path.hops.getLast? = some hop) :
    ∃ switch, d.switchOf? hop = some switch ∧
      MacChaining.Passes c.batch.flows d.config.standardTables path.id switch
        (hop.index - 1) := by
  obtain ⟨l, switch, back, hl, hswitch, hback, hleaves, hlegs⟩ :=
    exists_exit hp hmake (by simp [hv]) hlast (hresolves hop (List.mem_of_getLast? hlast)).2
  have hanswers : back.transparent = false :=
    (Topology.transparent_of_attachment? hback).symm.trans
      (hplain hop (List.mem_of_getLast? hlast))
  have hforward : (switch, Leg.functionToForwarder back l.dstIngress) ∈ l.legs p.graph := by
    simp [hlegs, LocatedEntry.exitLegs]
  have hterminal : (switch, Leg.terminalEgress (some back) l.entry.pathEgress) ∈
      l.legs p.graph := by
    simp [hlegs, LocatedEntry.exitLegs]
  rw [← hleaves.index]
  exact ⟨switch, hswitch,
    MacChaining.kept_functionToForwarder l.dstIngress hanswers
      (hl.staged_plain hp hmake hv (by decide) hforward),
    MacChaining.sent_sendOut (hl.staged_plain hp hmake hv (by decide) hterminal)
      (hl.complete hp hmake hv hclean hterminal)⟩

end Plan

namespace Renderer

variable {σ : Type} [FlowDestination σ]

/-- A chain of synthetic addresses is complete if its report is clean and no function of it is
transparent. All that is offered is taken. No hop has index zero; its switch delivers what is
addressed to its index, and admits the answer, which is addressed to the index of the next hop.
Where that is on another forwarder, the switch lets it pass to there, and behind the last hop out of
the path. -/
theorem mac_chain_complete (d : Deployment) (r : Renderer σ) (path : ServicePath)
    (report : RenderReport) (h : (r.render d path).result = .ok report)
    (hvariant : report.variant = .macChaining)
    (hplain : ∀ hop ∈ path.hops, d.isTransparent hop = false)
    (hresolves : ∀ hop ∈ path.hops, d.Resolves path hop) (hclean : report.Clean) :
    FlowDestination.commit r.sink (r.render d path).trace.offered =
        .ok (r.render d path).renderer.sink ∧
      (∀ hop ∈ path.hops, hop.index ≠ 0 ∧ ∃ switch into mac, d.switchOf? hop = some switch ∧
        d.inlet? path hop = some into ∧ into.mac? = some mac ∧
        MacChaining.Delivers (r.render d path).trace.offered d.config.standardTables path.id switch
          hop.index mac) ∧
      (∀ i hop next, path.hops[i]? = some hop → path.hops[i + 1]? = some next →
        next.index = hop.index - 1 ∧
          (hop.forwarder ≠ next.forwarder → ∃ switch, d.switchOf? hop = some switch ∧
            MacChaining.Passes (r.render d path).trace.offered d.config.standardTables path.id
              switch next.index)) ∧
      ∀ last, path.hops.getLast? = some last → ∃ switch, d.switchOf? last = some switch ∧
        MacChaining.Passes (r.render d path).trace.offered d.config.standardTables path.id switch
          (last.index - 1) := by
  obtain ⟨p, c, hp, hmake, -, rfl, -, hoffered⟩ := render_ok h
  have hdelivered : ∀ hop ∈ path.hops, hop.index ≠ 0 ∧ ∃ switch into mac,
      d.switchOf? hop = some switch ∧ d.inlet? path hop = some into ∧ into.mac? = some mac ∧
      MacChaining.Delivers c.batch.flows d.config.standardTables path.id switch hop.index
        mac := by
    intro hop hhop
    obtain ⟨i, hnumber⟩ := List.getElem?_of_mem hhop
    obtain ⟨-, hpos⟩ := HopGraph.index_of_checkHops hp.checked hnumber
    refine ⟨fun hzero => ?_, Plan.chained_hop hp hmake hvariant hclean hnumber (hresolves hop hhop)
      (hplain hop hhop)⟩
    simp [hzero] at hpos
  rw [hoffered]
  refine ⟨?_, hdelivered, fun i hop next hhop hnext =>
    ⟨HopGraph.index_next hp.checked hhop hnext, fun hcross => ?_⟩, fun last hlast => ?_⟩
  · obtain ⟨first, hfirst⟩ := List.exists_mem_of_ne_nil _ hp.hops_ne_nil
    obtain ⟨-, _, _, _, -, -, -, ⟨flow, hflow, -⟩, -⟩ := hdelivered first hfirst
    rw [← hoffered] at hflow ⊢
    exact commit_render h hflow
  · exact Plan.chained_link hp hmake hvariant hclean hresolves hplain hhop hnext hcross
  · exact Plan.chained_exit hp hmake hvariant hclean hresolves hplain hlast

/-- Rendered by synthetic addresses, the path through both functions goes over the link between
their forwarders. -/
theorem mac_chain_complete_line :
    MacChaining.Passes ((fresh vlanDeployment).render vlanDeployment
        (chainedPath 4)).trace.offered vlanDeployment.config.standardTables 4 "openflow:10" 254 ∧
      MacChaining.Passes ((fresh vlanDeployment).render vlanDeployment
        (chainedPath 4)).trace.offered vlanDeployment.config.standardTables 4 "openflow:20"
          253 := by
  obtain ⟨-, -, hlinks, hexits⟩ := mac_chain_complete vlanDeployment (fresh vlanDeployment)
    (chainedPath 4) _ rfl rfl (by decide +kernel) (by decide +kernel) (by decide +kernel)
  obtain ⟨-, hpasses⟩ := hlinks 0 _ _ rfl rfl
  obtain ⟨near, hnear, hlink⟩ := hpasses (by decide)
  obtain ⟨far, hfar, hexit⟩ := hexits _ rfl
  cases hnear
  cases hfar
  exact ⟨hlink, hexit⟩

end Renderer
end ServiceChain
