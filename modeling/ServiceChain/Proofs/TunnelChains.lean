import ServiceChain.Proofs.HopLegs
import ServiceChain.Proofs.Replacement

/-! Chains through tunnels. Where nothing is missing, each switch of a path has the flows that
bring a packet to the function of its hop, those that bring it on to the next forwarder, and in the
end those that bring it out of the path. -/
namespace ServiceChain

theorem HopEntry.hopIngress_resolveLocators {t : Topology} {e : HopEntry} {name : String}
    (hdst : e.dst = .forwarder name) (hcross : e.isSameForwarder = false) :
    (e.resolveLocators t).hopIngress =
      (e.resolveLocators t).dstIngressLocator.bind (t.locator? name) := by
  simp [resolveLocators, hcross, hdst]

namespace Plan

variable {d : Deployment} {pool : VlanPool} {path : ServicePath} {p : Plan} {i : Nat}
  {l : LocatedEntry}

theorem entries_of_make (hplan : (make d pool path).1 = .ok p) (hvlan : p.variant ≠ .vlan)
    (hplain : p.variant ≠ .logicalForwarder) :
    p.graph.entries = (HopGraph.chainOf d path).map fun e =>
      (p.variant.nameEntry d.topology e).resolveLocators d.topology := by
  simp only [make] at hplan
  split at hplan
  · cases hplan
  · next g hbuild =>
    obtain ⟨-, rfl, -⟩ := HopGraph.build_ok hbuild
    split at hplan
    · cases hplan
    · next v _ =>
      cases hplan
      cases v with
      | vlan => exact absurd rfl hvlan
      | logicalForwarder => exact absurd rfl hplain
      | nshTunnel | nshEthernet | mpls | macChaining =>
        simp [Variant.resolveLocators, Variant.nameLocators, HopGraph.mapEntries,
          Function.comp_def]

theorem Locates.hopIngress_eq (h : p.Locates d i l) (hplan : (make d pool path).1 = .ok p)
    (hvlan : p.variant ≠ .vlan) (hplain : p.variant ≠ .logicalForwarder) {name : String}
    (hdst : l.entry.dst = .forwarder name) (hcross : l.entry.isSameForwarder = false) :
    l.entry.hopIngress = l.dstIngress := by
  obtain ⟨-, -, -, hingress⟩ := LocatedEntry.parts_of_locate h.located
  have hmem := List.mem_of_getElem? h.entry
  rw [entries_of_make hplan hvlan hplain] at hmem
  obtain ⟨built, -, hbuilt⟩ := List.mem_map.mp hmem
  have hbare : (p.variant.nameEntry d.topology built).bare = l.entry.bare := by
    rw [← hbuilt, HopEntry.bare_resolveLocators]
  have hname : (p.variant.nameEntry d.topology built).dst = .forwarder name :=
    (congrArg HopEntry.dst hbare).trans hdst
  have hapart : (p.variant.nameEntry d.topology built).isSameForwarder = false :=
    (congrArg HopEntry.isSameForwarder hbare).trans hcross
  rw [hingress, hdst, ← hbuilt]
  exact HopEntry.hopIngress_resolveLocators hname hapart

end Plan

namespace NshTunnel

/-- What packets are sent to: the end of a tunnel, or the MAC address of a function. -/
inductive Target where
  | tunnel (ip : IpAddress)
  | mac (address : MacAddress)
  deriving DecidableEq, Repr

namespace Target

def set : Target → FlowAction
  | tunnel ip => .setTunnelDst ip
  | mac address => .setEthDst address

def narrow (m : FlowMatch) : Target → FlowMatch
  | tunnel ip => m.withTunDst (some ip)
  | mac address => m.withEthDst (some address)

end Target

/-- A function that is reached by MAC address is sent to there, any other through a tunnel. -/
def target? (a : Attachment) : Option Target :=
  if isMacAttached a then a.mac?.map .mac else a.ip?.map .tunnel

def Admits (flows : List Flow) (tables : TableNumbers) (id : PathId) (switch : SwitchId) : Prop :=
  ∃ flow ∈ flows,
    flow.Serves tables id switch .transportIngress (FlowMatch.any.withNsp id) ∧
      flow.GoesTo tables .nextHop

def Readdresses (flows : List Flow) (tables : TableNumbers) (id : PathId) (switch : SwitchId)
    (index : ServiceIndex) (target : Target) : Prop :=
  ∃ flow ∈ flows,
    flow.Serves tables id switch .nextHop (FlowMatch.any.withNsh id index) ∧
      target.set ∈ flow.actions ∧ flow.GoesTo tables .transportEgress

def Emits (flows : List Flow) (tables : TableNumbers) (id : PathId) (switch : SwitchId)
    (index : ServiceIndex) (target : Target) : Prop :=
  ∃ flow ∈ flows,
    flow.Serves tables id switch .transportEgress
        (target.narrow (FlowMatch.any.withNsh id index)) ∧
      flow.SendsOut

/-- Packets of a path with this index are sent to the target, out of the switch. -/
structure Forwards (flows : List Flow) (tables : TableNumbers) (id : PathId) (switch : SwitchId)
    (index : ServiceIndex) (target : Target) : Prop where
  readdressed : Readdresses flows tables id switch index target
  emitted : Emits flows tables id switch index target

/-- At the end of a path packets without context leave without a header, others go where their
context says, and those for the forwarder itself go to the other application. -/
structure Exits (flows : List Flow) (c : Config) (id : PathId) (switch : SwitchId)
    (index : ServiceIndex) : Prop where
  plain : ∃ flow ∈ flows, flow.role = .lastHopEgress ∧
    flow.Serves c.standardTables id switch .transportEgress
      ((FlowMatch.any.withNsh id index).withNshC1 0) ∧
    .popNsh ∈ flow.actions
  context : ∃ flow ∈ flows, flow.role = .nshContextEgress ∧
    flow.Serves c.standardTables id switch .transportEgress (FlowMatch.any.withNsh id index) ∧
    .moveContextToTunnelDst ∈ flow.actions ∧ flow.SendsOut
  coexistence : ∃ flow ∈ flows, ∃ ip, flow.role = .appCoexistenceEgress ∧
    flow.Serves c.standardTables id switch .transportEgress
      ((FlowMatch.any.withNsh id index).withTunDst ip) ∧
    .popNsh ∈ flow.actions ∧ .resubmit (.raw c.appCoexistenceTable) ∈ flow.actions

variable {ctx : LegContext} {e : HopEntry} {tables : TableNumbers} {switch : SwitchId}
  {flows : List Flow}

theorem admits_forwarderIngress
    (h : (emit ctx e .forwarderIngress).Staged tables ctx.pathId switch flows) :
    Admits flows tables ctx.pathId switch :=
  ⟨_, h.mem, FlowTemplate.serves_on tables ctx.pathId switch _,
    FlowTemplate.goesTo_ingress tables ctx.pathId switch _ _ _⟩

theorem readdresses_throughTunnel {ip : IpAddress}
    (h : (throughTunnel ctx e ip).Staged tables ctx.pathId switch flows) :
    Readdresses flows tables ctx.pathId switch e.index (.tunnel ip) :=
  ⟨_, h.mem, FlowTemplate.serves_on tables ctx.pathId switch _,
    by simp [FlowAction.numbered, Target.set], FlowTemplate.goesTo_nextHop ..⟩

theorem readdresses_deliver {srcMac : Option MacAddress} {dst : Attachment}
    (h : (deliver ctx e srcMac dst).Staged tables ctx.pathId switch flows)
    (hcomplete : (deliver ctx e srcMac dst).Complete) :
    ∃ target, target? dst = some target ∧
      Readdresses flows tables ctx.pathId switch e.index target := by
  unfold deliver at h hcomplete
  split at h
  · next hmac =>
    rw [if_pos hmac] at hcomplete
    unfold NshEthernet.deliver at h hcomplete
    split at h
    · next mac haddress =>
      refine ⟨.mac mac, by simp [target?, hmac, haddress], _, h.mem,
        FlowTemplate.serves_on tables ctx.pathId switch _, ?_, FlowTemplate.goesTo_nextHop ..⟩
      simp [FlowAction.numbered, Target.set]
    · next hnone =>
      rw [hnone] at hcomplete
      exact absurd hcomplete (LegOutcome.not_complete_missing _)
  · next hmac =>
    rw [if_neg hmac] at hcomplete
    split at h
    · next ip haddress =>
      exact ⟨.tunnel ip, by simp [target?, hmac, haddress], readdresses_throughTunnel h⟩
    · next hnone =>
      rw [hnone] at hcomplete
      exact absurd hcomplete (LegOutcome.not_complete_missing _)

theorem emits_functionEgress {dst : Attachment} {target : Target}
    (htarget : target? dst = some target)
    (h : (emit ctx e (.functionEgress dst)).Staged tables ctx.pathId switch flows) :
    Emits flows tables ctx.pathId switch e.index target := by
  unfold target? at htarget
  simp only [emit] at h
  split at h
  · next hmac =>
    rw [if_pos hmac] at htarget
    obtain ⟨mac, haddress, rfl⟩ := Option.map_eq_some_iff.mp htarget
    simp only [NshEthernet.emit, haddress] at h
    exact ⟨_, h.mem, FlowTemplate.serves_on tables ctx.pathId switch _,
      FlowTemplate.sendsOut_egress tables ctx.pathId switch _ _ _ (List.mem_singleton.mpr rfl)⟩
  · next hmac =>
    rw [if_neg hmac] at htarget
    obtain ⟨ip, haddress, rfl⟩ := Option.map_eq_some_iff.mp htarget
    rw [haddress] at h
    split at h
    · exact ⟨_, h.mem, FlowTemplate.serves_on tables ctx.pathId switch _, .loopback,
        List.mem_singleton.mpr rfl⟩
    · exact ⟨_, h.mem, FlowTemplate.serves_on tables ctx.pathId switch _,
        FlowTemplate.sendsOut_egress tables ctx.pathId switch _ _ _ (List.mem_singleton.mpr rfl)⟩

theorem forwards_functionToForwarder {back : Attachment} {ingress srcEgress : Option BoundLocator}
    (hdst : e.dst ≠ .egress)
    (h : (emit ctx e (.functionToForwarder back ingress)).Staged tables ctx.pathId switch flows)
    (hcomplete : (emit ctx e (.functionToForwarder back ingress)).Complete)
    (hemit : (emit ctx e (.forwarderEgress srcEgress ingress ingress)).Staged tables ctx.pathId
      switch flows) :
    ∃ ip, ingress.bind (·.ip?) = some ip ∧
      Forwards flows tables ctx.pathId switch e.index (.tunnel ip) := by
  simp only [emit, if_neg hdst] at h hcomplete
  split at h
  · next ip haddress =>
    simp only [emit, haddress] at hemit
    exact ⟨ip, haddress, readdresses_throughTunnel h, _, hemit.mem,
      FlowTemplate.serves_on tables ctx.pathId switch _,
      FlowTemplate.sendsOut_egress tables ctx.pathId switch _ _ _ (List.mem_singleton.mpr rfl)⟩
  · next hnone =>
    rw [hnone] at hcomplete
    exact absurd hcomplete (LegOutcome.not_complete_missing _)

theorem exits_terminalEgress (src : Option Attachment) {pathEgress : Option BoundLocator}
    (h : (emit ctx e (.terminalEgress src pathEgress)).Staged ctx.config.standardTables ctx.pathId
      switch flows) :
    Exits flows ctx.config ctx.pathId switch e.index := by
  have hon := FlowTemplate.serves_on ctx.config.standardTables ctx.pathId switch
  constructor
  · exact ⟨_, h _ (.head _), rfl, hon _, .head _⟩
  · exact ⟨_, h _ (.tail _ (.head _)), rfl, hon _, .head _,
      FlowTemplate.sendsOut_egress _ _ _ _ _ _ (.tail _ (.head _))⟩
  · exact ⟨_, h _ (.tail _ (.tail _ (.head _))), _, rfl, hon _, .head _, .tail _ (.head _)⟩

end NshTunnel

namespace Plan

variable {d : Deployment} {pool : VlanPool} {path : ServicePath} {p : Plan}
  {initialized : List SwitchId} {c : Compilation} {i : Nat} {hop next : Hop}

/-- On its switch, a hop has the flows that bring packets to its function. -/
theorem tunnel_hop (hp : p.Carries d path) (hmake : Compilation.make d p initialized = .ok c)
    (hv : p.variant = .nshTunnel)
    (hclean : ∀ skipped ∈ c.skipped, skipped.reason = .notRequired)
    (hhop : path.hops[i]? = some hop) (hresolves : d.Resolves path hop) :
    ∃ switch into target, d.switchOf? hop = some switch ∧ d.inlet? path hop = some into ∧
      NshTunnel.target? into = some target ∧
      NshTunnel.Admits c.batch.flows d.config.standardTables path.id switch ∧
      NshTunnel.Forwards c.batch.flows d.config.standardTables path.id switch hop.index target := by
  obtain ⟨l, switch, hl, hswitch, harrives⟩ := exists_arrival hp hmake hhop
  obtain ⟨into, hinto⟩ := Option.isSome_iff_exists.mp hresolves.1
  have hadmits := hl.staged_plain hp hmake hv (by decide) (harrives.forwarderIngress_mem p.graph)
  have hemits := hl.staged_plain hp hmake hv (by decide) (harrives.functionEgress_mem hinto p.graph)
  obtain ⟨target, htarget, hreaddresses⟩ : ∃ target, NshTunnel.target? into = some target ∧
      NshTunnel.Readdresses c.batch.flows d.config.standardTables path.id switch l.entry.index
        target := by
    rcases harrives.delivery_mem hinto p.graph with hleg | hleg <;>
      exact NshTunnel.readdresses_deliver (hl.staged_plain hp hmake hv (by decide) hleg)
        (hl.complete hp hmake hv hclean hleg)
  rw [← harrives.index]
  exact ⟨switch, into, target, hswitch, hinto, htarget,
    NshTunnel.admits_forwarderIngress (e := l.entry) hadmits, hreaddresses,
    NshTunnel.emits_functionEgress htarget hemits⟩

theorem tunnel_link (hplan : (make d pool path).1 = .ok p)
    (hmake : Compilation.make d p initialized = .ok c) (hv : p.variant = .nshTunnel)
    (hclean : ∀ skipped ∈ c.skipped, skipped.reason = .notRequired)
    (hresolves : ∀ hop ∈ path.hops, d.Resolves path hop) (hhop : path.hops[i]? = some hop)
    (hnext : path.hops[i + 1]? = some next) (hcross : hop.forwarder ≠ next.forwarder) :
    ∃ switch name ip, d.switchOf? hop = some switch ∧
      (d.topology.locator? next.forwarder name).bind (·.ip?) = some ip ∧
      NshTunnel.Forwards c.batch.flows d.config.standardTables path.id switch next.index
        (.tunnel ip) := by
  have hp : p.Carries d path := make_ok (Prod.ext hplan rfl)
  obtain ⟨l, switch, dst, back, into, hl, hswitch, -, -, -, harrives, hleaves, hlegs⟩ :=
    exists_link hp hmake (by simp [hv]) hhop hnext hcross
      (hresolves hop (List.mem_of_getElem? hhop)).2 (hresolves next (List.mem_of_getElem? hnext)).1
  have hentry : l.entry.hopIngress = l.dstIngress :=
    hl.hopIngress_eq hplan (by simp [hv]) (by simp [hv]) harrives.dst
      (LocatedEntry.isSameForwarder_eq_false harrives hleaves hcross)
  have hforward : (switch, Leg.functionToForwarder back l.dstIngress) ∈ l.legs p.graph := by
    simp [hlegs, LocatedEntry.linkLegs]
  have hemit : (switch, Leg.forwarderEgress l.srcEgress l.dstIngress l.dstIngress) ∈
      l.legs p.graph := by
    simp [hlegs, LocatedEntry.linkLegs, hentry]
  obtain ⟨ip, hip, hforwards⟩ := @NshTunnel.forwards_functionToForwarder _ _ _ _ _ back _ _
    (by simp [harrives.dst]) (hl.staged_plain hp hmake hv (by decide) hforward)
    (hl.complete hp hmake hv hclean hforward) (hl.staged_plain hp hmake hv (by decide) hemit)
  obtain ⟨ingress, hingress, hsame⟩ := Option.bind_eq_some_iff.mp hip
  obtain ⟨name, hname⟩ :=
    LocatedEntry.exists_locator_of_dstIngress hl.located harrives.dst hingress
  rw [harrives.index] at hforwards
  exact ⟨switch, name, ip, hswitch, by rw [hname]; exact hsame, hforwards⟩

theorem tunnel_exit (hp : p.Carries d path) (hmake : Compilation.make d p initialized = .ok c)
    (hv : p.variant = .nshTunnel) (hresolves : ∀ hop ∈ path.hops, d.Resolves path hop)
    (hlast : path.hops.getLast? = some hop) :
    ∃ switch, d.switchOf? hop = some switch ∧
      NshTunnel.Exits c.batch.flows d.config path.id switch (hop.index - 1) := by
  obtain ⟨l, switch, back, hl, hswitch, -, hleaves, hlegs⟩ := exists_exit hp hmake (by simp [hv])
    hlast (hresolves hop (List.mem_of_getLast? hlast)).2
  have hterminal : (switch, Leg.terminalEgress (some back) l.entry.pathEgress) ∈
      l.legs p.graph := by
    simp [hlegs, LocatedEntry.exitLegs]
  rw [← hleaves.index]
  exact ⟨switch, hswitch, NshTunnel.exits_terminalEgress (some back)
    (hl.staged_plain hp hmake hv (by decide) hterminal)⟩

end Plan

namespace Renderer

variable {σ : Type} [FlowDestination σ]

/-- A chain through tunnels is complete if its report is clean. All that is offered is taken. Every
hop's switch admits the path's packets, and sends those with the hop's index to the function's
target. Where the next hop is on another forwarder, the switch sends them to an address of that.
Behind the last hop they leave the path. -/
theorem tunnel_chain_complete (d : Deployment) (r : Renderer σ) (path : ServicePath)
    (report : RenderReport) (h : (r.render d path).result = .ok report)
    (hvariant : report.variant = .nshTunnel) (hresolves : ∀ hop ∈ path.hops, d.Resolves path hop)
    (hclean : report.Clean) :
    FlowDestination.commit r.sink (r.render d path).trace.offered =
        .ok (r.render d path).renderer.sink ∧
      (∀ hop ∈ path.hops, ∃ switch into target, d.switchOf? hop = some switch ∧
        d.inlet? path hop = some into ∧ NshTunnel.target? into = some target ∧
        NshTunnel.Admits (r.render d path).trace.offered d.config.standardTables path.id switch ∧
        NshTunnel.Forwards (r.render d path).trace.offered d.config.standardTables path.id switch
          hop.index target) ∧
      (∀ i hop next, path.hops[i]? = some hop → path.hops[i + 1]? = some next →
        hop.forwarder ≠ next.forwarder → ∃ switch name ip, d.switchOf? hop = some switch ∧
          (d.topology.locator? next.forwarder name).bind (·.ip?) = some ip ∧
          NshTunnel.Forwards (r.render d path).trace.offered d.config.standardTables path.id switch
            next.index (.tunnel ip)) ∧
      ∀ last, path.hops.getLast? = some last → ∃ switch, d.switchOf? last = some switch ∧
        NshTunnel.Exits (r.render d path).trace.offered d.config path.id switch
          (last.index - 1) := by
  obtain ⟨p, c, hplan, hmake, -, rfl, -, hoffered⟩ := render_taken h
  have hp : p.Carries d path := Plan.make_ok (Prod.ext hplan rfl)
  have hserved : ∀ hop ∈ path.hops, ∃ switch into target, d.switchOf? hop = some switch ∧
      d.inlet? path hop = some into ∧ NshTunnel.target? into = some target ∧
      NshTunnel.Admits c.batch.flows d.config.standardTables path.id switch ∧
      NshTunnel.Forwards c.batch.flows d.config.standardTables path.id switch hop.index
        target := by
    intro hop hhop
    obtain ⟨i, hnumber⟩ := List.getElem?_of_mem hhop
    exact Plan.tunnel_hop hp hmake hvariant hclean hnumber (hresolves hop hhop)
  rw [hoffered]
  refine ⟨?_, hserved, fun i hop next hhop hnext hcross => ?_, fun last hlast => ?_⟩
  · obtain ⟨first, hfirst⟩ := List.exists_mem_of_ne_nil _ hp.hops_ne_nil
    obtain ⟨_, _, _, -, -, -, ⟨flow, hflow, -⟩, -⟩ := hserved first hfirst
    rw [← hoffered] at hflow ⊢
    exact commit_render h hflow
  · exact Plan.tunnel_link hplan hmake hvariant hclean hresolves hhop hnext hcross
  · exact Plan.tunnel_exit hp hmake hvariant hresolves hlast

/-- Rendered with the inspector after the firewall, the path goes through the tunnel between them
and ends behind the inspector. -/
theorem tunnel_chain_complete_long :
    (∃ ip, NshTunnel.Forwards ((fresh chainDeployment).render chainDeployment
        longPath).trace.offered chainDeployment.config.standardTables 1 "openflow:1" 254
        (.tunnel ip)) ∧
      NshTunnel.Exits ((fresh chainDeployment).render chainDeployment longPath).trace.offered
        chainDeployment.config 1 "openflow:2" 253 := by
  obtain ⟨-, -, hlinks, hexits⟩ := tunnel_chain_complete chainDeployment (fresh chainDeployment)
    longPath _ rfl rfl (by decide +kernel) (by decide +kernel)
  obtain ⟨switch, -, ip, hswitch, -, hforwards⟩ := hlinks 0 _ _ rfl rfl (by decide)
  obtain ⟨last, hlast, hexit⟩ := hexits _ rfl
  cases hswitch
  cases hlast
  exact ⟨⟨ip, hforwards⟩, hexit⟩

end Renderer
end ServiceChain
