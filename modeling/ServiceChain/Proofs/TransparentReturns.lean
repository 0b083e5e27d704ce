import ServiceChain.Proofs.MacChains
import ServiceChain.Proofs.ReturnTags
import ServiceChain.Proofs.ReturnTraffic

/-! Frames that pass through a transparent function. They come back with the addresses they were
delivered with, and that is how they are admitted; but the next hops go by the address of the
locator that the function hands traffic back from. -/
namespace ServiceChain

/-- The frame goes from one address to the other. -/
structure Packet.IsBetween (packet : Packet) (src dst : MacAddress) : Prop where
  ethSrc : packet.ethSrc = src
  ethDst : packet.ethDst = dst

def Packet.between (src dst : MacAddress) : Packet where
  inPort := .number 1
  ethType := 0x0800
  ethSrc := src
  ethDst := dst
  vlan := none
  mplsLabel := none
  nsp := none
  nsi := none
  nshC1 := none
  tunDst := none
  metadata := 0

theorem Packet.isBetween_between (src dst : MacAddress) : (between src dst).IsBetween src dst :=
  ⟨rfl, rfl⟩

namespace MacChaining

variable {src dst mac : MacAddress} {packet : Packet}

theorem covers_between : (between src dst).covers packet = true ↔ packet.IsBetween src dst := by
  have hfields : (between src dst).covers packet = true ↔
      packet.ethSrc = src ∧ packet.ethDst = dst := by
    simp [FlowMatch.covers, between, FlowMatch.withEthSrc, FlowMatch.withEthDst, FlowMatch.any]
  rw [hfields]
  exact ⟨fun h => ⟨h.1, h.2⟩, fun h => ⟨h.ethSrc, h.ethDst⟩⟩

theorem covers_between_iff (h : packet.IsBetween src dst) :
    (between src mac).covers packet = true ↔ mac = dst := by
  rw [covers_between]
  exact ⟨fun hmac => hmac.ethDst.symm.trans h.ethDst, fun hmac => ⟨h.ethSrc, hmac ▸ h.ethDst⟩⟩

theorem covers_toAddress_iff (h : packet.IsBetween src dst) :
    (toAddress mac).covers packet = true ↔ mac = dst := by
  rw [← h.ethDst]
  simp [FlowMatch.covers, toAddress, FlowMatch.withEthDst, FlowMatch.any, eq_comm]

variable {ctx : LegContext} {e : HopEntry} {leg : Leg} {into back : Attachment}

theorem emit_delivering (hmac : into.mac?.isSome)
    (hleg : leg = .gatewayToFunction into ∨
      ∃ srcEgress, leg = .forwarderToFunction srcEgress into) :
    ∃ actions, emit ctx e leg = .one (.nextHop (toAddress (address ctx e)) actions) := by
  obtain ⟨mac, hmac⟩ := Option.isSome_iff_exists.mp hmac
  rcases hleg with rfl | ⟨srcEgress, rfl⟩ <;> exact ⟨_, by simp only [emit, deliver, hmac]; rfl⟩

/-- What comes back from a transparent function is told by the address of the locator that it hands
traffic back from. -/
theorem emit_returning (htransparent : back.transparent = true) (hmac : back.mac? = some mac)
    (hleg : leg.returning? = some back)
    (hinto : ∀ into, leg = .functionToFunction back into → into.mac?.isSome) :
    ∃ actions, emit ctx e leg = .one (.nextHop (between (address ctx e) mac) actions) := by
  cases leg with
  | functionToFunction src into =>
    cases hleg
    obtain ⟨found, hfound⟩ := Option.isSome_iff_exists.mp (hinto into rfl)
    exact ⟨_, by simp only [emit, functionToFunction, htransparent, hmac, deliver, hfound]; rfl⟩
  | functionToGateway src | functionToForwarder src ingress =>
    cases hleg
    exact ⟨_, by simp only [emit, functionToForwarder, htransparent, hmac]; rfl⟩
  | _ => cases hleg

theorem table_of_role {t : FlowTemplate} (h : t ∈ (emit ctx e leg).templates)
    (hrole : t.role = .nextHop) : leg.table = .nextHop := by
  cases leg with
  | gatewayToFunction | forwarderToFunction | functionToGateway | functionToFunction
  | functionToForwarder => rfl
  | forwarderIngress =>
    cases List.mem_singleton.mp h
    cases hrole
  | functionIngress dst =>
    simp only [emit, functionIngress] at h
    split at h
    · split at h
      · cases List.mem_singleton.mp h
        cases hrole
      · cases h
    · cases List.mem_singleton.mp h
      cases hrole
  | forwarderMapper | functionMapper => cases h
  | functionEgress | forwarderEgress | terminalEgress =>
    obtain ⟨_, -, rfl⟩ := exists_of_mem_sendOut h
    cases hrole

end MacChaining

/-- One of the flows takes the packet on to its next hop, before the default flow of the table
does. -/
def TakesOnward (flows : List Flow) (tables : TableNumbers) (id : PathId) (switch : SwitchId)
    (packet : Packet) : Prop :=
  ∃ flow ∈ flows, flow.StandsIn tables id switch .nextHop ∧ flow.role = .nextHop ∧
    Priority.matchAny < flow.priority ∧ flow.flowMatch.covers packet = true

namespace LocatedEntry

variable {d : Deployment} {path : ServicePath} {l : LocatedEntry} {hop : Hop}
  {switch found : SwitchId} {leg : Leg} {back : Attachment} {backMac : MacAddress}

def Addressed (l : LocatedEntry) : Prop := ∀ into, l.dstFunction = some into → into.mac?.isSome

theorem LeavesFrom.emit_returning (hleaves : l.LeavesFrom d path hop switch) (id : PathId)
    (haddressed : l.Addressed) (hback : d.outlet? path hop = some back)
    (htransparent : back.transparent = true) (hmac : back.mac? = some backMac)
    (hleg : l.HasLeg found leg) (hreturning : leg.returning?.isSome) :
    found = switch ∧ ∃ actions, MacChaining.emit (d.legContext id) l.entry leg =
      .one (.nextHop (MacChaining.between (.synthetic id (hop.index - 1)) backMac) actions) := by
  obtain ⟨src, hreturning⟩ := Option.isSome_iff_exists.mp hreturning
  obtain ⟨hswitch, hsrc⟩ := hleg.of_returning? hreturning
  obtain rfl : src = back := Option.some.inj (hsrc.symm.trans (hleaves.srcFunction.trans hback))
  have hinto (into : Attachment) (h : leg = .functionToFunction src into) : into.mac?.isSome := by
    subst h
    cases hleg with
    | functionToFunction _ _ hdst _ => exact haddressed into hdst
  rw [← hleaves.index]
  exact ⟨Option.some.inj (hswitch.symm.trans hleaves.srcSwitch),
    MacChaining.emit_returning htransparent hmac hreturning hinto⟩

theorem LeavesFrom.emit_delivering (hleaves : l.LeavesFrom d path hop switch) (id : PathId)
    (haddressed : l.Addressed) (hleg : l.HasLeg found leg) (htable : leg.table = .nextHop)
    (hreturning : leg.returning? = none) :
    l.dstSwitch = some found ∧ ∃ actions, MacChaining.emit (d.legContext id) l.entry leg =
      .one (.nextHop (MacChaining.toAddress (.synthetic id (hop.index - 1))) actions) := by
  rw [← hleaves.index]
  rcases hleg.nextHop_cases htable with ⟨into, hswitch, hdst, rfl⟩ | ⟨src, -, -, hother⟩
  · refine ⟨hswitch, MacChaining.emit_delivering (haddressed into hdst) ?_⟩
    split <;> simp
  · rcases hother with ⟨-, rfl⟩ | ⟨-, _, -, rfl⟩ | ⟨-, rfl⟩ <;> cases hreturning

end LocatedEntry

namespace Plan

variable {d : Deployment} {path : ServicePath} {p : Plan} {i : Nat} {l : LocatedEntry} {hop : Hop}
  {switch : SwitchId} {intoMac backMac : MacAddress} {back : Attachment} {packet : Packet}

theorem Locates.addressed (hl : p.Locates d i l) (hp : p.Carries d path)
    (hnext : ∀ next, path.hops[i]? = some next →
      ((d.inlet? path next).bind (·.mac?)).isSome) : l.Addressed := by
  intro into hinto
  by_cases hend : l.entry.dst = .egress
  · simp [(LocatedEntry.parts_of_locate hl.located).2.1, hend, Endpoint.name?] at hinto
  · obtain ⟨next, _, hhop, -, harrives⟩ := hl.exists_arrival hp hend
    simpa [← harrives.dstFunction, hinto] using hnext next hhop

theorem mem_legFlows_chained (hp : p.Carries d path) (hv : p.variant = .macChaining) {leg : Leg}
    (hleg : (switch, leg) ∈ l.legs p.graph) {t : FlowTemplate}
    (hemit : MacChaining.emit (d.legContext path.id) l.entry leg = .one t) :
    t.on d.config.standardTables (.path path.id) switch ∈
      Compilation.legFlows d p l leg.name := by
  have hflow := Compilation.mem_legFlows hleg (t := t) (by rw [hp.pathId, hv]; exact hemit)
  rwa [hp.tables_plain (by simp [hv]), hp.pathId] at hflow

theorem takesOnward_of_leg (hp : p.Carries d path) (hv : p.variant = .macChaining) {leg : Leg}
    (hleg : (switch, leg) ∈ l.legs p.graph) {m : FlowMatch} {actions : List FlowAction}
    (hemit : MacChaining.emit (d.legContext path.id) l.entry leg = .one (.nextHop m actions))
    (hcovers : m.covers packet = true) :
    TakesOnward (Compilation.legFlows d p l leg.name) d.config.standardTables path.id switch
      packet :=
  ⟨_, mem_legFlows_chained hp hv hleg hemit, FlowTemplate.standsIn_on _ _ _ _, rfl,
    show Priority.matchAny < Priority.nextHop from by decide, hcovers⟩

/-- The frame that a transparent function sends back is taken on by the entry after its hop if it is
for the address that the function hands traffic back from, or if it happens to be addressed to that
entry and the next hop is on the same switch. -/
theorem takesOnward_iff (hl : p.Locates d (i + 1) l) (hp : p.Carries d path)
    (hv : p.variant = .macChaining) (hleaves : l.LeavesFrom d path hop switch)
    (hnext : ∀ next, path.hops[i + 1]? = some next →
      ((d.inlet? path next).bind (·.mac?)).isSome)
    (hback : d.outlet? path hop = some back) (htransparent : back.transparent = true)
    (hmac : back.mac? = some backMac)
    (hpacket : packet.IsBetween (.synthetic path.id (hop.index - 1)) intoMac) :
    (∃ name, TakesOnward (Compilation.legFlows d p l name) d.config.standardTables path.id switch
        packet) ↔
      backMac = intoMac ∨
        .synthetic path.id (hop.index - 1) = intoMac ∧ d.StaysOn path i switch := by
  have haddressed := hl.addressed hp hnext
  constructor
  · rintro ⟨name, flow, hflow, hstands, hrole, -, hcovers⟩
    obtain ⟨⟨found, leg⟩, hleg, hflow⟩ := List.mem_flatMap.mp hflow
    obtain ⟨t, ht, rfl⟩ := List.mem_map.mp hflow
    obtain rfl : found = switch := hstands.switch
    rw [hv, hp.pathId] at ht
    have hhas := LocatedEntry.hasLeg_of_mem_legs (List.mem_filter.mp hleg).1
    have htable := MacChaining.table_of_role ht hrole
    cases hreturning : leg.returning?.isSome with
    | true =>
      obtain ⟨-, actions, hemit⟩ := hleaves.emit_returning path.id haddressed hback htransparent
        hmac hhas hreturning
      simp only [Variant.emit, hemit] at ht
      cases List.mem_singleton.mp ht
      exact Or.inl ((MacChaining.covers_between_iff hpacket).mp hcovers)
    | false =>
      obtain ⟨hdst, actions, hemit⟩ := hleaves.emit_delivering path.id haddressed hhas htable
        (by simpa using hreturning)
      simp only [Variant.emit, hemit] at ht
      cases List.mem_singleton.mp ht
      obtain ⟨next, hhop, hswitch, -⟩ := hl.exists_hop hp hdst
      exact Or.inr ⟨(MacChaining.covers_toAddress_iff hpacket).mp hcovers, next, hhop, hswitch⟩
  · rintro (rfl | ⟨haddress, next, hhop, hswitch⟩)
    · have hknown (hsame : l.entry.isSameForwarder = true) : l.dstFunction.isSome := by
        by_cases hend : l.entry.dst = .egress
        · simp [HopEntry.isSameForwarder, hleaves.src, hend, Endpoint.name?] at hsame
        · obtain ⟨next, _, hhop, -, harrives⟩ := hl.exists_arrival hp hend
          exact harrives.dstFunction ▸ Option.isSome_of_isSome_bind (hnext next hhop)
      obtain ⟨leg, hleg, hreturning⟩ :=
        hleaves.exists_returning hback (hp.isLogical_eq_false (by simp [hv])) hknown
      obtain ⟨-, actions, hemit⟩ := hleaves.emit_returning path.id haddressed hback htransparent
        hmac (LocatedEntry.hasLeg_of_mem_legs hleg) (by simp [hreturning])
      exact ⟨leg.name, takesOnward_of_leg hp hv hleg hemit
        ((MacChaining.covers_between_iff hpacket).mpr rfl)⟩
    · obtain ⟨found, hfound, harrives⟩ := hl.arrivesAt hp hhop
      obtain rfl : found = switch := Option.some.inj (hfound.symm.trans hswitch)
      obtain ⟨into, hinto⟩ :=
        Option.isSome_iff_exists.mp (Option.isSome_of_isSome_bind (hnext next hhop))
      obtain ⟨leg, hleg, htable, hreturning⟩ : ∃ leg, (found, leg) ∈ l.legs p.graph ∧
          leg.table = .nextHop ∧ leg.returning? = none := by
        rcases harrives.delivery_mem hinto p.graph with hleg | hleg <;>
          exact ⟨_, hleg, rfl, rfl⟩
      obtain ⟨-, actions, hemit⟩ := hleaves.emit_delivering path.id haddressed
        (LocatedEntry.hasLeg_of_mem_legs hleg) htable hreturning
      exact ⟨leg.name, takesOnward_of_leg hp hv hleg hemit
        ((MacChaining.covers_toAddress_iff hpacket).mpr haddress)⟩

/-- The frame is admitted where the hop leads; and if the function is behind a port, it is also what
goes out to the function there. -/
theorem admitted_transparent (hp : p.Carries d path) (hv : p.variant = .macChaining)
    (hhop : path.hops[i]? = some hop)
    (harrives : l.ArrivesAt d path hop switch) {into : Attachment}
    (hinto : d.inlet? path hop = some into) (htransparent : into.transparent = true)
    (hmac : into.mac? = some intoMac) :
    (∃ flow ∈ Compilation.legFlows d p l "sf-transport-ingress",
      flow.Serves d.config.standardTables path.id switch .transportIngress
          (MacChaining.between (.synthetic path.id (hop.index - 1)) intoMac) ∧
        flow.GoesTo d.config.standardTables .nextHop) ∧
      ∀ port, into.port = some port →
        ∃ flow ∈ Compilation.legFlows d p l "sf-transport-egress",
          flow.Serves d.config.standardTables path.id switch .transportEgress
              (MacChaining.between (.synthetic path.id (hop.index - 1)) intoMac) ∧
            flow.actions = [.output (.number port)] := by
  have hpos : 0 < l.entry.index.toNat := by
    rw [harrives.index]
    exact (HopGraph.index_of_checkHops hp.checked hhop).2
  have hreply : MacChaining.reply (d.legContext path.id) l.entry =
      .synthetic path.id (hop.index - 1) := by
    rw [MacChaining.reply_eq hpos, harrives.index]
    rfl
  have hingress : MacChaining.emit (d.legContext path.id) l.entry (.functionIngress into) =
      .one (.ingress .functionTransportIngress
        (MacChaining.between (.synthetic path.id (hop.index - 1)) intoMac) .nextHop) := by
    simp only [MacChaining.emit, MacChaining.functionIngress, htransparent, if_true, hmac, hreply]
  refine ⟨⟨_, mem_legFlows_chained hp hv (harrives.functionIngress_mem hinto p.graph) hingress,
    FlowTemplate.serves_on .., FlowTemplate.goesTo_ingress ..⟩, fun port hport => ?_⟩
  have hegress : MacChaining.emit (d.legContext path.id) l.entry (.functionEgress into) =
      .one (.egress .functionTransportEgress Priority.transportEgress
        (MacChaining.between (.synthetic path.id (hop.index - 1)) intoMac)
        [.output (.number port)]) := by
    simp only [MacChaining.emit, MacChaining.sendOut, hport, hmac, hreply]
    rfl
  exact ⟨_, mem_legFlows_chained hp hv (harrives.functionEgress_mem hinto p.graph) hegress,
    FlowTemplate.serves_on .., rfl⟩

end Plan

namespace Renderer

variable {σ : Type} [FlowDestination σ]

/-- What a transparent function sends back is admitted, and is what its own egress flow sends out to
it. Before that, the entry after the hop takes it on exactly if the function hands traffic back from
the address that it is reached by, or is reached by the synthetic address of that entry with the
next hop on the same switch. -/
theorem transparent_taken_on_iff (d : Deployment) (r : Renderer σ) (path : ServicePath)
    (report : RenderReport) (h : (r.render d path).result = .ok report)
    (hvariant : report.variant = .macChaining) (i : Nat) (hop : Hop)
    (hhop : path.hops[i]? = some hop) (htransparent : d.isTransparent hop = true)
    (intoMac backMac : MacAddress)
    (hinto : (d.inlet? path hop).bind (·.mac?) = some intoMac)
    (hback : (d.outlet? path hop).bind (·.mac?) = some backMac)
    (hnext : ∀ next, path.hops[i + 1]? = some next →
      ((d.inlet? path next).bind (·.mac?)).isSome) :
    FlowDestination.commit r.sink (r.render d path).trace.offered =
        .ok (r.render d path).renderer.sink ∧
      (∀ number name, r.legFlows d path number name ⊆ (r.render d path).trace.offered) ∧
      ∃ switch, d.switchOf? hop = some switch ∧
        (∃ flow ∈ r.legFlows d path i "sf-transport-ingress",
          flow.Serves d.config.standardTables path.id switch .transportIngress
              (MacChaining.between (.synthetic path.id (hop.index - 1)) intoMac) ∧
            flow.GoesTo d.config.standardTables .nextHop) ∧
        (∀ port, (d.inlet? path hop).bind (·.port) = some port →
          ∃ flow ∈ r.legFlows d path i "sf-transport-egress",
            flow.Serves d.config.standardTables path.id switch .transportEgress
                (MacChaining.between (.synthetic path.id (hop.index - 1)) intoMac) ∧
              flow.actions = [.output (.number port)]) ∧
        ∀ packet : Packet, packet.IsBetween (.synthetic path.id (hop.index - 1)) intoMac →
          ((∃ name, TakesOnward (r.legFlows d path (i + 1) name) d.config.standardTables path.id
              switch packet) ↔
            backMac = intoMac ∨
              .synthetic path.id (hop.index - 1) = intoMac ∧ d.StaysOn path i switch) := by
  have hcommit {flow : Flow} := @commit_render σ _ d r path report h flow
  have hsubset (number : Nat) (name : String) :
      r.legFlows d path number name ⊆ (r.render d path).trace.offered := legFlows_subset h
  obtain ⟨p, c, hplan, hmake, -, rfl, -, -⟩ := render_taken h
  have hp : p.Carries d path := Plan.make_ok (Prod.ext hplan rfl)
  obtain ⟨into, hinto, hintoMac⟩ := Option.bind_eq_some_iff.mp hinto
  obtain ⟨back, hback, hbackMac⟩ := Option.bind_eq_some_iff.mp hback
  have hin : into.transparent = true :=
    (Topology.transparent_of_attachment? hinto).symm.trans htransparent
  have hout : back.transparent = true :=
    (Topology.transparent_of_attachment? hback).symm.trans htransparent
  obtain ⟨l, switch, hl, hswitch, harrives⟩ := Plan.exists_arrival hp hmake hhop
  obtain ⟨after, hafter⟩ := Plan.exists_locates hp hmake (List.getElem?_eq_some_iff.mp hhop).1
  obtain ⟨found, hfound, hleaves⟩ := hafter.leavesFrom hp hhop
  obtain rfl : found = switch := Option.some.inj (hfound.symm.trans hswitch)
  obtain ⟨⟨flow, hflow, hadmits⟩, hsent⟩ :=
    Plan.admitted_transparent hp hvariant hhop harrives hinto hin hintoMac
  rw [← legFlows_eq hplan hl] at hflow
  refine ⟨hcommit (hsubset i "sf-transport-ingress" hflow), hsubset, found, hswitch,
    ⟨flow, hflow, hadmits⟩, fun port hport => ?_, fun packet hpacket => ?_⟩
  · rw [legFlows_eq hplan hl]
    exact hsent port (by simpa [hinto] using hport)
  · simp only [legFlows_eq hplan hafter]
    exact Plan.takesOnward_iff hafter hp hvariant hleaves hnext hback hout hbackMac hpacket

def bridgeDeployment (egress : Option String) : Deployment where
  topology :=
    { forwarders :=
        [⟨"near", some "openflow:30",
            [⟨"edge", .mac ⟨2, 0, 0, 0, 10, 0⟩ none, some 31, none, none⟩],
            [⟨"firewall", "inside", egress, some 32, none⟩], none, none, none⟩]
      serviceFunctions :=
        [⟨"firewall", "firewall",
            [⟨"inside", .mac ⟨0, 0, 0, 0, 241, 1⟩ none⟩,
              ⟨"outside", .mac ⟨0, 0, 0, 0, 241, 2⟩ none⟩], true⟩] }

def bridgedPath : ServicePath where
  name := "bridged"
  id := 31
  hops := [⟨"near", "firewall", none, 255⟩]
  transport := .mac
  encapsulation := .macChaining
  startingIndex := 255
  direction := .forward

theorem transparent_taken_on_bridge :
    ∃ name, TakesOnward ((fresh (bridgeDeployment none)).legFlows (bridgeDeployment none)
        bridgedPath 1 name) (bridgeDeployment none).config.standardTables 31 "openflow:30"
      (.between (.synthetic 31 254) ⟨0, 0, 0, 0, 241, 1⟩) := by
  obtain ⟨-, -, switch, hswitch, -, -, htaken⟩ := transparent_taken_on_iff (bridgeDeployment none)
    (fresh (bridgeDeployment none)) bridgedPath _ rfl rfl 0 _ rfl rfl ⟨0, 0, 0, 0, 241, 1⟩
    ⟨0, 0, 0, 0, 241, 1⟩ rfl rfl fun _ hnext => by cases hnext
  cases hswitch
  exact (htaken _ (Packet.isBetween_between _ _)).mpr (Or.inl rfl)

/-- What a transparent function with two locators sends back meets no next hop. -/
theorem transparent_not_taken_on :
    ¬ ∀ (d : Deployment) (log : List Reply) (r : Renderer), Reached d ({} : FlowSink) log r →
      ∀ path report, (r.render d path).result = .ok report → report.variant = .macChaining →
        ∀ i hop, path.hops[i]? = some hop → d.isTransparent hop = true →
          ∀ intoMac backMac, (d.inlet? path hop).bind (·.mac?) = some intoMac →
            (d.outlet? path hop).bind (·.mac?) = some backMac →
            (∀ next, path.hops[i + 1]? = some next →
              ((d.inlet? path next).bind (·.mac?)).isSome) →
            ∀ switch, d.switchOf? hop = some switch →
              ∃ name, TakesOnward (r.legFlows d path (i + 1) name) d.config.standardTables path.id
                switch (.between (.synthetic path.id (hop.index - 1)) intoMac) := by
  intro htaken
  obtain ⟨name, flow, hflow, -, hrole, -, hcovers⟩ := htaken (bridgeDeployment (some "outside")) []
    (fresh _) .start bridgedPath _ rfl rfl 0 _ rfl rfl ⟨0, 0, 0, 0, 241, 1⟩ ⟨0, 0, 0, 0, 241, 2⟩ rfl
    rfl (fun _ hnext => by cases hnext) "openflow:30" rfl
  have hmissed : ∀ flow ∈ ((fresh (bridgeDeployment (some "outside"))).render
      (bridgeDeployment (some "outside")) bridgedPath).trace.offered, flow.role = .nextHop →
        flow.flowMatch.covers (.between (.synthetic 31 254) ⟨0, 0, 0, 0, 241, 1⟩) = false := by
    decide +kernel
  exact Bool.false_ne_true ((hmissed flow (legFlows_subset rfl hflow) hrole).symm.trans hcovers)

end Renderer
end ServiceChain
