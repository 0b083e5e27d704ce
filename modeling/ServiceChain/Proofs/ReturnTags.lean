import ServiceChain.Flow.Packet
import ServiceChain.Proofs.AddressedLegs

/-! Tags of what functions send back. Behind labels and tags a switch takes up the tag that a
function is reached by. What comes back bears the tag of the locator that it comes back from, and
the next hops go by the address of that locator. -/
namespace ServiceChain

/-- The packet has the tag. A label under the tag does not show: it is no MPLS frame. -/
structure Packet.BearsTag (packet : Packet) (vlan : VlanId) : Prop where
  vlan : packet.vlan = some vlan
  ethType : packet.ethType ≠ ethTypeMpls

def Packet.tagged (vlan : VlanId) : Packet where
  inPort := .number 1
  ethType := 0x0800
  ethSrc := MacAddress.synthetic 0 0
  ethDst := MacAddress.synthetic 0 0
  vlan := some vlan
  mplsLabel := none
  nsp := none
  nsi := none
  nshC1 := none
  tunDst := none
  metadata := 0

theorem Packet.bearsTag_tagged (vlan : VlanId) : (tagged vlan).BearsTag vlan :=
  ⟨rfl, show (0x0800 : UInt16) ≠ ethTypeMpls from by decide⟩

theorem FlowMatch.covers_tagged (vlan : VlanId) :
    (any.withVlan (some vlan)).covers (.tagged vlan) = true := by
  simp [covers, withVlan, any, Packet.tagged]

/-- Of what is admitted or mapped for a tag or a label, only what is for its own tag covers the
packet. -/
theorem WireTag.eq_of_covers {tag : WireTag} {packet : Packet} {vlan : VlanId}
    (hbears : packet.BearsTag vlan)
    (h : tag.admitted.covers packet = true ∨ tag.carried.covers packet = true) :
    tag = .vlan vlan := by
  cases tag with
  | label number =>
    rcases h with h | h <;> exact absurd (FlowMatch.ethType_of_covers h rfl) hbears.ethType
  | vlan id =>
    have hid : packet.vlan = some id := by
      rcases h with h | h <;> exact FlowMatch.vlan_of_covers h rfl
    rw [Option.some.inj (hid.symm.trans hbears.vlan)]

/-- A flow of the path that takes packets with this tag from the first table to the mapper. -/
structure Flow.AdmitsTag (flow : Flow) (tables : TableNumbers) (id : PathId) (switch : SwitchId)
    (vlan : VlanId) : Prop extends
    flow.Serves tables id switch .transportIngress (FlowMatch.any.withVlan (some vlan)) where
  next : flow.GoesTo tables .pathMapper

/-- A flow of the path that strips this tag and marks the packets as the path's. -/
structure Flow.MapsTag (flow : Flow) (tables : TableNumbers) (id : PathId) (switch : SwitchId)
    (vlan : VlanId) : Prop extends
    flow.Serves tables id switch .pathMapper (FlowMatch.any.withVlan (some vlan)) where
  actions : flow.actions =
    [.popVlan, .writeMetadata (PathId.metadata id), .goto (.raw (tables.resolve .nextHop))]

/-- Packets with this tag are admitted to the switch and mapped to the path. -/
structure TakesUpTag (flows : List Flow) (tables : TableNumbers) (id : PathId) (switch : SwitchId)
    (vlan : VlanId) : Prop where
  admits : ∃ flow ∈ flows, flow.AdmitsTag tables id switch vlan
  maps : ∃ flow ∈ flows, flow.MapsTag tables id switch vlan

/-- A flow of the path that readdresses what comes from this address for the next hop. -/
structure Flow.TakesOn (flow : Flow) (tables : TableNumbers) (id : PathId) (switch : SwitchId)
    (mac : MacAddress) : Prop extends
    flow.Serves tables id switch .nextHop
      ((FlowMatch.any.withMetadata (PathId.metadata id)).withEthSrc (some mac)) where
  priority : flow.priority = Priority.nextHop
  next : flow.GoesTo tables .transportEgress

/-- Packets with the tag are expected on the switch: the function of a hop is reached by it there,
or the hop is by `wire`, what packets carry on the way to the hops. -/
def Deployment.BringsTag (d : Deployment) (path : ServicePath) (wire : Nat → Option WireTag)
    (switch : SwitchId) (vlan : VlanId) : Prop :=
  ∃ (i : Nat) (hop : Hop), path.hops[i]? = some hop ∧ d.switchOf? hop = some switch ∧
    ((d.inlet? path hop).bind (·.vlan?) = some vlan ∨ wire i = some (.vlan vlan))

namespace Variant

variable {v : Variant} {packet : Packet} {vlan : VlanId} {t : FlowTemplate}

theorem emit_functionTag (hv : v = .mpls ∨ v = .vlan) (ctx : LegContext) (e : HopEntry)
    {into : Attachment} (hvlan : into.vlan? = some vlan) :
    v.emit ctx e (.functionIngress into) =
        .one (.ingress .functionTransportIngress (FlowMatch.any.withVlan (some vlan))
          .pathMapper) ∧
      v.emit ctx e (.functionMapper into) =
        .one (.mapper .functionPathMapper ctx.pathId (FlowMatch.any.withVlan (some vlan))
          .popVlan) := by
  rcases hv with rfl | rfl <;> simp [emit, Vlan.emit, Mpls.emit, hvlan]

theorem vlan_of_functionTag (hv : v = .mpls ∨ v = .vlan) {ctx : LegContext} {e : HopEntry}
    {into : Attachment} {leg : Leg}
    (hleg : leg = .functionIngress into ∨ leg = .functionMapper into)
    (ht : t ∈ (v.emit ctx e leg).templates) (hbears : packet.BearsTag vlan)
    (hcovers : t.flowMatch.covers packet = true) : into.vlan? = some vlan := by
  cases htag : into.vlan? with
  | none =>
    rcases hv with rfl | rfl <;> rcases hleg with rfl | rfl <;>
      simp [emit, Vlan.emit, Mpls.emit, htag, LegOutcome.missing, LegOutcome.templates] at ht
  | some id =>
    obtain ⟨hingress, hmapper⟩ := emit_functionTag hv ctx e htag
    have hmatch : t.flowMatch = (WireTag.vlan id).carried := by
      rcases hleg with rfl | rfl
      · rw [hingress] at ht
        rw [List.mem_singleton.mp ht]
        rfl
      · rw [hmapper] at ht
        rw [List.mem_singleton.mp ht]
        rfl
    have hsame := WireTag.eq_of_covers hbears (Or.inr (hmatch ▸ hcovers))
    exact congrArg some (WireTag.vlan.inj hsame)

theorem not_covers_of_no_wireTag (hv : v = .mpls ∨ v = .vlan) {ctx : LegContext} {e : HopEntry}
    {leg : Leg} (hnone : v.wireTag? e.hopIngress = none)
    (hleg : leg = .forwarderIngress ∨ leg = .forwarderMapper e.hopIngress)
    (ht : t ∈ (v.emit ctx e leg).templates) (hbears : packet.BearsTag vlan) :
    t.flowMatch.covers packet ≠ true := by
  rcases hv with rfl | rfl
  · rcases hleg with rfl | rfl
    · cases List.mem_singleton.mp ht
      exact fun hcovers => hbears.ethType (FlowMatch.ethType_of_covers hcovers rfl)
    · simp [emit, Mpls.emit, Option.map_eq_none_iff.mp hnone, LegOutcome.missing,
        LegOutcome.templates] at ht
  · rcases hleg with rfl | rfl <;>
      simp [emit, Vlan.emit, Option.map_eq_none_iff.mp hnone, LegOutcome.missing,
        LegOutcome.templates] at ht

theorem wireTag_of_covers (hv : v = .mpls ∨ v = .vlan) {ctx : LegContext} {e : HopEntry}
    {leg : Leg} (hleg : leg = .forwarderIngress ∨ leg = .forwarderMapper e.hopIngress)
    (ht : t ∈ (v.emit ctx e leg).templates) (hbears : packet.BearsTag vlan)
    (hcovers : t.flowMatch.covers packet = true) :
    v.wireTag? e.hopIngress = some (.vlan vlan) := by
  cases htag : v.wireTag? e.hopIngress with
  | none => exact absurd hcovers (not_covers_of_no_wireTag hv htag hleg ht hbears)
  | some tag =>
    obtain ⟨-, hingress, hmapper⟩ := emit_of_wireTag htag ctx none none
    have htakes : tag.admitted.covers packet = true ∨ tag.carried.covers packet = true := by
      rcases hleg with rfl | rfl
      · rw [hingress] at ht
        rw [List.mem_singleton.mp ht] at hcovers
        exact Or.inl hcovers
      · rw [hmapper] at ht
        rw [List.mem_singleton.mp ht] at hcovers
        exact Or.inr hcovers
    exact congrArg some (WireTag.eq_of_covers hbears htakes)

end Variant

namespace LocatedEntry.ArrivesAt

variable {l : LocatedEntry} {d : Deployment} {path : ServicePath} {hop : Hop} {switch : SwitchId}

theorem functionMapper_mem (h : l.ArrivesAt d path hop switch) {into : Attachment}
    (hinto : d.inlet? path hop = some into) (g : HopGraph) :
    (switch, .functionMapper into) ∈ l.legs g := by
  simp [legs, admission, h.dstSwitch, h.dstFunction, hinto]

theorem forwarderMapper_mem (h : l.ArrivesAt d path hop switch) (g : HopGraph) :
    (switch, .forwarderMapper l.entry.hopIngress) ∈ l.legs g := by
  simp [legs, admission, h.dstSwitch]

end LocatedEntry.ArrivesAt

namespace Plan

variable {d : Deployment} {pool : VlanPool} {path : ServicePath} {p : Plan} {i : Nat}
  {l : LocatedEntry} {initialized : List SwitchId} {c : Compilation} {switch : SwitchId}
  {vlan : VlanId}

theorem Locates.takesUpTag (hl : p.Locates d i l) (hp : p.Carries d path)
    (hmake : Compilation.make d p initialized = .ok c) (hplain : p.variant ≠ .logicalForwarder)
    {admitting mapping : Leg} {ingressRole mapperRole : FlowRole}
    (hadmitting : (switch, admitting) ∈ l.legs p.graph)
    (hadmits : p.variant.emit (d.legContext path.id) l.entry admitting =
      .one (.ingress ingressRole (FlowMatch.any.withVlan (some vlan)) .pathMapper))
    (hmapping : (switch, mapping) ∈ l.legs p.graph)
    (hmaps : p.variant.emit (d.legContext path.id) l.entry mapping =
      .one (.mapper mapperRole path.id (FlowMatch.any.withVlan (some vlan)) .popVlan)) :
    TakesUpTag c.batch.flows d.config.standardTables path.id switch vlan := by
  have hadmitted := hl.staged_plain hp hmake rfl hplain hadmitting
  have hmapped := hl.staged_plain hp hmake rfl hplain hmapping
  rw [hadmits] at hadmitted
  rw [hmaps] at hmapped
  exact ⟨⟨_, hadmitted.mem, ⟨FlowTemplate.serves_on .., FlowTemplate.goesTo_ingress ..⟩⟩,
    ⟨_, hmapped.mem, ⟨FlowTemplate.serves_on .., rfl⟩⟩⟩

/-- What is expected on a switch is taken up. -/
theorem takesUpTag_of_bringsTag (hp : p.Carries d path)
    (hmake : Compilation.make d p initialized = .ok c) (hv : p.variant = .mpls ∨ p.variant = .vlan)
    (h : d.BringsTag path p.wireTag? switch vlan) :
    TakesUpTag c.batch.flows d.config.standardTables path.id switch vlan := by
  obtain ⟨i, hop, hhop, hswitch, hbrings⟩ := h
  obtain ⟨l, found, hl, hfound, harrives⟩ := exists_arrival hp hmake hhop
  obtain rfl : found = switch := Option.some.inj (hfound.symm.trans hswitch)
  have hplain : p.variant ≠ .logicalForwarder := Variant.ne_logicalForwarder hv
  rcases hbrings with hfunction | hwire
  · obtain ⟨into, hinto, htag⟩ := Option.bind_eq_some_iff.mp hfunction
    obtain ⟨hadmits, hmaps⟩ := Variant.emit_functionTag hv (d.legContext path.id) l.entry htag
    exact hl.takesUpTag hp hmake hplain (harrives.functionIngress_mem hinto p.graph) hadmits
      (harrives.functionMapper_mem hinto p.graph) hmaps
  · have htag : p.variant.wireTag? l.entry.hopIngress = some (.vlan vlan) := by
      simpa [wireTag?, hl.entry] using hwire
    obtain ⟨-, hadmits, hmaps⟩ := Variant.emit_of_wireTag htag (d.legContext path.id) none none
    exact hl.takesUpTag hp hmake hplain (harrives.forwarderIngress_mem p.graph) hadmits
      (harrives.forwarderMapper_mem p.graph) hmaps

theorem bringsTag_of_covers (hplan : (make d pool path).1 = .ok p)
    (hmake : Compilation.make d p initialized = .ok c) (hv : p.variant = .mpls ∨ p.variant = .vlan)
    {flow : Flow} (hflow : flow ∈ c.batch.flows) (hown : flow.owner = .path path.id)
    (htable : flow.table = .transportIngress ∨ flow.table = .pathMapper) {packet : Packet}
    (hbears : packet.BearsTag vlan) (hcovers : flow.flowMatch.covers packet = true) :
    d.BringsTag path p.wireTag? flow.switch vlan := by
  have hp : p.Carries d path := make_ok (Prod.ext hplan rfl)
  obtain ⟨i, l, leg, t, hl, hleg, ht, hpriority, hon⟩ :=
    Compilation.exists_leg_of_mem_own hmake hflow (by simp [hown])
  have hfront : leg.table = .transportIngress ∨ leg.table = .pathMapper := by
    rw [← hpriority, ← (hl.steers hplan hv hleg ht).table_eq]
    rwa [show flow.table = t.table from congrArg Flow.table hon] at htable
  rw [show flow.flowMatch = t.flowMatch from congrArg Flow.flowMatch hon] at hcovers
  have harrival (hswitch : l.dstSwitch = some flow.switch)
      (hbrings : l.dstFunction.bind (·.vlan?) = some vlan ∨
        p.variant.wireTag? l.entry.hopIngress = some (.vlan vlan)) :
      d.BringsTag path p.wireTag? flow.switch vlan := by
    obtain ⟨hop, hhop, hfound, harrives⟩ := hl.exists_hop hp hswitch
    refine ⟨i, hop, hhop, hfound, hbrings.imp (harrives.dstFunction ▸ ·) fun hwire => ?_⟩
    simpa [wireTag?, hl.entry] using hwire
  cases LocatedEntry.hasLeg_of_mem_legs hleg with
  | forwarderIngress hswitch =>
    exact harrival hswitch (Or.inr (Variant.wireTag_of_covers hv (Or.inl rfl) ht hbears hcovers))
  | forwarderMapper hswitch =>
    exact harrival hswitch (Or.inr (Variant.wireTag_of_covers hv (Or.inr rfl) ht hbears hcovers))
  | functionIngress hswitch hdst =>
    have hvlan := Variant.vlan_of_functionTag hv (Or.inl rfl) ht hbears hcovers
    exact harrival hswitch (Or.inl (by simp [hdst, hvlan]))
  | functionMapper hswitch hdst =>
    have hvlan := Variant.vlan_of_functionTag hv (Or.inr rfl) ht hbears hcovers
    exact harrival hswitch (Or.inl (by simp [hdst, hvlan]))
  | _ => simp [Leg.table] at hfront

end Plan

namespace Leg

def returning? : Leg → Option Attachment
  | functionToGateway src | functionToFunction src _ | functionToForwarder src _ => some src
  | _ => none

def returningNames : List String :=
  ["next-hop-sf-to-gateway", "next-hop-sf-to-sf", "next-hop-sf-to-sff"]

theorem name_mem_returningNames {leg : Leg} :
    leg.name ∈ returningNames ↔ leg.returning?.isSome = true := by
  cases leg <;> simp [name, returningNames, returning?]

end Leg

namespace LocatedEntry

variable {l : LocatedEntry} {d : Deployment} {path : ServicePath} {hop : Hop} {switch : SwitchId}
  {leg : Leg} {back : Attachment}

theorem HasLeg.of_returning? (h : l.HasLeg switch leg) (hback : leg.returning? = some back) :
    l.srcSwitch = some switch ∧ l.srcFunction = some back := by
  cases h with
  | functionToGateway hswitch hsrc | functionToFunction hswitch hsrc
  | functionToForwarder hswitch hsrc => exact ⟨hswitch, hsrc.trans hback⟩
  | _ => cases hback

theorem LeavesFrom.exists_returning (h : l.LeavesFrom d path hop switch)
    (hback : d.outlet? path hop = some back) {g : HopGraph} (hplain : g.isLogical = false)
    (hknown : l.entry.isSameForwarder = true → l.dstFunction.isSome) :
    ∃ leg, (switch, leg) ∈ l.legs g ∧ leg.returning? = some back := by
  have honward : ∃ leg, (switch, leg) ∈ l.onward ∧ leg.returning? = some back := by
    cases hsame : l.entry.isSameForwarder with
    | false =>
      exact ⟨.functionToForwarder back l.dstIngress,
        by simp [onward, h.srcSwitch, h.srcFunction, hback, hsame], rfl⟩
    | true =>
      obtain ⟨dst, hdst⟩ := Option.isSome_iff_exists.mp (hknown hsame)
      exact ⟨.functionToFunction back dst,
        by simp [onward, h.srcSwitch, h.srcFunction, hback, hsame, hdst], rfl⟩
  obtain ⟨leg, hleg, hreturning⟩ := honward
  exact ⟨leg, by simp [legs, HopGraph.isIntraLogical, hplain, hleg], hreturning⟩

end LocatedEntry

theorem Variant.emit_returning {v : Variant} (hv : v = .mpls ∨ v = .vlan) (ctx : LegContext)
    (e : HopEntry) {leg : Leg} {back : Attachment} (hback : leg.returning? = some back) :
    ∃ dst, v.emit ctx e leg = .one (Mpls.nextHop ctx back.mac? dst) := by
  cases leg with
  | functionToGateway | functionToFunction | functionToForwarder =>
    cases hback
    rw [emit_nextHop hv ctx e rfl]
    exact ⟨_, rfl⟩
  | _ => cases hback

theorem Mpls.takesOn_nextHop (ctx : LegContext) (tables : TableNumbers) (switch : SwitchId)
    (mac : MacAddress) (dst : Option MacAddress) :
    ((nextHop ctx (some mac) dst).on tables (.path ctx.pathId) switch).TakesOn tables ctx.pathId
      switch mac where
  toServes := FlowTemplate.serves_on tables ctx.pathId switch _
  priority := rfl
  next := by simp [nextHop, FlowTemplate.on, Flow.GoesTo, FlowAction.numbered]

theorem Compilation.mem_legFlows {d : Deployment} {p : Plan} {l : LocatedEntry} {switch : SwitchId}
    {leg : Leg} {t : FlowTemplate} (hleg : (switch, leg) ∈ l.legs p.graph)
    (hemit : p.variant.emit (d.legContext p.graph.pathId) l.entry leg = .one t) :
    t.on (p.tables d.config) (.path p.graph.pathId) switch ∈ legFlows d p l leg.name := by
  refine List.mem_flatMap.mpr ⟨_, List.mem_filter.mpr ⟨hleg, decide_eq_true rfl⟩, ?_⟩
  rw [hemit]
  exact List.mem_singleton.mpr rfl

variable {d : Deployment} {path : ServicePath} {p : Plan} {i : Nat} {l : LocatedEntry} {hop : Hop}
  {switch : SwitchId} {back : Attachment}

theorem LocatedEntry.LeavesFrom.takesOn (h : l.LeavesFrom d path hop switch)
    (hp : p.Carries d path) (hv : p.variant = .mpls ∨ p.variant = .vlan)
    (hback : d.outlet? path hop = some back) {mac : MacAddress} (hmac : back.mac? = some mac)
    {name : String} (hname : name ∈ Leg.returningNames) {flow : Flow}
    (hflow : flow ∈ Compilation.legFlows d p l name) :
    flow.TakesOn d.config.standardTables path.id switch mac := by
  obtain ⟨⟨found, leg⟩, hleg, hflow⟩ := List.mem_flatMap.mp hflow
  obtain ⟨hmem, hnamed⟩ := List.mem_filter.mp hleg
  obtain ⟨src, hreturning⟩ := Option.isSome_iff_exists.mp
    (Leg.name_mem_returningNames.mp (of_decide_eq_true hnamed ▸ hname))
  obtain ⟨hswitch, hsrc⟩ := (hasLeg_of_mem_legs hmem).of_returning? hreturning
  obtain rfl : found = switch := Option.some.inj (hswitch.symm.trans h.srcSwitch)
  obtain rfl : src = back := Option.some.inj (hsrc.symm.trans (h.srcFunction.trans hback))
  obtain ⟨dst, hemit⟩ :=
    Variant.emit_returning hv (d.legContext p.graph.pathId) l.entry hreturning
  simp only [hemit, hmac, Plan.tables_of_carriesId (Variant.carriesId_eq_false hv)] at hflow
  cases List.mem_singleton.mp hflow
  rw [← hp.pathId]
  exact Mpls.takesOn_nextHop (d.legContext p.graph.pathId) d.config.standardTables found mac dst

theorem Plan.Locates.exists_legFlows (hl : p.Locates d (i + 1) l) (hp : p.Carries d path)
    (hv : p.variant = .mpls ∨ p.variant = .vlan) (hleaves : l.LeavesFrom d path hop switch)
    (hback : d.outlet? path hop = some back)
    (hknown : ∀ next, path.hops[i + 1]? = some next → next.forwarder = hop.forwarder →
      (d.inlet? path next).isSome) :
    ∃ name ∈ Leg.returningNames, ∃ flow, flow ∈ Compilation.legFlows d p l name := by
  have hplain : p.graph.isLogical = false :=
    hp.isLogical_eq_false (Variant.ne_logicalForwarder hv)
  have hfunction (hsame : l.entry.isSameForwarder = true) : l.dstFunction.isSome := by
    by_cases hend : l.entry.dst = .egress
    · simp [HopEntry.isSameForwarder, hleaves.src, hend, Endpoint.name?] at hsame
    · obtain ⟨next, _, hnext, -, harrives⟩ := hl.exists_arrival hp hend
      have hstays := (LocatedEntry.isSameForwarder_iff harrives hleaves).mp hsame
      exact harrives.dstFunction ▸ hknown next hnext hstays.symm
  obtain ⟨leg, hleg, hreturning⟩ := hleaves.exists_returning hback hplain hfunction
  obtain ⟨dst, hemit⟩ :=
    Variant.emit_returning hv (d.legContext p.graph.pathId) l.entry hreturning
  exact ⟨leg.name, Leg.name_mem_returningNames.mpr (by simp [hreturning]), _,
    Compilation.mem_legFlows hleg hemit⟩

namespace Renderer

variable {σ : Type} [FlowDestination σ]

/-- What a function sends back is taken up as far as its tag is expected on the switch. The tag that
the function is reached by always is. The tag of the locator that packets come back from is if a
function or a hop of the path is reached by it there, and otherwise no flow of the path admits or
maps what bears it. The next hops go by the address of that locator. -/
theorem returns_taken_up_iff (d : Deployment) (r : Renderer σ) (path : ServicePath)
    (report : RenderReport) (h : (r.render d path).result = .ok report)
    (hvariant : report.variant = .mpls ∨ report.variant = .vlan) (i : Nat) (hop : Hop)
    (hhop : path.hops[i]? = some hop) (intoMac backMac : MacAddress) (intoVlan backVlan : VlanId)
    (hinto : (d.inlet? path hop).map (·.locator) = some (.mac intoMac (some intoVlan)))
    (hback : (d.outlet? path hop).map (·.locator) = some (.mac backMac (some backVlan))) :
    FlowDestination.commit r.sink (r.render d path).trace.offered =
        .ok (r.render d path).renderer.sink ∧
      ∃ switch, d.switchOf? hop = some switch ∧
        TakesUpTag (r.render d path).trace.offered d.config.standardTables path.id switch
          intoVlan ∧
        (TakesUpTag (r.render d path).trace.offered d.config.standardTables path.id switch
            backVlan ↔
          d.BringsTag path (wireTag? d r path) switch backVlan) ∧
        (¬ d.BringsTag path (wireTag? d r path) switch backVlan →
          ∀ flow ∈ (r.render d path).trace.offered, flow.owner = .path path.id →
            flow.switch = switch → (flow.table = .transportIngress ∨ flow.table = .pathMapper) →
              ∀ packet : Packet, packet.BearsTag backVlan →
                flow.flowMatch.covers packet = false) ∧
        (∀ name ∈ Leg.returningNames, ∀ flow ∈ r.legFlows d path (i + 1) name,
          flow ∈ (r.render d path).trace.offered ∧
            flow.TakesOn d.config.standardTables path.id switch backMac) ∧
        ((∀ next, path.hops[i + 1]? = some next → next.forwarder = hop.forwarder →
            (d.inlet? path next).isSome) →
          ∃ name ∈ Leg.returningNames, ∃ flow, flow ∈ r.legFlows d path (i + 1) name) := by
  have hcommit {flow : Flow} := @commit_render σ _ d r path report h flow
  have hsubset {name : String} := @legFlows_subset σ d r path (i + 1) name _ report h
  obtain ⟨p, c, hplan, hmake, -, rfl, -, hoffered⟩ := render_taken h
  have hp : p.Carries d path := Plan.make_ok (Prod.ext hplan rfl)
  obtain ⟨into, hinto, hintoLocator⟩ := Option.map_eq_some_iff.mp hinto
  obtain ⟨back, hback, hbackLocator⟩ := Option.map_eq_some_iff.mp hback
  have hmac : back.mac? = some backMac := by simp [Attachment.mac?, hbackLocator, Locator.mac?]
  obtain ⟨-, switch, -, hswitch, -⟩ := Plan.exists_arrival hp hmake hhop
  have hexpected : d.BringsTag path p.wireTag? switch intoVlan :=
    ⟨i, hop, hhop, hswitch, Or.inl (by simp [hinto, Attachment.vlan?, hintoLocator, Locator.vlan?])⟩
  obtain ⟨l, hl⟩ := Plan.exists_locates hp hmake (List.getElem?_eq_some_iff.mp hhop).1
  obtain ⟨found, hfound, hleaves⟩ := hl.leavesFrom hp hhop
  obtain rfl : found = switch := Option.some.inj (hfound.symm.trans hswitch)
  have htaken := Plan.takesUpTag_of_bringsTag hp hmake hvariant hexpected
  simp only [wireTag?_eq hplan, legFlows_eq hplan hl, hoffered] at hcommit hsubset ⊢
  obtain ⟨admitting, hadmitting, -⟩ := htaken.admits
  refine ⟨hcommit hadmitting, found, hswitch, htaken, ⟨fun htakesUp => ?_,
    Plan.takesUpTag_of_bringsTag hp hmake hvariant⟩,
    fun hunexpected flow hflow hown hat htable packet hbears => ?_,
    fun name hname flow hflow =>
      ⟨hsubset hflow, hleaves.takesOn hp hvariant hback hmac hname hflow⟩,
    hl.exists_legFlows hp hvariant hleaves hback⟩
  · obtain ⟨-, flow, hflow, hmaps⟩ := htakesUp
    have hcovers : flow.flowMatch.covers (.tagged backVlan) = true := by
      rw [hmaps.flowMatch]
      exact FlowMatch.covers_tagged backVlan
    exact hmaps.switch ▸ Plan.bringsTag_of_covers hplan hmake hvariant hflow hmaps.owner
      (Or.inr hmaps.table) (Packet.bearsTag_tagged backVlan) hcovers
  · refine Bool.eq_false_iff.mpr fun hcovers => hunexpected ?_
    exact hat ▸ Plan.bringsTag_of_covers hplan hmake hvariant hflow hown htable hbears hcovers

theorem returns_taken_up_label :
    TakesUpTag ((fresh labelDeployment).render labelDeployment (labelPath 21)).trace.offered
        labelDeployment.config.standardTables 21 "openflow:30" { number := 10 } ∧
      ∃ flow ∈ ((fresh labelDeployment).render labelDeployment (labelPath 21)).trace.offered,
        flow.TakesOn labelDeployment.config.standardTables 21 "openflow:30"
          ⟨0, 0, 0, 0, 241, 1⟩ := by
  obtain ⟨-, switch, hswitch, -, htaken, -, hon, hexists⟩ := returns_taken_up_iff labelDeployment
    (fresh labelDeployment) (labelPath 21) _ rfl (Or.inl rfl) 0 _ rfl ⟨0, 0, 0, 0, 241, 1⟩
    ⟨0, 0, 0, 0, 241, 1⟩ { number := 10 } { number := 10 } rfl rfl
  cases hswitch
  obtain ⟨name, hname, flow, hflow⟩ := hexists fun _ hnext => by cases hnext
  obtain ⟨hoffered, htakesOn⟩ := hon name hname flow hflow
  exact ⟨htaken.mpr ⟨0, _, rfl, rfl, Or.inl rfl⟩, flow, hoffered, htakesOn⟩

/-- A firewall that packets go into by one tag and come back from by another. -/
def twoTagDeployment : Deployment where
  topology :=
    { forwarders := labelDeployment.topology.forwarders.map fun f =>
        { f with dictionary := [⟨"firewall", "inside", some "outside", some 32, none⟩] }
      serviceFunctions :=
        [⟨"firewall", "firewall",
            [⟨"inside", .mac ⟨0, 0, 0, 0, 241, 1⟩ (VlanId.ofNat? 10)⟩,
              ⟨"outside", .mac ⟨0, 0, 0, 0, 241, 2⟩ (VlanId.ofNat? 20)⟩], false⟩] }

/-- What comes back from it bears a tag that the first table does not admit. -/
theorem return_tag_not_taken_up :
    ¬ ∀ (d : Deployment) (log : List Reply) (r : Renderer), Reached d ({} : FlowSink) log r →
      ∀ path report, (r.render d path).result = .ok report →
        report.variant = .mpls ∨ report.variant = .vlan →
        ∀ hop ∈ path.hops, ∀ intoMac backMac intoVlan backVlan,
          (d.inlet? path hop).map (·.locator) = some (.mac intoMac (some intoVlan)) →
          (d.outlet? path hop).map (·.locator) = some (.mac backMac (some backVlan)) →
          ∀ switch, d.switchOf? hop = some switch →
            TakesUpTag (r.render d path).trace.offered d.config.standardTables path.id switch
              backVlan := by
  intro htaken
  obtain ⟨flow, hflow, hadmits⟩ := (htaken twoTagDeployment [] (fresh twoTagDeployment) .start
    (labelPath 21) _ rfl (Or.inl rfl) _ (List.mem_singleton.mpr rfl) ⟨0, 0, 0, 0, 241, 1⟩
    ⟨0, 0, 0, 0, 241, 2⟩ { number := 10 } { number := 20 } rfl rfl "openflow:30" rfl).admits
  have hdropped : ∀ flow ∈ ((fresh twoTagDeployment).render twoTagDeployment
      (labelPath 21)).trace.offered, flow.table = .transportIngress →
        flow.flowMatch ≠ FlowMatch.any.withVlan (some { number := 20 }) := by
    decide +kernel
  exact hdropped flow hflow hadmits.table hadmits.flowMatch

end Renderer
end ServiceChain
