import ServiceChain.Proofs.FailedLeases
import ServiceChain.Proofs.PathIsolation

/-! The flows that map packets with a VLAN id to a path, where they enter at a hop. All that map one
id on a switch have one key; the id is leased to the path, or a locator names it. -/
namespace ServiceChain

/-- The ids that locators of forwarders and of functions name. -/
def Topology.vlans (t : Topology) : List VlanId :=
  t.forwarders.flatMap (fun f => f.locators.filterMap (·.locator.vlan?)) ++
    t.serviceFunctions.flatMap fun sf => sf.locators.filterMap (·.locator.vlan?)

namespace Topology

variable {t : Topology} {id : VlanId}

theorem vlan_mem_of_locator? {forwarder name : String} {l : BoundLocator}
    (h : t.locator? forwarder name = some l) (hvlan : l.vlan? = some id) : id ∈ t.vlans := by
  obtain ⟨f, hf, hbound⟩ := Option.bind_eq_some_iff.mp h
  obtain ⟨located, hlocated, rfl⟩ := Option.map_eq_some_iff.mp hbound
  have hmem : f ∈ t.forwarders := List.mem_reverse.mp (List.mem_of_find?_eq_some hf)
  have hnamed : id ∈ f.locators.filterMap (·.locator.vlan?) :=
    List.mem_filterMap.mpr ⟨located, List.mem_of_find?_eq_some hlocated, hvlan⟩
  exact List.mem_append_left _ (List.mem_flatMap.mpr ⟨f, hmem, hnamed⟩)

theorem vlan_mem_of_attachment? {forwarder function : String} {direction : Direction}
    {crossing : Crossing} {a : Attachment}
    (h : t.attachment? forwarder function direction crossing = some a)
    (hvlan : a.vlan? = some id) : id ∈ t.vlans := by
  obtain ⟨f, -, h⟩ := Option.bind_eq_some_iff.mp h
  obtain ⟨sf, hsf, h⟩ := Option.bind_eq_some_iff.mp h
  obtain ⟨entry, -, h⟩ := Option.bind_eq_some_iff.mp h
  obtain ⟨locator, hlocator, h⟩ := Option.bind_eq_some_iff.mp h
  cases h
  have hmem : sf ∈ t.serviceFunctions := List.mem_reverse.mp (List.mem_of_find?_eq_some hsf)
  have hnamed : id ∈ sf.locators.filterMap (·.locator.vlan?) :=
    List.mem_filterMap.mpr ⟨locator, List.mem_of_find?_eq_some hlocator, hvlan⟩
  exact List.mem_append_right _ (List.mem_flatMap.mpr ⟨sf, hmem, hnamed⟩)

end Topology

theorem HopEntry.hopIngress_nameLocators (t : Topology) (kind : LocatorKind) (e : HopEntry) :
    (e.nameLocators t kind).hopIngress = e.hopIngress := by
  unfold nameLocators
  split <;> rfl

theorem HopEntry.exists_locator_of_hopIngress {t : Topology} {e : HopEntry}
    (hnone : e.hopIngress = none) {l : BoundLocator}
    (h : (e.resolveLocators t).hopIngress = some l) :
    ∃ forwarder name, t.locator? forwarder name = some l := by
  unfold resolveLocators at h
  split at h
  · simp [hnone] at h
  · split at h
    · simp [hnone] at h
    · next forwarder _ =>
      obtain ⟨name, -, hl⟩ := Option.bind_eq_some_iff.mp h
      exact ⟨forwarder, name, hl⟩
    · simp [hnone] at h

theorem Vlan.entries_leaseHopIds (pool : VlanPool) (path : PathId) (g : HopGraph) :
    (leaseHopIds pool path g).1.entries =
      tagAll (pool.lease path (g.entries.countP lacksVlan)).1 g.entries := by
  by_cases hneeded : g.entries.countP lacksVlan = 0
  · simp only [leaseHopIds, hneeded, if_true]
    refine List.ext_getElem? fun i => ?_
    rw [tagAll_getElem?]
    cases hentry : g.entries[i]? with
    | none => rfl
    | some e =>
      have hkept : lacksVlan e ≠ true :=
        List.countP_eq_zero.mp hneeded e (List.mem_of_getElem? hentry)
      simp [hkept]
  · simp [leaseHopIds, hneeded]

namespace Deployment

variable {d : Deployment} {path : ServicePath}

theorem untagged_eq (h : d.variant? path = some .vlan) :
    d.untagged path = (HopGraph.chainOf d path).map fun e =>
      (e.nameLocators d.topology .mac).resolveLocators d.topology := by
  unfold variant? at h
  unfold untagged
  cases hbuild : HopGraph.build d.topology d.placements path with
  | error e => simp [hbuild] at h
  | ok g =>
    rw [hbuild] at h
    obtain ⟨-, rfl, -⟩ := HopGraph.build_ok hbuild
    simp only [h, if_true, Variant.nameLocators, HopGraph.mapEntries, List.map_map]
    rfl

theorem vlan_mem_of_untagged (h : d.variant? path = some .vlan) {e : HopEntry}
    (he : e ∈ d.untagged path) {vlan : VlanId} (hvlan : e.hopIngress.bind (·.vlan?) = some vlan) :
    vlan ∈ d.topology.vlans := by
  rw [untagged_eq h] at he
  obtain ⟨plain, hplain, rfl⟩ := List.mem_map.mp he
  have hbare : plain ∈ (HopGraph.chainOf d path).map HopEntry.bare := by
    rwa [HopGraph.chainOf, HopGraph.map_bare_chain]
  obtain ⟨built, -, rfl⟩ := List.mem_map.mp hbare
  have hnone : (built.bare.nameLocators d.topology .mac).hopIngress = none :=
    HopEntry.hopIngress_nameLocators d.topology .mac built.bare
  obtain ⟨l, hl, hnamed⟩ := Option.bind_eq_some_iff.mp hvlan
  obtain ⟨forwarder, name, hfound⟩ := HopEntry.exists_locator_of_hopIngress hnone hl
  exact Topology.vlan_mem_of_locator? hfound hnamed

end Deployment

namespace Plan

variable {d : Deployment} {pool : VlanPool} {path : ServicePath} {p : Plan}

theorem make_of_vlan (pool : VlanPool) (h : d.variant? path = some .vlan) :
    make d pool path =
      (.ok ⟨(Vlan.leaseHopIds pool path.id ⟨path.id, d.untagged path⟩).1, .vlan⟩,
        (Vlan.leaseHopIds pool path.id ⟨path.id, d.untagged path⟩).2) := by
  rcases make_leases d pool path with ⟨hnone, -⟩ | hmake
  · rw [Deployment.untagged_eq h] at hnone
    simpa [HopGraph.chainOf] using congrArg List.length hnone
  · exact hmake

theorem Assigns.variant? {hop : Nat} {vlan : VlanId} (h : Assigns d pool path hop vlan) :
    d.variant? path = some .vlan := by
  obtain ⟨e, p, -, hentry, -, hplan, -⟩ := h
  rcases make_leases d pool path with ⟨hnone, -⟩ | hmake
  · simp [hnone] at hentry
  · rw [variant?_eq hplan]
    rw [hmake] at hplan
    rw [← Except.ok.inj hplan]

theorem assigns_or_mem (hplan : (make d pool path).1 = .ok p) (hvariant : p.variant = .vlan)
    {hop : Nat} {e : HopEntry} (hentry : p.graph.entries[hop]? = some e) {vlan : VlanId}
    (hvlan : e.hopIngress.bind (·.vlan?) = some vlan) :
    Assigns d pool path hop vlan ∨ vlan ∈ d.topology.vlans := by
  have hpath : d.variant? path = some .vlan := hvariant ▸ variant?_eq hplan
  have hgraph : p.graph.entries =
      Vlan.tagAll (pool.lease path.id (d.vlansNeeded path)).1 (d.untagged path) := by
    have hmade := hplan
    rw [make_of_vlan pool hpath] at hmade
    rw [← Except.ok.inj hmade]
    exact Vlan.entries_leaseHopIds pool path.id ⟨path.id, d.untagged path⟩
  have htagged := hentry
  rw [hgraph, Vlan.tagAll_getElem?] at htagged
  obtain ⟨plain, hplain, htag⟩ := Option.map_eq_some_iff.mp htagged
  cases hlacks : Vlan.lacksVlan plain with
  | true => exact Or.inl ⟨plain, p, e, hplain, hlacks, hplan, hentry, hvlan⟩
  | false =>
    obtain rfl : plain = e := by simpa [hlacks] using htag
    exact Or.inr (Deployment.vlan_mem_of_untagged hpath (List.mem_of_getElem? hplain) hvlan)

end Plan

def Leg.isMapper : Leg → Bool
  | forwarderMapper _ | functionMapper _ => true
  | _ => false

theorem Leg.isMapper_of_priority {leg : Leg} (h : Priority.pathMapper ∈ leg.priorities) :
    leg.isMapper = true := by
  revert h
  cases leg <;> simp only [Leg.priorities, Leg.isMapper] <;> decide

namespace LocatedEntry

variable {l : LocatedEntry}

theorem HasLeg.eq_of_isMapper {switch : SwitchId} {leg : Leg} (h : l.HasLeg switch leg)
    (hmapper : leg.isMapper = true) :
    leg = .forwarderMapper l.entry.hopIngress ∨
      ∃ dst, l.dstFunction = some dst ∧ leg = .functionMapper dst := by
  cases h with
  | forwarderMapper _ => exact Or.inl rfl
  | functionMapper _ hdst => exact Or.inr ⟨_, hdst, rfl⟩
  | _ => cases hmapper

theorem dstFunction_of_locate {t : Topology} {number : Nat} {e : HopEntry} {dst : Attachment}
    (h : locate t number e = .ok l) (hdst : l.dstFunction = some dst) :
    ∃ forwarder function direction,
      t.attachment? forwarder function direction .intoFunction = some dst := by
  obtain ⟨_, -, h⟩ := bind_eq_ok.mp h
  obtain ⟨_, -, h⟩ := bind_eq_ok.mp h
  cases h
  obtain ⟨forwarder, -, h⟩ := Option.bind_eq_some_iff.mp hdst
  obtain ⟨function, -, h⟩ := Option.bind_eq_some_iff.mp h
  exact ⟨forwarder, function, _, h⟩

end LocatedEntry

theorem Mpls.functionMapper_of_vlan {ctx : LegContext} {dst : Attachment}
    {template : FlowTemplate} (h : template ∈ (emit ctx (.functionMapper dst)).templates)
    {vlan : VlanId} (hvlan : template.flowMatch = FlowMatch.any.withVlan (some vlan)) :
    dst.vlan? = some vlan ∧ template.actions =
      [.popVlan, .writeMetadata (PathId.metadata ctx.pathId), .goto .nextHop] := by
  simp only [emit] at h
  split at h
  · next id hid =>
    cases List.mem_singleton.mp h
    exact ⟨hid.trans (congrArg FlowMatch.vlan hvlan), rfl⟩
  · cases h

theorem Variant.mapper_of_mem_emit {v : Variant} (hv : v.carriesId = false) {ctx : LegContext}
    {e : HopEntry} {leg : Leg} (hleg : leg.isMapper = true) {template : FlowTemplate}
    (h : template ∈ (v.emit ctx e leg).templates) {vlan : VlanId}
    (hvlan : template.flowMatch = FlowMatch.any.withVlan (some vlan)) :
    template.actions = [.popVlan, .writeMetadata (PathId.metadata ctx.pathId), .goto .nextHop] ∧
      ((∃ dst, leg = .functionMapper dst ∧ dst.vlan? = some vlan) ∨
        v = .vlan ∧ ∃ hopIngress, leg = .forwarderMapper hopIngress ∧
          hopIngress.bind (·.vlan?) = some vlan) := by
  cases v with
  | vlan =>
    cases leg with
    | functionMapper dst =>
      obtain ⟨hdst, hactions⟩ := Mpls.functionMapper_of_vlan h hvlan
      exact ⟨hactions, Or.inl ⟨dst, rfl, hdst⟩⟩
    | forwarderMapper hopIngress =>
      simp only [emit, Vlan.emit] at h
      split at h
      · next id hid =>
        cases List.mem_singleton.mp h
        exact ⟨rfl, Or.inr ⟨rfl, hopIngress, rfl, hid.trans (congrArg FlowMatch.vlan hvlan)⟩⟩
      · cases h
    | _ => cases hleg
  | mpls =>
    cases leg with
    | functionMapper dst =>
      obtain ⟨hdst, hactions⟩ := Mpls.functionMapper_of_vlan h hvlan
      exact ⟨hactions, Or.inl ⟨dst, rfl, hdst⟩⟩
    | forwarderMapper hopIngress =>
      simp only [emit, Mpls.emit] at h
      split at h
      · -- between forwarders it is a label that is mapped
        cases List.mem_singleton.mp h
        have hlabel := congrArg FlowMatch.mplsLabel hvlan
        simp [FlowTemplate.mapper, FlowMatch.withMplsLabel, FlowMatch.withVlan, FlowMatch.any]
          at hlabel
      · cases h
    | _ => cases hleg
  | nshTunnel | nshEthernet | macChaining | logicalForwarder => cases hv

theorem Vlan.forwarderMapper_of_role {ctx : LegContext} {e : HopEntry} {leg : Leg}
    {template : FlowTemplate} (h : template ∈ (emit ctx e leg).templates)
    (hrole : template.role = .pathMapper) :
    ∃ hopIngress vlan, leg = .forwarderMapper hopIngress ∧
      hopIngress.bind (·.vlan?) = some vlan ∧
      template = .mapper .pathMapper ctx.pathId (FlowMatch.any.withVlan (some vlan)) .popVlan := by
  cases leg with
  | forwarderMapper hopIngress =>
    simp only [emit] at h
    split at h
    · next vlan hvlan => exact ⟨hopIngress, vlan, rfl, hvlan, List.mem_singleton.mp h⟩
    · cases h
  | forwarderIngress | functionIngress | functionMapper | forwarderEgress =>
    simp only [emit, Mpls.emit] at h
    split at h
    · cases List.mem_singleton.mp h
      cases hrole
    · cases h
  | gatewayToFunction | forwarderToFunction | functionToGateway | functionToFunction
  | functionToForwarder | functionEgress =>
    cases List.mem_singleton.mp h
    cases hrole
  | terminalEgress =>
    simp only [emit, Mpls.emit, Mpls.terminal] at h
    split at h
    · cases h
    · cases h
    · cases List.mem_singleton.mp h
      cases hrole

/-- What is done with the packets that are mapped to a path. -/
def Deployment.mapperActions (d : Deployment) (id : PathId) : List FlowAction :=
  [.popVlan, .writeMetadata (PathId.metadata id), .goto (.raw d.config.standardTables.nextHop)]

/-- The flow maps to the path what enters at a hop by an id that the pool put there. -/
def Deployment.HopMapper (d : Deployment) (pool : VlanPool) (path : ServicePath) (vlan : VlanId)
    (flow : Flow) : Prop :=
  ∃ hop p e l, Plan.Assigns d pool path hop vlan ∧ (Plan.make d pool path).1 = .ok p ∧
    p.graph.entries[hop]? = some e ∧ LocatedEntry.locate d.topology hop e = .ok l ∧
    flow ∈ Compilation.ownFlows d p l ∧ flow.role = .pathMapper

theorem Plan.tables_of_carriesId {p : Plan} (h : p.variant.carriesId = false) (c : Config) :
    p.tables c = c.standardTables := by
  unfold tables
  cases hvariant : p.variant with
  | mpls | vlan => rfl
  | nshTunnel | nshEthernet | macChaining | logicalForwarder =>
    simp [hvariant, Variant.carriesId] at h

theorem Compilation.mapper_of_mem {d : Deployment} {pool : VlanPool} {path : ServicePath}
    {p : Plan} {initialized : List SwitchId} {c : Compilation}
    (hplan : (Plan.make d pool path).1 = .ok p) (hmake : make d p initialized = .ok c)
    {flow : Flow} (hflow : flow ∈ c.batch.flows) (hpriority : flow.priority = Priority.pathMapper)
    {vlan : VlanId} (hvlan : flow.flowMatch = FlowMatch.any.withVlan (some vlan)) :
    flow.owner = .path path.id ∧ flow.actions = d.mapperActions path.id ∧
      ((∃ hop, Plan.Assigns d pool path hop vlan) ∨ vlan ∈ d.topology.vlans) := by
  have hp : p.Carries d path := Plan.make_ok (Prod.ext hplan rfl)
  have howner : flow.owner = .path path.id := by
    rcases owner_of_mem hp hmake hflow with ⟨-, hdefault⟩ | ⟨howner, -⟩
    · exact absurd (hpriority ▸ hdefault) (by decide)
    · exact howner
  obtain ⟨i, e, l, hentry, hlocate, hmem⟩ := exists_of_mem_own hmake hflow (by simp [howner])
  obtain ⟨leg, template, hleg, htemplate, hon, hfits⟩ := exists_leg_of_mem_ownFlows hmem
  have hmatch : flow.flowMatch = template.flowMatch := congrArg Flow.flowMatch hon
  have hmapper : leg.isMapper = true := by
    refine Leg.isMapper_of_priority ?_
    rw [← hpriority, show flow.priority = template.priority from congrArg Flow.priority hon]
    exact hfits.priority
  -- a transport that names the path would name it here
  have hcarries : p.variant.carriesId = false := by
    have hcarrier := hfits.carrier
    rw [← hmatch, hvlan] at hcarrier
    simpa [FlowMatch.carrier?, FlowMatch.withVlan, FlowMatch.any] using hcarrier
  obtain ⟨hactions, hsource⟩ :=
    Variant.mapper_of_mem_emit hcarries hmapper htemplate (hmatch.symm.trans hvlan)
  refine ⟨howner, ?_, ?_⟩
  · rw [show flow.actions = template.actions.map (·.numbered (p.tables d.config)) from
      congrArg Flow.actions hon, hactions, Plan.tables_of_carriesId hcarries, ← hp.pathId]
    rfl
  · obtain ⟨rfl, -, -⟩ := LocatedEntry.locate_ok hlocate
    rcases (LocatedEntry.hasLeg_of_mem_legs hleg).eq_of_isMapper hmapper with rfl | ⟨dst, hdst, rfl⟩
    · rcases hsource with ⟨_, hno, -⟩ | ⟨hv, hopIngress, hsame, hid⟩
      · cases hno
      · cases hsame
        exact (Plan.assigns_or_mem hplan hv hentry hid).imp_left fun h => ⟨i, h⟩
    · rcases hsource with ⟨_, hsame, hid⟩ | ⟨-, _, hno, -⟩
      · cases hsame
        obtain ⟨_, _, _, hattached⟩ := LocatedEntry.dstFunction_of_locate hlocate hdst
        exact Or.inr (Topology.vlan_mem_of_attachment? hattached hid)
      · cases hno

namespace Deployment.HopMapper

variable {d : Deployment} {pool : VlanPool} {path : ServicePath} {vlan : VlanId} {flow : Flow}

theorem mem_held (h : d.HopMapper pool path vlan flow) :
    vlan ∈ (Plan.make d pool path).2.held path.id := by
  obtain ⟨hop, -, -, -, hassigns, -⟩ := h
  exact hassigns.mem_held

theorem priority_flowMatch (h : d.HopMapper pool path vlan flow) :
    flow.priority = Priority.pathMapper ∧
      flow.flowMatch = FlowMatch.any.withVlan (some vlan) := by
  obtain ⟨hop, p, e, l, hassigns, hplan, hentry, hlocate, hmem, hrole⟩ := h
  have hvariant : p.variant = .vlan :=
    Option.some.inj ((Plan.variant?_eq hplan).symm.trans hassigns.variant?)
  obtain ⟨leg, template, hleg, htemplate, hon, -⟩ := Compilation.exists_leg_of_mem_ownFlows hmem
  rw [hvariant] at htemplate
  obtain ⟨hopIngress, id, rfl, hid, rfl⟩ :=
    Vlan.forwarderMapper_of_role htemplate ((congrArg Flow.role hon).symm.trans hrole)
  obtain ⟨rfl, -, -⟩ := LocatedEntry.locate_ok hlocate
  have hentered : hopIngress = l.entry.hopIngress := by
    rcases (LocatedEntry.hasLeg_of_mem_legs hleg).eq_of_isMapper rfl with hsame | ⟨_, -, hno⟩
    · exact Leg.forwarderMapper.inj hsame
    · cases hno
  -- the entry has one id, that of the pool
  obtain ⟨-, q, tagged, -, -, hplan', htagged, hvlan⟩ := hassigns
  obtain rfl := Except.ok.inj (hplan.symm.trans hplan')
  obtain rfl := Option.some.inj (hentry.symm.trans htagged)
  obtain rfl : id = vlan := Option.some.inj (hid.symm.trans (hentered ▸ hvlan))
  exact ⟨congrArg Flow.priority hon, congrArg Flow.flowMatch hon⟩

end Deployment.HopMapper

namespace Renderer

section Calls

variable {d : Deployment} {r : Renderer} {path : ServicePath} {report : RenderReport}
  {vlan : VlanId} {flow : Flow}

theorem variant?_of_render (h : (r.render d path).result = .ok report) :
    d.variant? path = some report.variant := by
  obtain ⟨p, c, hplan, -, -, rfl, -⟩ := render_taken h
  exact Plan.variant?_eq hplan

theorem mem_offered_of_hopMapper (h : (r.render d path).result = .ok report)
    (hmapper : d.HopMapper r.pool path vlan flow) : flow ∈ (r.render d path).trace.offered := by
  obtain ⟨p, c, hplan, hmake, -, -, -, hoffered⟩ := render_taken h
  obtain ⟨hop, q, e, l, -, hplan', hentry, hlocate, hmem, -⟩ := hmapper
  obtain rfl := Except.ok.inj (hplan.symm.trans hplan')
  rw [hoffered]
  exact Compilation.mem_of_locate hmake hentry hlocate hmem

theorem mapper_of_mem_offered (h : (r.render d path).result = .ok report)
    (hflow : flow ∈ (r.render d path).trace.offered)
    (hpriority : flow.priority = Priority.pathMapper)
    (hvlan : flow.flowMatch = FlowMatch.any.withVlan (some vlan)) :
    flow.owner = .path path.id ∧ flow.actions = d.mapperActions path.id ∧
      ((∃ hop, Plan.Assigns d r.pool path hop vlan) ∨ vlan ∈ d.topology.vlans) := by
  obtain ⟨p, c, hplan, hmake, -, -, -, hoffered⟩ := render_taken h
  exact Compilation.mapper_of_mem hplan hmake (hoffered ▸ hflow) hpriority hvlan

/-- Once rendered the path has a version under the key, the latest, which maps to it. -/
theorem versions_hopMapper (h : (r.render d path).result = .ok report)
    (hmapper : d.HopMapper r.pool path vlan flow) :
    ∃ others version, (r.render d path).renderer.sink.store.versions flow.key =
        others ++ [version] ∧
      version.owner = .path path.id ∧ version.actions = d.mapperActions path.id := by
  obtain ⟨hpriority, hmatch⟩ := hmapper.priority_flowMatch
  have hoffered := mem_offered_of_hopMapper h hmapper
  have howner := (mapper_of_mem_offered h hoffered hpriority hmatch).1
  obtain ⟨version, hversion⟩ : ∃ version, Flow.last? (.path path.id) flow.key
      (r.render d path).trace.offered = some version := by
    refine Option.ne_none_iff_exists'.mp fun hnone => ?_
    exact Flow.last?_none.mp hnone flow hoffered rfl howner
  obtain ⟨hstaged, hpath, hkey⟩ := Flow.last?_some hversion
  obtain ⟨-, hactions, -⟩ := mapper_of_mem_offered h hstaged
    ((congrArg FlowKey.priority hkey).trans hpriority)
    ((congrArg FlowKey.flowMatch hkey).trans hmatch)
  have hnondefault : flow.key.priority ∉ Priority.defaults := by
    rw [show flow.key.priority = Priority.pathMapper from hpriority]
    decide
  rw [versions_render h hnondefault, hversion]
  exact ⟨_, version, rfl, hpath, hactions⟩

end Calls
end Renderer

end ServiceChain
