import ServiceChain.Proofs.TagMappers

/-! Whose mapper is installed. Of the paths with one VLAN id on a switch the one rendered last gets
the packets. The pool gives an id to one path only, but it does not know the ids that locators
name. -/
namespace ServiceChain

namespace Reply

/-- A render by VLAN tags that was taken, or a deletion that was. -/
def OfVlan : Reply → Prop
  | render _ (.ok report) _ => report.variant = .vlan
  | delete _ (.ok _) _ => True
  | _ => False

theorem spares_of_ne {path : ServicePath} {id : PathId} (h : path.id ≠ id)
    (result : Except RenderError RenderReport) (trace : RenderTrace) :
    ¬ (render path result trace).Renders id ∧ ¬ (render path result trace).Deletes id := by
  refine ⟨fun hrenders => ?_, fun hdeletes => hdeletes⟩
  cases result with
  | error e => exact hrenders
  | ok report => exact h hrenders

end Reply

namespace Renderer

theorem Continues.held_subset {σ : Type} [FlowDestination σ] {d : Deployment} {sink : σ}
    {log since : List Reply} {r s : Renderer σ} (h : Continues d r since s)
    (hreached : Reached d sink log r) {id : PathId}
    (hkept : ∀ reply ∈ since, ¬ reply.Deletes id) : r.pool.held id ⊆ s.pool.held id := by
  induction h with
  | refl => exact List.Subset.refl _
  | @render since s h path ih =>
    have ih := ih fun reply hreply => hkept reply (List.mem_append_left _ hreply)
    exact List.Subset.trans ih ((h.reached hreached).poolAtRest.held_subset_render path id)
  | @delete since s h path ih =>
    have ih := ih fun reply hreply => hkept reply (List.mem_append_left _ hreply)
    have hlast := hkept _ (List.mem_append_right _ (List.mem_singleton_self _))
    rw [held_delete fun hid switches hresult => hlast (by rw [hresult]; exact hid)]
    exact ih
  | disturb _ _ ih => exact ih hkept

variable {d : Deployment} {log since : List Reply} {r s : Renderer}

theorem Continues.owner_ne_of_mem_puts (h : Continues d r since s) {id : PathId}
    (hkept : ∀ reply ∈ since, ¬ reply.Renders id) {flow : Flow}
    (hflow : flow ∈ StoreEvent.puts (since.flatMap (·.events))) : flow.owner ≠ .path id := by
  obtain ⟨before, t, path, report, -, hreport, -, hreply, hstaged⟩ := h.exists_of_mem_puts hflow
  have hother : path.id ≠ id := hkept _ hreply
  rcases owner_of_mem_offered hreport hstaged with ⟨hnobody, -⟩ | ⟨hpath, -⟩
  · simp [hnobody]
  · rw [hpath]
    exact fun hsame => hother (FlowOwner.path.inj hsame)

theorem Continues.any_ends_eq_false (h : Continues d r since s) {id : PathId}
    (hkept : ∀ reply ∈ since, ¬ reply.Renders id ∧ ¬ reply.Deletes id) {flow : Flow}
    (howner : flow.owner = .path id) :
    (since.flatMap (·.events)).any (·.ends flow) = false := by
  refine List.any_eq_false.mpr fun event hevent => ?_
  cases event with
  | put other =>
    have hne := h.owner_ne_of_mem_puts (fun reply hreply => (hkept reply hreply).1)
      (StoreEvent.mem_puts.mpr hevent)
    simp [StoreEvent.ends, howner, hne]
  | drop owner =>
    obtain ⟨reply, hreply, hevent⟩ := List.mem_flatMap.mp hevent
    have hdeletes := (hkept reply hreply).2
    cases reply with
    | render path result trace => cases result <;> simp [Reply.events] at hevent
    | delete path result trace =>
      cases result with
      | error e => simp [Reply.events] at hevent
      | ok switches =>
        have hne : path.id ≠ id := hdeletes
        simp only [Reply.events, List.mem_singleton, StoreEvent.drop.injEq] at hevent
        simp [StoreEvent.ends, howner, hevent, hne]

/-- What comes on top of a hop's flow is a flow of another path, which maps the tag because some
locator names it. -/
theorem Continues.mapper_of_mem_live {p : ServicePath} {report : RenderReport} {vlan : VlanId}
    {flow : Flow} (h : Continues d (r.render d p).renderer since s)
    (hreached : Reached d ({} : FlowSink) log r) (hp : (r.render d p).result = .ok report)
    (hmapper : d.HopMapper r.pool p vlan flow)
    (hkept : ∀ reply ∈ since, ¬ reply.Renders p.id ∧ ¬ reply.Deletes p.id) {other : Flow}
    (hother : other ∈ StoreEvent.live (since.flatMap (·.events))) (hkey : other.key = flow.key) :
    vlan ∈ d.topology.vlans ∧ ∃ id, id ≠ p.id ∧ other.owner = .path id ∧
      other.actions = d.mapperActions id := by
  have hrendered := hreached.render p
  obtain ⟨hpriority, hmatch⟩ := hmapper.priority_flowMatch
  obtain ⟨before, t, q, _, hbefore, hq, hearlier, hreply, hstaged⟩ :=
    h.exists_of_mem_puts (StoreEvent.mem_puts_of_mem_live hother)
  have hid : q.id ≠ p.id := (hkept _ hreply).1
  obtain ⟨hpath, hactions, hsource⟩ := mapper_of_mem_offered hq hstaged
    ((congrArg FlowKey.priority hkey).trans hpriority)
    ((congrArg FlowKey.flowMatch hkey).trans hmatch)
  refine ⟨hsource.resolve_left ?_, q.id, hid, hpath, hactions⟩
  -- the pool has given the id to `p` and gives it to no other path meanwhile
  rintro ⟨hop, hassigns⟩
  have hheld : vlan ∈ t.pool.held p.id := by
    refine hbefore.held_subset hrendered (fun reply hreply => ?_) ?_
    · exact (hkept reply (hearlier hreply)).2
    · rw [pool_render_ok hp, VlanPool.held_commit]
      exact hmapper.mem_held
  have hformed : (Plan.make d t.pool q).2.WellFormed :=
    Plan.wellFormed_make (hbefore.reached hrendered).poolAtRest.wellFormed
  rw [← Plan.held_make_of_ne hid] at hheld
  exact hformed.held_disjoint q.id p.id hid hassigns.mem_held hheld

theorem Reached.mem_flows_of_key (h : Reached d ({} : FlowSink) log r) {key : FlowKey}
    {flow : Flow} : flow ∈ r.sink.store.flows ∧ flow.key = key ↔
      (r.sink.store.versions key).getLast? = some flow := by
  rw [h.store_wellFormed.mem_flows]
  constructor
  · rintro ⟨hfound, rfl⟩
    exact hfound
  · intro hfound
    have hkey := (h.stages_of_mem_versions (List.mem_of_getLast? hfound)).1
    exact ⟨hkey ▸ hfound, hkey⟩

/-- What enters a path at a hop by an id of the pool. A taken render stages the flow that maps it to
the path. As long as the path is neither rendered again nor deleted, the flow installed for the id
on the hop's switch belongs to the path exactly if no flow of the key was put later and is still
live; one that was belongs to another path and maps the packets to that, and it can only be there if
some locator of the topology names the id. -/
theorem Reached.hop_mapper_installed_iff (h : Reached d ({} : FlowSink) log r) (p : ServicePath)
    (report : RenderReport) (hp : (r.render d p).result = .ok report) (vlan : VlanId) (flow : Flow)
    (hmapper : d.HopMapper r.pool p vlan flow) (since : List Reply) (s : Renderer)
    (hsince : Continues d (r.render d p).renderer since s)
    (hkept : ∀ reply ∈ since, ¬ reply.Renders p.id ∧ ¬ reply.Deletes p.id) :
    (flow ∈ (r.render d p).trace.offered ∧ flow.owner = .path p.id ∧
      flow.flowMatch = FlowMatch.any.withVlan (some vlan) ∧
      flow.actions = d.mapperActions p.id) ∧
    ((∃ installed ∈ s.sink.store.flows, installed.key = flow.key ∧
        installed.owner = .path p.id ∧ installed.actions = d.mapperActions p.id) ↔
      ∀ other ∈ StoreEvent.live (since.flatMap (·.events)), other.key ≠ flow.key) ∧
    ∀ other ∈ StoreEvent.live (since.flatMap (·.events)), other.key = flow.key →
      vlan ∈ d.topology.vlans ∧ ∃ id, id ≠ p.id ∧ other.owner = .path id ∧
        other.actions = d.mapperActions id := by
  have hothers : ∀ other ∈ StoreEvent.live (since.flatMap (·.events)), other.key = flow.key →
      vlan ∈ d.topology.vlans ∧ ∃ id, id ≠ p.id ∧ other.owner = .path id ∧
        other.actions = d.mapperActions id :=
    fun other hother hkey => hsince.mapper_of_mem_live h hp hmapper hkept hother hkey
  obtain ⟨hpriority, hmatch⟩ := hmapper.priority_flowMatch
  have hoffered := mem_offered_of_hopMapper hp hmapper
  obtain ⟨howner, hactions, -⟩ := mapper_of_mem_offered hp hoffered hpriority hmatch
  refine ⟨⟨hoffered, howner, hmatch, hactions⟩, ?_, hothers⟩
  have hreached := hsince.reached (h.render p)
  obtain ⟨others, last, hlast, hpath, hmapped⟩ := versions_hopMapper hp hmapper
  obtain ⟨older, hversions⟩ : ∃ older, s.sink.store.versions flow.key = older ++ [last] ++
      (StoreEvent.live (since.flatMap (·.events))).filter (·.key = flow.key) := by
    rw [hsince.versions_eq (h.render p), hlast, List.filter_append, List.filter_singleton,
      hsince.any_ends_eq_false hkept hpath]
    exact ⟨_, rfl⟩
  constructor
  · rintro ⟨installed, hinstalled, hkey, howned, -⟩ other hother hkeyed
    have hfound := hreached.mem_flows_of_key.mp ⟨hinstalled, hkey⟩
    -- if a flow of the key came after, the last of these is the one installed
    have hsome : (StoreEvent.live (since.flatMap (·.events))).filter (·.key = flow.key) ≠ [] :=
      List.ne_nil_of_mem (List.mem_filter.mpr ⟨hother, decide_eq_true hkeyed⟩)
    rw [hversions, List.getLast?_append_of_ne_nil _ hsome] at hfound
    obtain ⟨hlive, hkeyed⟩ := List.mem_filter.mp (List.mem_of_getLast? hfound)
    obtain ⟨-, id, hid, hforeign, -⟩ := hothers installed hlive (of_decide_eq_true hkeyed)
    exact hid (FlowOwner.path.inj (hforeign.symm.trans howned))
  · intro hnone
    have hempty : (StoreEvent.live (since.flatMap (·.events))).filter (·.key = flow.key) = [] :=
      List.filter_eq_nil_iff.mpr fun other hother =>
        decide_eq_true_iff.not.mpr (hnone other hother)
    rw [hempty, List.append_nil] at hversions
    obtain ⟨hinstalled, hkey⟩ := hreached.mem_flows_of_key.mpr
      (show (s.sink.store.versions flow.key).getLast? = some last by
        rw [hversions, List.getLast?_concat])
    exact ⟨last, hinstalled, hkey, hpath, hmapped⟩

def taggedDeployment : Deployment where
  config := { vlanRange := ⟨100, 103⟩ }
  topology :=
    { forwarders :=
        [⟨"near", some "openflow:10",
            [⟨"edge", .mac ⟨2, 0, 0, 0, 10, 0⟩ none, some 11, none, none⟩,
              ⟨"link", .mac ⟨2, 0, 0, 0, 10, 1⟩ (VlanId.ofNat? 100), some 10, none, some "far"⟩],
            [⟨"firewall", "inside", none, some 12, none⟩], none, none, none⟩,
          ⟨"far", some "openflow:20",
            [⟨"link", .mac ⟨2, 0, 0, 0, 11, 1⟩ none, some 20, none, some "near"⟩,
              ⟨"edge", .mac ⟨2, 0, 0, 0, 11, 0⟩ (VlanId.ofNat? 200), some 21, none, none⟩],
            [⟨"inspector", "inside", none, some 22, none⟩], none, none, none⟩]
      serviceFunctions := vlanDeployment.topology.serviceFunctions }

def backPath (id : PathId) : ServicePath :=
  { linePath id with hops := [⟨"far", "inspector", none, 255⟩, ⟨"near", "firewall", none, 254⟩] }

def nearMapper (id : PathId) (vlan : VlanId) : Flow where
  switch := "openflow:10"
  tableId := 2
  table := .pathMapper
  priority := Priority.pathMapper
  flowMatch := FlowMatch.any.withVlan (some vlan)
  actions := taggedDeployment.mapperActions id
  owner := .path id
  role := .pathMapper

theorem vlansNeeded_nearPath (id : PathId) : taggedDeployment.vlansNeeded (nearPath id) = 1 := by
  with_unfolding_all rfl

theorem nearPath_taken {r : Renderer} (hfault : r.sink.fault = none) (id : PathId) :
    ∃ report, (r.render taggedDeployment (nearPath id)).result = .ok report := by
  rw [← isOk_iff, isOk_render (Plan.make_lease (vlansNeeded_nearPath id) rfl) hfault]
  with_unfolding_all rfl

def nearEntry (id : PathId) (vlan : Option VlanId) : HopEntry :=
  { HopGraph.entryTo (nearPath id) ⟨.ingress, none, none⟩ ⟨"near", "firewall", none, 255⟩ none with
    dstIngressLocator := some "edge"
    hopIngress := some ⟨some "edge", .mac ⟨2, 0, 0, 0, 10, 0⟩ vlan, some 11, none⟩ }

theorem hopMapper_nearPath {pool after : VlanPool} {id : PathId} {vlan : VlanId}
    (hlease : pool.lease id 1 = ([some vlan], after)) :
    taggedDeployment.HopMapper pool (nearPath id) vlan (nearMapper id vlan) := by
  have hplan := congrArg Prod.fst (Plan.make_lease (vlansNeeded_nearPath id) hlease)
  have hplain : (taggedDeployment.untagged (nearPath id))[0]? = some (nearEntry id none) := by
    with_unfolding_all rfl
  have hentry : (Vlan.tagAll [some vlan] (taggedDeployment.untagged (nearPath id)))[0]? =
      some (nearEntry id (some vlan)) := by
    with_unfolding_all rfl
  obtain ⟨l, hlocate, hflow⟩ : ∃ l, LocatedEntry.locate taggedDeployment.topology 0
      (nearEntry id (some vlan)) = .ok l ∧
      (Compilation.ownFlows taggedDeployment ⟨⟨id, Vlan.tagAll [some vlan]
        (taggedDeployment.untagged (nearPath id))⟩, .vlan⟩ l)[2]? = some (nearMapper id vlan) := by
    refine ⟨_, rfl, ?_⟩
    with_unfolding_all rfl
  exact ⟨0, _, _, l, ⟨_, _, _, hplain, rfl, hplan, hentry, rfl⟩, hplan, hentry, hlocate,
    List.mem_of_getElem? hflow, rfl⟩

def taggedRendered : Renderer :=
  ((fresh taggedDeployment).render taggedDeployment (nearPath 3)).renderer

theorem lease_fresh :
    (fresh taggedDeployment).pool.lease 3 1 =
      ([some (lineId 0)], ⟨⟨100, 103⟩, [⟨3, [lineId 0], false⟩]⟩) := by
  rw [VlanPool.lease, VlanPool.free_eq]
  decide

theorem lease_taggedRendered : taggedRendered.pool.lease 5 1 =
    ([some (lineId 1)], ⟨⟨100, 103⟩, [⟨3, [lineId 0], true⟩, ⟨5, [lineId 1], false⟩]⟩) := by
  obtain ⟨report, hreport⟩ := nearPath_taken (r := fresh taggedDeployment) rfl 3
  have hpool : taggedRendered.pool = ⟨⟨100, 103⟩, [⟨3, [lineId 0], true⟩]⟩ := by
    rw [taggedRendered, pool_render_ok hreport,
      Plan.make_lease (vlansNeeded_nearPath 3) lease_fresh]
    rfl
  rw [hpool, VlanPool.lease, VlanPool.free_eq]
  decide +kernel

theorem fault_taggedRendered : taggedRendered.sink.fault = none :=
  fault_render taggedDeployment (fresh taggedDeployment) (nearPath 3)

theorem hop_mapper_kept :
    ∃ installed ∈ ((taggedRendered.render taggedDeployment (nearPath 5)).renderer.render
        taggedDeployment (backPath 4)).renderer.sink.store.flows,
      installed.key = (nearMapper 5 (lineId 1)).key ∧ installed.owner = .path 5 ∧
        installed.actions = taggedDeployment.mapperActions 5 := by
  have htagged : Reached taggedDeployment ({} : FlowSink) _ taggedRendered :=
    Reached.start.render (nearPath 3)
  obtain ⟨report, hreport⟩ := nearPath_taken fault_taggedRendered 5
  obtain ⟨-, hinstalled, hnamed⟩ := htagged.hop_mapper_installed_iff (nearPath 5) report hreport
    (lineId 1) _ (hopMapper_nearPath lease_taggedRendered) _ _ (Continues.refl.render (backPath 4))
    (List.forall_mem_singleton.mpr (Reply.spares_of_ne (by decide) _ _))
  refine hinstalled.mpr fun other hother hkey => ?_
  exact absurd (hnamed other hother hkey).1 (by decide)

/-- The path from the far function enters the near forwarder by the link's own tag. Rendered after
the near function's path, which the pool has given the same id, it gets that path's packets. -/
theorem hop_mapper_shadowed :
    ¬ ∀ (d : Deployment) (log : List Reply) (r : Renderer), Reached d ({} : FlowSink) log r →
      (∀ reply ∈ log, reply.OfVlan) →
      ∀ p report, (r.render d p).result = .ok report → report.variant = .vlan →
      ∀ vlan flow, d.HopMapper r.pool p vlan flow →
      ∀ since s, Continues d (r.render d p).renderer since s →
      (∀ reply ∈ since, reply.OfVlan ∧ ¬ reply.Renders p.id ∧ ¬ reply.Deletes p.id) →
        ∃ installed ∈ s.sink.store.flows,
          installed.key = flow.key ∧ installed.owner = .path p.id := by
  intro hinstalled
  have hstart : Reached taggedDeployment ({} : FlowSink) [] (fresh taggedDeployment) := .start
  obtain ⟨forNear, hnear⟩ := nearPath_taken (r := fresh taggedDeployment) rfl 3
  have hfresh : ∃ report,
      ((fresh taggedDeployment).render taggedDeployment (backPath 4)).result = .ok report :=
    isOk_iff.mp (by decide +kernel)
  obtain ⟨forBack, hback⟩ := hfresh
  obtain ⟨again, hagain, -, -, -, hown⟩ := render_elsewhere hback
    (held_make_render (by decide) (Or.inr (by decide +kernel)) hnear)
    (fault_render _ _ _) (initialized_subset_render hnear)
  have hvariant : forNear.variant = .vlan :=
    Option.some.inj ((variant?_of_render hnear).symm.trans rfl)
  have hother : again.variant = .vlan :=
    Option.some.inj ((variant?_of_render hagain).symm.trans rfl)
  have hofVlan : (Reply.render (backPath 4)
      (taggedRendered.render taggedDeployment (backPath 4)).result
      (taggedRendered.render taggedDeployment (backPath 4)).trace).OfVlan := by
    rw [show (taggedRendered.render taggedDeployment (backPath 4)).result = .ok again from hagain]
    exact hother
  obtain ⟨installed, hflow, hkey, howner⟩ := hinstalled taggedDeployment [] _ hstart
    (fun _ hnone => absurd hnone List.not_mem_nil) (nearPath 3) forNear hnear hvariant
    (lineId 0) _ (hopMapper_nearPath lease_fresh) _ _ (Continues.refl.render (backPath 4))
    (List.forall_mem_singleton.mpr ⟨hofVlan, Reply.spares_of_ne (by decide) _ _⟩)
  have hafter := ((hstart.render (nearPath 3)).render (backPath 4)).mem_flows_of_key.mp
    ⟨hflow, hkey⟩
  have hlast : Flow.last? (.path 4) (nearMapper 3 (lineId 0)).key
      ((fresh taggedDeployment).render taggedDeployment (backPath 4)).trace.offered =
        some (nearMapper 4 (lineId 0)) := by
    decide +kernel
  rw [versions_render hagain (by decide), Flow.last?_congr (by simp) hown,
    show (backPath 4).id = 4 from rfl, hlast, List.getLast?_concat] at hafter
  cases hafter
  exact absurd howner (by decide)

end Renderer
end ServiceChain
