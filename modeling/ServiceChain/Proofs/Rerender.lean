import ServiceChain.Proofs.DefaultsOnce
import ServiceChain.Proofs.FlowMarks
import ServiceChain.Proofs.HopVlans
import ServiceChain.Proofs.Replacement

/-! Rendering a path twice. The second render finds its leases, its switches and its flows as it
would leave them: it stages the path's own flows again and changes nothing. -/
namespace ServiceChain

theorem Flow.last?_some {owner : FlowOwner} {key : FlowKey} {flows : List Flow} {flow : Flow}
    (h : Flow.last? owner key flows = some flow) :
    flow ∈ flows ∧ flow.owner = owner ∧ flow.key = key := by
  obtain ⟨hflow, hsame⟩ := List.mem_filter.mp (List.mem_of_getLast? h)
  exact ⟨hflow, of_decide_eq_true hsame⟩

theorem Flow.last?_none {owner : FlowOwner} {key : FlowKey} {flows : List Flow} :
    Flow.last? owner key flows = none ↔
      ∀ flow ∈ flows, flow.key = key → flow.owner ≠ owner := by
  simp only [Flow.last?, List.getLast?_eq_none_iff, List.filter_eq_nil_iff, decide_eq_true_eq]
  exact forall₂_congr fun flow _ => ⟨fun h hkey howner => h ⟨howner, hkey⟩,
    fun h hsame => h hsame.2 hsame.1⟩

namespace FlowStore

/-- Of a key for which a batch has flows of one owner alone, the owner's version becomes the last
of these flows and the latest of all; other versions stay in their order. -/
theorem versions_commit (store : FlowStore) {batch : List Flow} {owner : FlowOwner} {key : FlowKey}
    (howner : ∀ flow ∈ batch, flow.key = key → flow.owner = owner) :
    (store.commit batch).versions key =
      match Flow.last? owner key batch with
      | some flow => (store.versions key).filter (·.owner ≠ owner) ++ [flow]
      | none => store.versions key := by
  induction batch using List.reverseRecOn with
  | nil => rfl
  | append_singleton rest flow ih =>
    have ih := ih fun other hother => howner other (List.mem_append_left _ hother)
    have hcommit : store.commit (rest ++ [flow]) = (store.commit rest).install flow := by
      simp [FlowStore.commit]
    rw [hcommit, versions_install]
    by_cases hkey : key = flow.key
    · have hflow : flow.owner = owner := howner flow (by simp) hkey.symm
      have hlast : Flow.last? owner key (rest ++ [flow]) = some flow := by
        simp [Flow.last?, hflow, hkey]
      rw [if_pos hkey, hlast, ih, hflow]
      -- the owner's earlier flow of the batch goes again
      cases hearlier : Flow.last? owner key rest with
      | none => rfl
      | some earlier =>
        obtain ⟨-, hsame, -⟩ := Flow.last?_some hearlier
        simp [List.filter_append, List.filter_filter, hsame]
    · have hne : ¬ flow.key = key := fun e => hkey e.symm
      have hlast : Flow.last? owner key (rest ++ [flow]) = Flow.last? owner key rest := by
        simp [Flow.last?, hne]
      rw [if_neg hkey, ih, hlast]

theorem versions_commit_of_none (store : FlowStore) {batch : List Flow} {key : FlowKey}
    (h : ∀ flow ∈ batch, flow.key ≠ key) : (store.commit batch).versions key =
      store.versions key := by
  have hcommit := @versions_commit store batch .unowned key fun flow hflow hkey =>
    absurd hkey (h flow hflow)
  have hnone : Flow.last? .unowned key batch = none :=
    Flow.last?_none.mpr fun flow hflow hkey => absurd hkey (h flow hflow)
  rwa [hnone] at hcommit

theorem mem_keys_commit {store : FlowStore} {batch : List Flow} {key : FlowKey} :
    key ∈ (store.commit batch).shared.map (·.key) ↔
      key ∈ store.shared.map (·.key) ∨ key ∈ batch.map (·.key) := by
  induction batch generalizing store with
  | nil => simp [commit]
  | cons flow rest ih =>
    have hcommit : store.commit (flow :: rest) = (store.install flow).commit rest := rfl
    rw [hcommit, ih, install, keys_installInto]
    split
    · next hold =>
      have hmem : key = flow.key → key ∈ store.shared.map (·.key) := fun e => e ▸ hold
      simp only [List.map_cons, List.mem_cons]
      tauto
    · simp only [List.map_cons, List.mem_cons, List.mem_append, List.not_mem_nil, or_false]
      tauto

theorem keys_commit {store : FlowStore} {batch : List Flow}
    (h : ∀ flow ∈ batch, flow.key ∈ store.shared.map (·.key)) :
    (store.commit batch).shared.map (·.key) = store.shared.map (·.key) := by
  induction batch generalizing store with
  | nil => rfl
  | cons flow rest ih =>
    have hinstall : (store.install flow).shared.map (·.key) = store.shared.map (·.key) := by
      rw [install, keys_installInto, if_pos (h flow (by simp))]
    have hrest : ∀ other ∈ rest, other.key ∈ (store.install flow).shared.map (·.key) := by
      intro other hother
      rw [hinstall]
      exact h other (by simp [hother])
    exact (ih hrest).trans hinstall

theorem WellFormed.shared_eq {store : FlowStore} (h : store.WellFormed) :
    (store.shared.map (·.key)).map (fun key => ⟨key, store.versions key⟩) = store.shared := by
  rw [List.map_map]
  refine (List.map_congr_left fun s hs => ?_).trans (List.map_id _)
  simp only [Function.comp_apply, h.versions_of_mem hs, id]

theorem WellFormed.ext {store other : FlowStore} (h : store.WellFormed) (hother : other.WellFormed)
    (hkeys : store.shared.map (·.key) = other.shared.map (·.key))
    (hversions : ∀ key, store.versions key = other.versions key) : store = other := by
  have hshared : store.shared = other.shared := by
    rw [← h.shared_eq, ← hother.shared_eq, hkeys]
    exact List.map_congr_left fun key _ => by rw [hversions]
  cases store
  cases other
  exact congrArg FlowStore.mk hshared

theorem WellFormed.commit_again {store : FlowStore} (h : store.WellFormed) {batch : List Flow}
    {owner : FlowOwner} (halone : ∀ flow ∈ batch, flow.owner = owner →
      ∀ other ∈ batch, other.key = flow.key → other.owner = owner) :
    (store.commit batch).commit (batch.filter (·.owner = owner)) = store.commit batch := by
  have hof : ∀ flow ∈ batch.filter (·.owner = owner), flow ∈ batch ∧ flow.owner = owner := by
    simp
  have hkeys : ∀ flow ∈ batch.filter (·.owner = owner),
      flow.key ∈ (store.commit batch).shared.map (·.key) := fun flow hflow =>
    mem_keys_commit.mpr (Or.inr (List.mem_map_of_mem (hof flow hflow).1))
  refine ((h.commit batch).commit _).ext (h.commit batch) (keys_commit hkeys) fun key => ?_
  by_cases hkey : ∃ flow ∈ batch, flow.owner = owner ∧ flow.key = key
  · obtain ⟨flow, hflow, howner, rfl⟩ := hkey
    have hlast : Flow.last? owner flow.key (batch.filter (·.owner = owner)) =
        Flow.last? owner flow.key batch := by
      rw [Flow.last?, List.filter_filter]
      congr 2
      funext other
      by_cases hother : other.owner = owner <;> simp [hother]
    rw [versions_commit _ fun other hother _ => (hof other hother).2,
      versions_commit _ (halone flow hflow howner), hlast]
    cases hfound : Flow.last? owner flow.key batch with
    | none => rfl
    | some last =>
      obtain ⟨-, hsame, -⟩ := Flow.last?_some hfound
      simp [List.filter_append, List.filter_filter, hsame]
  · exact versions_commit_of_none _ fun flow hflow e =>
      hkey ⟨flow, (hof flow hflow).1, (hof flow hflow).2, e⟩

end FlowStore

namespace VlanPool

@[simp] theorem free_commit (pool : VlanPool) (path : PathId) :
    (pool.commit path).free = pool.free := by
  have htaken : (pool.commit path).taken = pool.taken := by
    simp only [taken, commit, List.flatMap_map]
    refine List.flatMap_congr fun lease _ => ?_
    split <;> rfl
  rw [free_eq, free_eq, htaken]
  rfl

end VlanPool

namespace Plan

variable {d : Deployment} {pool other : VlanPool} {path : ServicePath}

theorem make_congr_of_none (hneeded : d.vlansNeeded path = 0) :
    (make d pool path).1 = (make d other path).1 := by
  simp only [make]
  cases hbuild : HopGraph.build d.topology d.placements path with
  | error e => rfl
  | ok g =>
    simp only
    cases hvariant : Variant.forPath? path g with
    | none => rfl
    | some v =>
      cases v with
      | vlan =>
        simp only [Deployment.vlansNeeded, Deployment.untagged, hbuild, hvariant, if_true]
          at hneeded
        simp [Variant.resolveLocators, Vlan.leaseHopIds, hneeded]
      | nshTunnel | nshEthernet | mpls | macChaining | logicalForwarder => rfl

/-- Of the pool a plan sees no more than what the path holds once it has its lease. -/
theorem make_congr
    (hheld : (make d pool path).2.held path.id = (make d other path).2.held path.id) :
    (make d pool path).1 = (make d other path).1 := by
  cases hneeded : d.vlansNeeded path with
  | zero => exact make_congr_of_none hneeded
  | succ count =>
    have hmake := make_lease hneeded (Prod.eta (pool.lease path.id (count + 1))).symm
    have hother := make_lease hneeded (Prod.eta (other.lease path.id (count + 1))).symm
    rw [hmake, hother] at hheld
    rw [hmake, hother, VlanPool.slots_held_lease, VlanPool.slots_held_lease other, hheld]

theorem held_subset_make (d : Deployment) (pool : VlanPool) (path : ServicePath) (other : PathId) :
    pool.held other ⊆ (make d pool path).2.held other := by
  intro id hid
  by_cases hother : path.id = other
  · subst hother
    rw [held_make]
    exact List.mem_append_left _ hid
  · rwa [held_make_of_ne hother]

theorem free_make_subset (h : pool.WellFormed) {id : VlanId}
    (hid : id ∈ (make d pool path).2.free) : id ∈ pool.free := by
  obtain ⟨hcandidate, huntaken⟩ := VlanPool.mem_free.mp hid
  rw [range_make] at hcandidate
  refine VlanPool.mem_free.mpr ⟨hcandidate, fun htaken => huntaken ?_⟩
  obtain ⟨other, hheld⟩ := h.mem_taken.mp htaken
  exact VlanPool.mem_taken_of_mem_held (held_subset_make d pool path other hheld)

theorem held_make_again (h : pool.WellFormed) (path : ServicePath) :
    (make d ((make d pool path).2.commit path.id) path).2.held path.id =
      (make d pool path).2.held path.id := by
  rw [held_make, VlanPool.held_commit, VlanPool.free_commit, List.append_right_eq_self,
    List.take_eq_nil_iff]
  by_cases henough : d.vlansNeeded path ≤ ((make d pool path).2.held path.id).length
  · exact Or.inl (Nat.sub_eq_zero_of_le henough)
  · refine Or.inr (List.eq_nil_iff_forall_not_mem.mpr fun id hid => ?_)
    have hall : (make d pool path).2.held path.id = pool.held path.id ++ pool.free := by
      rw [held_make, List.length_append, List.length_take] at henough
      rw [held_make, List.take_of_length_le (by omega)]
    have hheld : id ∈ (make d pool path).2.held path.id := by
      rw [hall]
      exact List.mem_append_right _ (free_make_subset h hid)
    exact VlanPool.not_mem_held_of_mem_free hid path.id hheld

end Plan

namespace Compilation

variable {d : Deployment} {p : Plan} {path : ServicePath} {initialized others : List SwitchId}
  {c c' : Compilation}

theorem pending_subset (hp : p.Carries d path) (h : make d p initialized = .ok c)
    (h' : make d p others = .ok c') (hmore : initialized ⊆ others) : c'.pending ⊆ c.pending := by
  intro switch hswitch
  obtain ⟨hhop, hnew⟩ := ((covers_make hp h').pending switch).mp hswitch
  exact ((covers_make hp h).pending switch).mpr ⟨hhop, fun hknown => hnew (hmore hknown)⟩

theorem flows_ne_nil_of_pending (hp : p.Carries d path) (h : make d p initialized = .ok c)
    {switch : SwitchId} (hswitch : switch ∈ c.pending) : c.batch.flows ≠ [] := by
  intro hnone
  have hdefaults := (covers_make hp h).defaults switch
  rw [hnone, if_pos hswitch] at hdefaults
  simp [Deployment.defaultsOn, defaultFlows] at hdefaults

theorem flows_eq_nil_of_subset (hp : p.Carries d path) (h : make d p initialized = .ok c)
    (h' : make d p others = .ok c') (hmore : initialized ⊆ others)
    (hown : c'.batch.flows.filter (·.isOwn) = c.batch.flows.filter (·.isOwn))
    (hnone : c.batch.flows = []) : c'.batch.flows = [] := by
  refine List.eq_nil_iff_forall_not_mem.mpr fun flow hflow => ?_
  by_cases hnobody : flow.owner = .unowned
  · obtain ⟨hpending, -⟩ := default_of_mem hp h' hflow hnobody
    exact flows_ne_nil_of_pending hp h (pending_subset hp h h' hmore hpending) hnone
  · have hmem : flow ∈ c'.batch.flows.filter (·.isOwn) := by simp [hflow, Flow.isOwn, hnobody]
    simp [hown, hnone] at hmem

end Compilation

namespace Renderer

variable {d : Deployment} {r : Renderer} {path : ServicePath} {report : RenderReport}

theorem store_render (h : (r.render d path).result = .ok report) :
    (r.render d path).renderer.sink.store =
      r.sink.store.commit (r.render d path).trace.offered := by
  rcases sink_render h with ⟨hnone, hsink⟩ | hcommit
  · rw [hnone, hsink]
    rfl
  · exact FlowSink.store_of_commit hcommit

theorem initialized_subset_render (h : (r.render d path).result = .ok report) :
    r.initialized ⊆ (r.render d path).renderer.initialized := by
  obtain ⟨p, c, -, -, -, -, hinitialized, -⟩ := render_ok h
  intro switch hswitch
  rw [hinitialized, Ordered.mem_insertAll]
  exact Or.inr hswitch

/-- A render that was taken is taken also by a renderer that gives the path the same ids and knows
no fewer switches: it stages the same flows of the path and skips the same legs. -/
theorem render_elsewhere (h : (r.render d path).result = .ok report) {s : Renderer}
    (hheld : (Plan.make d s.pool path).2.held path.id = (Plan.make d r.pool path).2.held path.id)
    (hfault : s.sink.fault = r.sink.fault) (hmore : r.initialized ⊆ s.initialized) :
    ∃ again, (s.render d path).result = .ok again ∧ again.variant = report.variant ∧
      again.logical = report.logical ∧ again.skipped = report.skipped ∧
      (s.render d path).trace.offered.filter (·.isOwn) =
        (r.render d path).trace.offered.filter (·.isOwn) := by
  obtain ⟨p, c, hplan, hmake, hflush, rfl, -, hoffered⟩ := render_taken h
  have hp : p.Carries d path := Plan.make_ok (Prod.ext hplan rfl)
  have hplan' : (Plan.make d s.pool path).1 = .ok p := (Plan.make_congr hheld).trans hplan
  obtain ⟨c', hmake', hown, hskipped⟩ := Compilation.make_of_make hmake s.initialized
  have hflush' : ∃ sink, c'.batch.flush s.sink = .ok sink := by
    refine FlowBatch.flush_ok_iff.mpr ?_
    rw [hfault]
    refine (FlowBatch.flush_ok_iff.mp ⟨_, hflush⟩).imp_left fun hnone => ?_
    exact Compilation.flows_eq_nil_of_subset hp hmake hmake' hmore hown hnone
  obtain ⟨sink, hflush'⟩ := hflush'
  have hagain := result_render_of_flush hplan' hmake' hflush'
  obtain ⟨q, c'', hq, hc'', -, -, -, hoffered'⟩ := render_taken hagain
  obtain rfl : p = q := Except.ok.inj (hplan'.symm.trans hq)
  obtain rfl : c' = c'' := Except.ok.inj (hmake'.symm.trans hc'')
  exact ⟨_, hagain, rfl, rfl, hskipped, by rw [hoffered, hoffered', hown]⟩

theorem owner_of_mem_offered (h : (r.render d path).result = .ok report) {flow : Flow}
    (hflow : flow ∈ (r.render d path).trace.offered) :
    flow.owner = .unowned ∧ flow.priority ∈ Priority.defaults ∨
      flow.owner = .path path.id ∧ flow.priority ∉ Priority.defaults := by
  obtain ⟨p, c, hp, hmake, -, -, -, hoffered⟩ := render_ok h
  rw [hoffered] at hflow
  exact Compilation.owner_of_mem hp hmake hflow

theorem owner_of_priority (h : (r.render d path).result = .ok report) {flow : Flow}
    (hflow : flow ∈ (r.render d path).trace.offered)
    (hpriority : flow.priority ∉ Priority.defaults) :
    flow.owner = .path path.id := by
  rcases owner_of_mem_offered h hflow with ⟨-, hdefault⟩ | ⟨hpath, -⟩
  · exact absurd hdefault hpriority
  · exact hpath

theorem priority_of_owner (h : (r.render d path).result = .ok report) {flow : Flow}
    (hflow : flow ∈ (r.render d path).trace.offered) {id : PathId}
    (howner : flow.owner = .path id) :
    flow.priority ∉ Priority.defaults := by
  rcases owner_of_mem_offered h hflow with ⟨hnobody, -⟩ | ⟨-, hpriority⟩
  · simp [howner] at hnobody
  · exact hpriority

theorem filter_offered_own (h : (r.render d path).result = .ok report) :
    (r.render d path).trace.offered.filter (·.isOwn) =
      (r.render d path).trace.offered.filter (·.owner = .path path.id) := by
  refine List.filter_congr fun flow hflow => ?_
  rcases owner_of_mem_offered h hflow with ⟨howner, -⟩ | ⟨howner, -⟩ <;> simp [Flow.isOwn, howner]

theorem commit_offered_again (hformed : r.sink.store.WellFormed)
    (h : (r.render d path).result = .ok report) :
    (r.render d path).renderer.sink.store.commit
        ((r.render d path).trace.offered.filter (·.isOwn)) =
      (r.render d path).renderer.sink.store := by
  rw [store_render h, filter_offered_own h]
  refine hformed.commit_again fun flow hflow howner other hother hkey => ?_
  -- default flows have priorities of their own, so that no key is shared with them
  have hsame : other.priority = flow.priority := congrArg FlowKey.priority hkey
  exact owner_of_priority h hother (hsame ▸ priority_of_owner h hflow howner)

theorem offered_own_of_initialized (h : (r.render d path).result = .ok report)
    (hnone : report.initialized = []) :
    (r.render d path).trace.offered.filter (·.isOwn) = (r.render d path).trace.offered := by
  obtain ⟨p, c, hp, hmake, -, rfl, -, hoffered⟩ := render_ok h
  rw [hoffered, List.filter_eq_self]
  intro flow hflow
  simp only [Flow.isOwn, ne_eq, decide_eq_true_eq]
  intro hnobody
  obtain ⟨hpending, -⟩ := Compilation.default_of_mem hp hmake hflow hnobody
  exact List.ne_nil_of_mem hpending hnone

theorem flowsCommitted_eq (h : (r.render d path).result = .ok report) :
    report.flowsCommitted = (r.render d path).trace.offered.length := by
  obtain ⟨p, c, -, -, -, rfl, -, hoffered⟩ := render_ok h
  rw [hoffered]
  rfl

/-- Rendering is idempotent. A render that was taken is taken again at once, by the same transport
and with the same legs skipped. It initializes no switch and stages the flows of before without the
default flows. The slots of the store with their versions in order, the initialized switches and the
ids of every path stay as they were, also where the path could not get all its ids. -/
theorem Reached.render_idempotent {log : List Reply} (h : Reached d ({} : FlowSink) log r)
    (path : ServicePath) (report : RenderReport) (hreport : (r.render d path).result = .ok report) :
    ∃ again, ((r.render d path).renderer.render d path).result = .ok again ∧
      again.variant = report.variant ∧ again.logical = report.logical ∧
      again.skipped = report.skipped ∧ again.initialized = [] ∧
      again.flowsCommitted +
          ((r.render d path).trace.offered.filter (·.owner = .unowned)).length =
        report.flowsCommitted ∧
      ((r.render d path).renderer.render d path).renderer.sink.store =
        (r.render d path).renderer.sink.store ∧
      ((r.render d path).renderer.render d path).renderer.initialized =
        (r.render d path).renderer.initialized ∧
      ∀ other, ((r.render d path).renderer.render d path).renderer.pool.held other =
        (r.render d path).renderer.pool.held other := by
  have hheld : (Plan.make d (r.render d path).renderer.pool path).2.held path.id =
      (Plan.make d r.pool path).2.held path.id := by
    rw [pool_render_ok hreport]
    exact Plan.held_make_again h.poolAtRest.wellFormed path
  obtain ⟨again, hagain, hvariant, hlogical, hskipped, hown⟩ :=
    render_elsewhere hreport hheld (fault_render d r path) (initialized_subset_render hreport)
  have hnone : again.initialized = [] := by
    refine List.eq_nil_iff_forall_not_mem.mpr fun switch hswitch => ?_
    obtain ⟨⟨hop, hhop, hleads⟩, hnew⟩ := (mem_report_initialized hagain switch).mp hswitch
    exact hnew (switch_mem_initialized hreport hhop hleads)
  have hoffered := (offered_own_of_initialized hagain hnone).symm.trans hown
  refine ⟨again, hagain, hvariant, hlogical, hskipped, hnone, ?_, ?_, ?_, fun other => ?_⟩
  · have hlength := List.length_eq_length_filter_add (l := (r.render d path).trace.offered)
      (·.isOwn)
    rw [flowsCommitted_eq hagain, flowsCommitted_eq hreport, hoffered, hlength]
    congr 2
    exact List.filter_congr fun flow _ => by simp [Flow.isOwn]
  · rw [store_render hagain, hoffered]
    exact commit_offered_again h.store_wellFormed hreport
  · obtain ⟨p, c, -, -, -, rfl, hinitialized, -⟩ := render_ok hagain
    rw [hinitialized, show c.pending = [] from hnone]
    rfl
  · by_cases hother : path.id = other
    · subst hother
      rw [pool_render_ok hagain, VlanPool.held_commit, hheld, pool_render_ok hreport,
        VlanPool.held_commit]
    · exact held_render_of_ne hother

def linesRendered : Renderer := (lineRendered.render vlanDeployment (linePath 4)).renderer

theorem fault_lineRendered : lineRendered.sink.fault = none :=
  fault_render vlanDeployment (fresh vlanDeployment) (linePath 3)

theorem pool_linesRendered :
    linesRendered.pool =
      ⟨⟨100, 103⟩, [⟨3, [lineId 0, lineId 1], true⟩, ⟨4, [lineId 2, lineId 3], true⟩]⟩ := by
  obtain ⟨report, hreport⟩ := linePath_taken fault_lineRendered 4
  rw [linesRendered, pool_render_ok hreport, Plan.make_pool, vlansNeeded_linePath,
    if_neg (by decide), VlanPool.lease, pool_lineRendered, VlanPool.free_eq]
  decide +kernel

theorem render_exhausted_again :
    linesRendered.pool.free = [] ∧
      (linesRendered.render vlanDeployment (linePath 5)).renderer.pool.held 5 = [] ∧
      ∃ again, ((linesRendered.render vlanDeployment (linePath 5)).renderer.render vlanDeployment
            (linePath 5)).result = .ok again ∧
        again.initialized = [] ∧
        ((linesRendered.render vlanDeployment (linePath 5)).renderer.render vlanDeployment
            (linePath 5)).renderer.sink.store =
          (linesRendered.render vlanDeployment (linePath 5)).renderer.sink.store ∧
        ((linesRendered.render vlanDeployment (linePath 5)).renderer.render vlanDeployment
            (linePath 5)).renderer.pool.held 5 = [] := by
  have hlines : Reached vlanDeployment ({} : FlowSink) _ linesRendered :=
    (Reached.start.render (linePath 3)).render (linePath 4)
  have hfault : linesRendered.sink.fault = none :=
    (fault_render vlanDeployment lineRendered (linePath 4)).trans fault_lineRendered
  have hfree : linesRendered.pool.free = [] := by
    rw [pool_linesRendered, VlanPool.free_eq]
    decide +kernel
  obtain ⟨report, hreport⟩ := linePath_taken hfault 5
  have hheld : (linesRendered.render vlanDeployment (linePath 5)).renderer.pool.held 5 = [] := by
    have hgiven := held_render_ok hreport
    rw [hfree, List.take_nil, List.append_nil, pool_linesRendered] at hgiven
    exact hgiven
  obtain ⟨again, hagain, -, -, -, hnone, -, hstore, -, hkept⟩ :=
    hlines.render_idempotent (linePath 5) report hreport
  exact ⟨hfree, hheld, again, hagain, hnone, hstore, (hkept 5).trans hheld⟩

end Renderer
end ServiceChain
