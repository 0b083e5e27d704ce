import ServiceChain.Proofs.Deletion
import ServiceChain.Proofs.Rerender

/-! Paths side by side. Where one of two paths names itself in its matches, no flow of the one has
the key of a flow of the other: whichever is rendered first the same flows are installed, and what
is done to the one is nothing to the other. -/
namespace ServiceChain

def Deployment.variant? (d : Deployment) (path : ServicePath) : Option Variant :=
  match HopGraph.build d.topology d.placements path with
  | .ok g => Variant.forPath? path g
  | .error _ => none

/-- The path's transport names the path in every match. -/
def Deployment.carriesId (d : Deployment) (path : ServicePath) : Bool :=
  (d.variant? path).any (·.carriesId)

/-- A render of the path may stage the flow, given some pool and some switches that have their
default flows. -/
def Deployment.Stages (d : Deployment) (path : ServicePath) (flow : Flow) : Prop :=
  ∃ pool initialized p c, (Plan.make d pool path).1 = .ok p ∧
    Compilation.make d p initialized = .ok c ∧ flow ∈ c.batch.flows

theorem Plan.variant?_eq {d : Deployment} {pool : VlanPool} {path : ServicePath} {p : Plan}
    (h : (make d pool path).1 = .ok p) : d.variant? path = some p.variant := by
  simp only [make] at h
  cases hbuild : HopGraph.build d.topology d.placements path with
  | error e => simp [hbuild] at h
  | ok g =>
    cases hvariant : Variant.forPath? path g with
    | none => simp [hbuild, hvariant] at h
    | some v =>
      simp only [hbuild, hvariant, Except.ok.injEq] at h
      subst h
      simp [Deployment.variant?, hbuild, hvariant]

theorem Deployment.vlansNeeded_of_carriesId {d : Deployment} {path : ServicePath}
    (h : d.carriesId path = true) : d.vlansNeeded path = 0 := by
  unfold Deployment.carriesId Deployment.variant? at h
  unfold Deployment.vlansNeeded Deployment.untagged
  cases hbuild : HopGraph.build d.topology d.placements path with
  | error e => rfl
  | ok g =>
    have hvlan : Variant.forPath? path g ≠ some .vlan := by
      intro hvlan
      simp [hbuild, hvlan, Variant.carriesId] at h
    simp [hvlan]

namespace Deployment.Stages

variable {d : Deployment} {path : ServicePath} {flow : Flow}

theorem owner (h : d.Stages path flow) :
    flow.owner = .unowned ∧ flow.priority ∈ Priority.defaults ∨
      flow.owner = .path path.id ∧ flow.priority ∉ Priority.defaults := by
  obtain ⟨pool, initialized, p, c, hplan, hmake, hflow⟩ := h
  exact Compilation.owner_of_mem (Plan.make_ok (Prod.ext hplan rfl)) hmake hflow

theorem carrier?_eq (h : d.Stages path flow) (hown : flow.owner ≠ .unowned) :
    flow.flowMatch.carrier? = if d.carriesId path then some path.id else none := by
  obtain ⟨pool, initialized, p, c, hplan, hmake, hflow⟩ := h
  have hcarries : d.carriesId path = p.variant.carriesId := by
    simp [Deployment.carriesId, Plan.variant?_eq hplan]
  have hp : p.Carries d path := Plan.make_ok (Prod.ext hplan rfl)
  rw [hcarries, ← hp.pathId]
  exact (Compilation.carrier?_of_mem hmake hflow hown).1

/-- Of two paths one of which names itself, no flow of the one has the key of a flow of the
other. -/
theorem key_ne {other : ServicePath} (hid : path.id ≠ other.id)
    (hcarries : d.carriesId path = true ∨ d.carriesId other = true) (h : d.Stages path flow)
    (hown : flow.owner = .path path.id) {g : Flow} (hg : d.Stages other g)
    (howner : g.owner = .path other.id) : flow.key ≠ g.key := by
  intro hkey
  have hmatch : flow.flowMatch = g.flowMatch := congrArg FlowKey.flowMatch hkey
  have hfirst := h.carrier?_eq (by simp [hown])
  have hsecond := hg.carrier?_eq (by simp [howner])
  rw [hmatch, hsecond] at hfirst
  rcases hcarries with hcarries | hcarries
  · simp only [hcarries, if_true, Option.ite_none_right_eq_some, Option.some.injEq] at hfirst
    exact hid hfirst.2.symm
  · simp only [hcarries, if_true, Option.some_eq_ite_none_right, Option.some.injEq] at hfirst
    exact hid hfirst.2.symm

theorem key_ne_default (h : d.Stages path flow) (hown : flow.owner ≠ .unowned)
    {tables : TableNumbers} {switch : SwitchId} {port : Option UInt32} {g : Flow}
    (hg : g ∈ d.defaultsOn tables switch port) : flow.key ≠ g.key := by
  intro hkey
  have hsame : flow.priority = g.priority := congrArg FlowKey.priority hkey
  have hdefault := d.priority_mem_of_mem_defaultsOn hg
  rcases h.owner with ⟨hnobody, -⟩ | ⟨-, hpriority⟩
  · exact hown hnobody
  · exact hpriority (hsame ▸ hdefault)

end Deployment.Stages

theorem Flow.last?_congr {owner : FlowOwner} {key : FlowKey} {flows others : List Flow}
    (howner : owner ≠ .unowned)
    (hown : flows.filter (·.isOwn) = others.filter (·.isOwn)) :
    Flow.last? owner key flows = Flow.last? owner key others := by
  have hfilter (l : List Flow) : Flow.last? owner key (l.filter (·.isOwn)) =
      Flow.last? owner key l := by
    rw [Flow.last?, List.filter_filter]
    congr 2
    funext flow
    by_cases h : flow.owner = owner <;> simp [Flow.isOwn, h, howner]
  rw [← hfilter flows, hown, hfilter others]

namespace Renderer

variable {d : Deployment} {log : List Reply} {r : Renderer}

theorem stages_of_mem_offered {path : ServicePath} {report : RenderReport}
    (h : (r.render d path).result = .ok report) {flow : Flow}
    (hflow : flow ∈ (r.render d path).trace.offered) : d.Stages path flow := by
  obtain ⟨p, c, hplan, hmake, -, -, -, hoffered⟩ := render_taken h
  exact ⟨r.pool, r.initialized, p, c, hplan, hmake, hoffered ▸ hflow⟩

theorem Reached.stages_of_mem_versions (h : Reached d ({} : FlowSink) log r) {key : FlowKey}
    {flow : Flow} (hflow : flow ∈ r.sink.store.versions key) :
    flow.key = key ∧ ∃ path, d.Stages path flow := by
  rw [h.store_eq, StoreEvent.versions_replay, List.mem_filter] at hflow
  obtain ⟨hlive, hkey⟩ := hflow
  obtain ⟨_, _, path, report, -, hreport, -, -, hstaged⟩ :=
    h.continues.exists_of_mem_puts (StoreEvent.mem_puts_of_mem_live hlive)
  exact ⟨of_decide_eq_true hkey, path, stages_of_mem_offered hreport hstaged⟩

theorem Reached.owner_of_mem_versions (h : Reached d ({} : FlowSink) log r) {key : FlowKey}
    {flow : Flow} (hflow : flow ∈ r.sink.store.versions key) :
    flow.owner = .unowned ↔ key.priority ∈ Priority.defaults := by
  obtain ⟨hkey, path, hstages⟩ := h.stages_of_mem_versions hflow
  have hpriority : flow.priority = key.priority := congrArg FlowKey.priority hkey
  rw [← hpriority]
  rcases hstages.owner with ⟨hnobody, hdefault⟩ | ⟨hpath, hother⟩
  · exact iff_of_true hnobody hdefault
  · exact iff_of_false (by simp [hpath]) hother

section TwoPaths

variable {p q : ServicePath} {forP forQ : RenderReport}

theorem held_make_render (hid : p.id ≠ q.id)
    (hneeded : d.vlansNeeded p = 0 ∨ d.vlansNeeded q = 0)
    (h : (r.render d p).result = .ok forP) :
    (Plan.make d (r.render d p).renderer.pool q).2.held q.id =
      (Plan.make d r.pool q).2.held q.id := by
  rw [Plan.held_make, Plan.held_make, held_render_of_ne hid]
  rcases hneeded with hneeded | hneeded
  · have hpool : (r.render d p).renderer.pool = r.pool.commit p.id := by
      rw [pool_render_ok h, Plan.make_pool, if_pos hneeded]
    rw [hpool, VlanPool.free_commit]
  · simp [hneeded]

theorem render_after (hid : p.id ≠ q.id)
    (hcarries : d.carriesId p = true ∨ d.carriesId q = true)
    (hp : (r.render d p).result = .ok forP) (hq : (r.render d q).result = .ok forQ) :
    ∃ report, ((r.render d p).renderer.render d q).result = .ok report ∧
      ((r.render d p).renderer.render d q).trace.offered.filter (·.isOwn) =
        (r.render d q).trace.offered.filter (·.isOwn) := by
  have hneeded : d.vlansNeeded p = 0 ∨ d.vlansNeeded q = 0 :=
    hcarries.imp Deployment.vlansNeeded_of_carriesId Deployment.vlansNeeded_of_carriesId
  obtain ⟨report, hreport, -, -, -, hown⟩ := render_elsewhere hq
    (held_make_render hid hneeded hp) (fault_render d r p) (initialized_subset_render hp)
  exact ⟨report, hreport, hown⟩

theorem versions_render {path : ServicePath} {report : RenderReport}
    (h : (r.render d path).result = .ok report) {key : FlowKey}
    (hkey : key.priority ∉ Priority.defaults) :
    (r.render d path).renderer.sink.store.versions key =
      match Flow.last? (.path path.id) key (r.render d path).trace.offered with
      | some flow => (r.sink.store.versions key).filter (·.owner ≠ .path path.id) ++ [flow]
      | none => r.sink.store.versions key := by
  rw [store_render h]
  refine FlowStore.versions_commit _ fun flow hflow hsame => ?_
  have hpriority : flow.priority = key.priority := congrArg FlowKey.priority hsame
  exact owner_of_priority h hflow (hpriority ▸ hkey)

/-- In both orders the same versions come under a key that no default flow has. -/
theorem versions_orders (hid : p.id ≠ q.id)
    (hcarries : d.carriesId p = true ∨ d.carriesId q = true)
    (hp : (r.render d p).result = .ok forP) (hq : (r.render d q).result = .ok forQ) {key : FlowKey}
    (hkey : key.priority ∉ Priority.defaults) :
    ((r.render d p).renderer.render d q).renderer.sink.store.versions key =
      ((r.render d q).renderer.render d p).renderer.sink.store.versions key := by
  obtain ⟨forQ', hq', hownQ⟩ := render_after hid hcarries hp hq
  obtain ⟨forP', hp', hownP⟩ := render_after hid.symm hcarries.symm hq hp
  have hlastQ := @Flow.last?_congr (.path q.id) key _ _ (by simp) hownQ
  have hlastP := @Flow.last?_congr (.path p.id) key _ _ (by simp) hownP
  rw [versions_render hq' hkey, versions_render hp' hkey, versions_render hp hkey,
    versions_render hq hkey, hlastQ, hlastP]
  cases hfirst : Flow.last? (.path p.id) key (r.render d p).trace.offered with
  | none => cases Flow.last? (.path q.id) key (r.render d q).trace.offered <;> rfl
  | some f =>
    cases hsecond : Flow.last? (.path q.id) key (r.render d q).trace.offered with
    | none => rfl
    | some g =>
      obtain ⟨hf, hpath, hkeyf⟩ := Flow.last?_some hfirst
      obtain ⟨hg, hother, hkeyg⟩ := Flow.last?_some hsecond
      have hne := (stages_of_mem_offered hp hf).key_ne hid hcarries hpath
        (stages_of_mem_offered hq hg) hother
      exact absurd (hkeyf.trans hkeyg.symm) hne

end TwoPaths

/-- Of an owner the store has the last of these flows under each of their keys, as the latest
version, and no version of another key. -/
structure Shows (r : Renderer) (owner : FlowOwner) (flows : List Flow) : Prop where
  installed : ∀ key flow, Flow.last? owner key flows = some flow →
    (r.sink.store.versions key).getLast? = some flow
  absent : ∀ key, Flow.last? owner key flows = none → owner ∉ r.sink.store.owners key

namespace Shows

variable {owner : FlowOwner} {flows : List Flow} {p q : ServicePath} {forP : RenderReport}

theorem mem_flows (h : r.Shows owner flows) (hformed : r.sink.store.WellFormed) {flow : Flow}
    (howner : flow.owner = owner) :
    flow ∈ r.sink.store.flows ↔ Flow.last? owner flow.key flows = some flow := by
  rw [hformed.mem_flows]
  cases hlast : Flow.last? owner flow.key flows with
  | none =>
    have habsent := h.absent flow.key hlast
    refine iff_of_false (fun hinstalled => habsent ?_) (by simp)
    exact List.mem_map.mpr ⟨flow, List.mem_of_getLast? hinstalled, howner⟩
  | some last => rw [h.installed flow.key last hlast]

theorem of_render (hp : (r.render d p).result = .ok forP)
    (hlacks : r.sink.store.Lacks (.path p.id)) :
    (r.render d p).renderer.Shows (.path p.id) (r.render d p).trace.offered where
  installed := by
    intro key flow hlast
    obtain ⟨hflow, hpath, hkey⟩ := Flow.last?_some hlast
    have hpriority : key.priority ∉ Priority.defaults := hkey ▸ priority_of_owner hp hflow hpath
    rw [versions_render hp hpriority, hlast]
    simp
  absent := by
    intro key hlast
    have hnone : .path p.id ∉ r.sink.store.owners key := by
      intro howner
      obtain ⟨s, hs, -, howner⟩ := FlowStore.exists_of_mem_owners howner
      obtain ⟨flow, hflow, hpath⟩ := List.mem_map.mp howner
      exact hlacks s hs flow hflow hpath
    rw [← FlowStore.versionsOf_eq_nil, versionsOf_render hp, hlast]
    exact FlowStore.versionsOf_eq_nil.mpr hnone

theorem render (h : r.Shows owner flows) {report : RenderReport}
    (hq : (r.render d q).result = .ok report)
    (hapart : ∀ flow ∈ flows, flow.owner = owner →
      ∀ g ∈ (r.render d q).trace.offered, g.key ≠ flow.key)
    (hother : ∀ g ∈ (r.render d q).trace.offered, g.owner ≠ owner) :
    (r.render d q).renderer.Shows owner flows where
  installed := by
    intro key flow hlast
    obtain ⟨hflow, howner, hkey⟩ := Flow.last?_some hlast
    rw [store_render hq, FlowStore.versions_commit_of_none _ fun g hg =>
      hkey ▸ hapart flow hflow howner g hg]
    exact h.installed key flow hlast
  absent := by
    intro key hlast
    have hnone : Flow.last? owner key (r.render d q).trace.offered = none :=
      Flow.last?_none.mpr fun g hg _ => hother g hg
    rw [← FlowStore.versionsOf_eq_nil, versionsOf_render hq, hnone]
    exact FlowStore.versionsOf_eq_nil.mpr (h.absent key hlast)

theorem delete (h : r.Shows owner flows) (hformed : r.sink.store.WellFormed)
    (hne : owner ≠ .path q.id) {switches : List SwitchId}
    (hq : (r.delete q).result = .ok switches) : (r.delete q).renderer.Shows owner flows where
  installed := by
    intro key flow hlast
    obtain ⟨-, howner, -⟩ := Flow.last?_some hlast
    rw [FlowSink.store_of_deletePath (delete_ok hq).1, hformed.versions_deleteOwner]
    obtain ⟨others, hversions⟩ := List.getLast?_eq_some_iff.mp (h.installed key flow hlast)
    rw [hversions, List.filter_append]
    simp [howner, hne]
  absent := by
    intro key hlast howner
    rw [FlowStore.owners, FlowSink.store_of_deletePath (delete_ok hq).1,
      hformed.versions_deleteOwner] at howner
    obtain ⟨flow, hflow, hsame⟩ := List.mem_map.mp howner
    exact h.absent key hlast (List.mem_map.mpr ⟨flow, (List.mem_filter.mp hflow).1, hsame⟩)

end Shows

section TwoPaths

variable {p q : ServicePath} {forP : RenderReport}

/-- Whatever is done to the other path, a path shows what its own render staged. -/
theorem Reached.shows_of_continues (h : Reached d ({} : FlowSink) log r) (hid : p.id ≠ q.id)
    (hcarries : d.carriesId p = true ∨ d.carriesId q = true)
    (hp : (r.render d p).result = .ok forP) (hlacks : r.sink.store.Lacks (.path p.id))
    {since : List Reply} {s : Renderer} (hsince : Continues d (r.render d p).renderer since s)
    (hq : ∀ reply ∈ since, reply.path = q) :
    s.Shows (.path p.id) (r.render d p).trace.offered := by
  induction hsince with
  | refl => exact Shows.of_render hp hlacks
  | @render since s hsince path ih =>
    have hshows := ih fun reply hreply => hq reply (List.mem_append_left _ hreply)
    obtain rfl : path = q := hq _ (List.mem_append_right _ (List.mem_singleton_self _))
    cases hresult : (s.render d path).result with
    | error e =>
      obtain ⟨pool, hstate⟩ := render_error hresult
      rw [hstate]
      exact ⟨hshows.installed, hshows.absent⟩
    | ok report =>
      refine hshows.render hresult (fun flow hflow howner g hg hkey => ?_) fun g hg howner => ?_
      · have hsame : g.priority = flow.priority := congrArg FlowKey.priority hkey
        have hpath : g.owner = .path path.id :=
          owner_of_priority hresult hg (hsame ▸ priority_of_owner hp hflow howner)
        exact (stages_of_mem_offered hp hflow).key_ne hid hcarries howner
          (stages_of_mem_offered hresult hg) hpath hkey.symm
      · rcases owner_of_mem_offered hresult hg with ⟨hnobody, -⟩ | ⟨hpath, -⟩
        · simp [howner] at hnobody
        · exact hid (FlowOwner.path.inj (howner.symm.trans hpath))
  | @delete since s hsince path ih =>
    have hshows := ih fun reply hreply => hq reply (List.mem_append_left _ hreply)
    obtain rfl : path = q := hq _ (List.mem_append_right _ (List.mem_singleton_self _))
    have hformed : s.sink.store.WellFormed := (hsince.reached (h.render p)).store_wellFormed
    cases hresult : (s.delete path).result with
    | error e => rwa [delete_error hresult]
    | ok switches => exact hshows.delete hformed (fun e => hid (FlowOwner.path.inj e)) hresult
  | disturb _ _ ih => exact ⟨(ih hq).installed, (ih hq).absent⟩

/-- Paths do not interfere. Of two paths one of which is carried by a transport that names the path,
no flows share a key, and no path's flow has the key of a default flow, whatever ids they get and
whatever switches are initialized. So from every state in which both can be rendered they can be
rendered one after the other, and in both orders the same flows of paths are installed; and once a
path is rendered that had no flows before, no render and no deletion of the other changes which of
its flows are installed. -/
theorem paths_isolated (d : Deployment) (p q : ServicePath) (hid : p.id ≠ q.id)
    (hcarries : d.carriesId p = true ∨ d.carriesId q = true) :
    (∀ f g, d.Stages p f → d.Stages q g → f.owner = .path p.id → g.owner = .path q.id →
      f.key ≠ g.key) ∧
    (∀ path f, d.Stages path f → f.owner ≠ .unowned →
      ∀ tables switch port, ∀ g ∈ d.defaultsOn tables switch port, f.key ≠ g.key) ∧
    ∀ log r, Reached d ({} : FlowSink) log r → ∀ forP forQ,
      (r.render d p).result = .ok forP → (r.render d q).result = .ok forQ →
        (∃ report, ((r.render d p).renderer.render d q).result = .ok report) ∧
        (∃ report, ((r.render d q).renderer.render d p).result = .ok report) ∧
        (∀ flow, flow.owner ≠ .unowned →
          (flow ∈ ((r.render d p).renderer.render d q).renderer.sink.store.flows ↔
            flow ∈ ((r.render d q).renderer.render d p).renderer.sink.store.flows)) ∧
        (r.sink.store.Lacks (.path p.id) →
          ∀ since s, Continues d (r.render d p).renderer since s →
            (∀ reply ∈ since, reply.path = q) →
            ∀ flow, flow.owner = .path p.id →
              (flow ∈ s.sink.store.flows ↔
                flow ∈ (r.render d p).renderer.sink.store.flows)) := by
  refine ⟨fun f g hf hg hp hq => hf.key_ne hid hcarries hp hg hq,
    fun path f hf hown tables switch port g hg => hf.key_ne_default hown hg, ?_⟩
  intro log r h forP forQ hp hq
  obtain ⟨forQ', hq', -⟩ := render_after hid hcarries hp hq
  obtain ⟨forP', hp', -⟩ := render_after hid.symm hcarries.symm hq hp
  refine ⟨⟨forQ', hq'⟩, ⟨forP', hp'⟩, fun flow hown => ?_, ?_⟩
  · have hfirst := (h.render p).render q
    have hsecond := (h.render q).render p
    rw [hfirst.store_wellFormed.mem_flows, hsecond.store_wellFormed.mem_flows]
    by_cases hkey : flow.key.priority ∈ Priority.defaults
    · -- under such a key neither order leaves a flow of a path
      refine iff_of_false (fun hlast => hown ?_) (fun hlast => hown ?_)
      · exact (hfirst.owner_of_mem_versions (List.mem_of_getLast? hlast)).mpr hkey
      · exact (hsecond.owner_of_mem_versions (List.mem_of_getLast? hlast)).mpr hkey
    · rw [versions_orders hid hcarries hp hq hkey]
  · intro hlacks since s hsince hq flow howner
    have hafter := h.shows_of_continues hid hcarries hp hlacks hsince hq
    have hformed : s.sink.store.WellFormed := (hsince.reached (h.render p)).store_wellFormed
    rw [hafter.mem_flows hformed howner,
      (Shows.of_render hp hlacks).mem_flows (h.render p).store_wellFormed howner]

end TwoPaths

def chainedPath (id : PathId) : ServicePath :=
  { linePath id with encapsulation := .macChaining }

def chainedRendered : Renderer :=
  ((fresh vlanDeployment).render vlanDeployment (chainedPath 4)).renderer

/-- A path by synthetic addresses keeps its flows when another one through the same forwarders,
carried by VLAN tags, is rendered and deleted. -/
theorem paths_isolated_lines :
    (∃ flow ∈ chainedRendered.sink.store.flows, flow.owner = .path 4) ∧
      ∀ flow, flow.owner = .path 4 →
        (flow ∈ ((chainedRendered.render vlanDeployment (linePath 3)).renderer.delete
            (linePath 3)).renderer.sink.store.flows ↔
          flow ∈ chainedRendered.sink.store.flows) := by
  have hchained : ∃ report,
      ((fresh vlanDeployment).render vlanDeployment (chainedPath 4)).result = .ok report :=
    isOk_iff.mp (by decide +kernel)
  obtain ⟨forP, hp⟩ := hchained
  obtain ⟨forQ, hq⟩ := linePath_taken (r := fresh vlanDeployment) rfl 3
  obtain ⟨-, -, hrendered⟩ :=
    paths_isolated vlanDeployment (chainedPath 4) (linePath 3) (by decide) (Or.inl rfl)
  obtain ⟨-, -, -, hafter⟩ := hrendered [] (fresh vlanDeployment) .start forP forQ hp hq
  have hlacks : (fresh vlanDeployment).sink.store.Lacks (.path 4) := fun s hs => by cases hs
  refine ⟨by decide +kernel, hafter hlacks _ _ ((Continues.refl.render _).delete _) ?_⟩
  intro reply hreply
  simp only [List.nil_append, List.mem_append, List.mem_singleton] at hreply
  rcases hreply with rfl | rfl <;> rfl

end Renderer
end ServiceChain
