import ServiceChain.Proofs.PathIsolation
import ServiceChain.Scenario

/-! Deleting everything. Flows, leases and marks belong to paths that were rendered and not deleted
since; when no such path is left, neither are they, however renders failed on the way. -/
namespace ServiceChain

namespace Reply

/-- The path was rendered, and not deleted since. -/
def Live (log : List Reply) (id : PathId) : Prop := Stands (Renders id) (Deletes id) log

theorem live_concat {log : List Reply} {reply : Reply} {id : PathId} :
    Live (log ++ [reply]) id ↔ reply.Renders id ∨ Live log id ∧ ¬ reply.Deletes id :=
  stands_concat

theorem Live.exists_renders {log : List Reply} {id : PathId} (h : Live log id) :
    ∃ reply ∈ log, reply.Renders id := by
  obtain ⟨before, reply, after, rfl, hrenders, -⟩ := h
  exact ⟨reply, by simp, hrenders⟩

theorem Live.of_append {log since : List Reply} {id : PathId} (h : Live (log ++ since) id)
    (hnone : ∀ reply ∈ since, ¬ reply.Renders id) :
    Live log id ∧ ∀ reply ∈ since, ¬ reply.Deletes id := by
  induction since using List.reverseRecOn with
  | nil => simpa using h
  | append_singleton rest reply ih =>
    rw [← List.append_assoc, live_concat] at h
    obtain ⟨hlive, hkept⟩ := h.resolve_left (hnone reply (by simp))
    obtain ⟨hbefore, hrest⟩ := ih hlive fun other hother => hnone other (by simp [hother])
    refine ⟨hbefore, fun other hother => ?_⟩
    rcases List.mem_append.mp hother with hother | hother
    · exact hrest other hother
    · exact List.mem_singleton.mp hother ▸ hkept

theorem not_live_of_deleted (path : ServicePath) {result : Except RenderError RenderReport}
    {trace trace' : RenderTrace} {switches : List SwitchId} (id : PathId) :
    ¬ Live [.render path result trace, .delete path (.ok switches) trace'] id := by
  intro hlive
  have hnone : ∀ reply ∈ [Reply.delete path (.ok switches) trace'], ¬ reply.Renders id := by
    intro reply hreply hrenders
    cases List.mem_singleton.mp hreply
    exact hrenders
  obtain ⟨hrendered, hkept⟩ := @Live.of_append [.render path result trace] _ id hlive hnone
  obtain ⟨reply, hreply, hrenders⟩ := hrendered.exists_renders
  cases List.mem_singleton.mp hreply
  refine hkept _ (List.mem_singleton_self _) ?_
  cases result with
  | ok report => exact hrenders
  | error e => cases hrenders

end Reply

theorem FlowStore.mem_versions_commit {store : FlowStore} {batch : List Flow} {key : FlowKey}
    {flow : Flow} (h : flow ∈ (store.commit batch).versions key) :
    flow ∈ batch ∨ flow ∈ store.versions key := by
  induction batch using List.reverseRecOn with
  | nil => exact Or.inr h
  | append_singleton rest last ih =>
    have hcommit : store.commit (rest ++ [last]) = (store.commit rest).install last := by
      simp [FlowStore.commit]
    rw [hcommit, versions_install] at h
    have hrest : flow ∈ (store.commit rest).versions key →
        flow ∈ rest ++ [last] ∨ flow ∈ store.versions key :=
      fun hflow => (ih hflow).imp_left (List.mem_append_left _)
    split at h
    · rcases List.mem_append.mp h with h | h
      · exact hrest (List.mem_filter.mp h).1
      · exact Or.inl (List.mem_append_right _ h)
    · exact hrest h

theorem Plan.mem_leases_make {d : Deployment} {pool : VlanPool} {path : ServicePath}
    {lease : VlanLease} (h : lease ∈ (make d pool path).2.leases) :
    lease ∈ pool.leases ∨ lease.path = path.id ∧
      (lease.committed = true → ∃ old ∈ pool.leases, old.path = path.id) := by
  rw [make_pool] at h
  split at h
  · exact Or.inl h
  · rcases VlanPool.mem_setLease h with rfl | h
    · refine Or.inr ⟨VlanPool.leaseOf_path pool path.id, fun hcommitted => ?_⟩
      cases hfound : pool.lease? path.id with
      | none => simp [VlanPool.leaseOf, hfound] at hcommitted
      | some old =>
        exact ⟨old, List.mem_of_find?_eq_some hfound, by simpa using List.find?_some hfound⟩
    · exact Or.inl h

namespace Renderer

section Calls

variable {σ : Type} [FlowDestination σ] {d : Deployment}

theorem inFlight_render (d : Deployment) (r : Renderer σ) (path : ServicePath) :
    (r.render d path).renderer.inFlight =
      Ordered.without (Ordered.insert path.id r.inFlight) [path.id] := by
  have hcases := attempt_cases d (r.markInFlight path.id) path
  have hattempt : ((r.markInFlight path.id).attempt d path).renderer.inFlight =
      Ordered.insert path.id r.inFlight := by
    generalize (r.markInFlight path.id).attempt d path = o at hcases ⊢
    cases hcases <;> rfl
  simp only [render, clearInFlight]
  rw [← hattempt]
  simp only [settle]
  split <;> rfl

theorem inFlight_delete (r : Renderer σ) (path : ServicePath) :
    (r.delete path).renderer.inFlight = r.inFlight := by
  simp only [delete]
  split <;> rfl

theorem Reached.inFlight_eq_nil {sink : σ} {log : List Reply} {r : Renderer σ}
    (h : Reached d sink log r) : r.inFlight = [] := by
  induction h with
  | start => rfl
  | render _ path ih => simp [inFlight_render, ih, Ordered.insert, Ordered.without]
  | delete _ path ih => rw [inFlight_delete, ih]
  | disturb _ _ ih => exact ih

theorem Reached.live_of_mem_leases {sink : σ} {log : List Reply} {r : Renderer σ}
    (h : Reached d sink log r) {lease : VlanLease} (hlease : lease ∈ r.pool.leases) :
    Reply.Live log lease.path := by
  induction h generalizing lease with
  | start => cases hlease
  | @render log r h path ih =>
    rw [Reply.live_concat]
    cases hresult : (r.render d path).result with
    | error e =>
      rw [pool_render_error hresult] at hlease
      obtain ⟨hlease, hkept⟩ := List.mem_filter.mp hlease
      refine Or.inr ⟨?_, id⟩
      rcases Plan.mem_leases_make hlease with hold | ⟨hpath, hcommitted⟩
      · exact ih hold
      · -- what is left of the path's lease was committed, so the path had one before
        obtain ⟨old, hold, hsame⟩ := hcommitted (by simpa [hpath] using hkept)
        rw [hpath, ← hsame]
        exact ih hold
    | ok report =>
      rw [pool_render_ok hresult] at hlease
      obtain ⟨old, hold, rfl⟩ := List.mem_map.mp hlease
      have hpath : (if old.path = path.id then { old with committed := true } else old).path =
          old.path := by
        split <;> rfl
      rw [hpath]
      rcases Plan.mem_leases_make hold with hold | ⟨hsame, -⟩
      · exact Or.inr ⟨ih hold, id⟩
      · exact Or.inl hsame.symm
  | @delete log r h path ih =>
    rw [Reply.live_concat]
    cases hresult : (r.delete path).result with
    | error e =>
      rw [delete_error hresult] at hlease
      exact Or.inr ⟨ih hlease, id⟩
    | ok switches =>
      rw [pool_delete_ok hresult] at hlease
      obtain ⟨hold, hother⟩ := List.mem_filter.mp hlease
      refine Or.inr ⟨ih hold, fun hsame => ?_⟩
      exact of_decide_eq_true hother hsame.symm
  | disturb _ _ ih => exact ih hlease

end Calls

variable {d : Deployment} {log : List Reply} {r : Renderer}

theorem Reached.live_of_mem_versions (h : Reached d ({} : FlowSink) log r) {key : FlowKey}
    {flow : Flow} (hflow : flow ∈ r.sink.store.versions key) {id : PathId}
    (howner : flow.owner = .path id) : Reply.Live log id := by
  induction h with
  | start => cases hflow
  | @render log r h path ih =>
    rw [Reply.live_concat]
    cases hresult : (r.render d path).result with
    | error e =>
      obtain ⟨pool, hstate⟩ := render_error hresult
      rw [hstate] at hflow
      exact Or.inr ⟨ih hflow, fun hdeletes => hdeletes⟩
    | ok report =>
      rw [store_render hresult] at hflow
      rcases FlowStore.mem_versions_commit hflow with hstaged | hold
      · rcases owner_of_mem_offered hresult hstaged with ⟨hnobody, -⟩ | ⟨hpath, -⟩
        · simp [hnobody] at howner
        · exact Or.inl (FlowOwner.path.inj (hpath.symm.trans howner))
      · exact Or.inr ⟨ih hold, fun hdeletes => hdeletes⟩
  | @delete log r h path ih =>
    rw [Reply.live_concat]
    cases hresult : (r.delete path).result with
    | error e =>
      rw [delete_error hresult] at hflow
      exact Or.inr ⟨ih hflow, fun hdeletes => hdeletes⟩
    | ok switches =>
      rw [FlowSink.store_of_deletePath (delete_ok hresult).1,
        h.store_wellFormed.versions_deleteOwner] at hflow
      obtain ⟨hold, hother⟩ := List.mem_filter.mp hflow
      refine Or.inr ⟨ih hold, fun hsame => of_decide_eq_true hother ?_⟩
      rw [howner, show path.id = id from hsame]
  | disturb _ _ ih => exact ih hflow

/-- Where no path is live the store has flows of nobody only, and no path has ids or a mark. -/
theorem Reached.nothing_left (h : Reached d ({} : FlowSink) log r)
    (hdeleted : ∀ id, ¬ Reply.Live log id) :
    (∀ key, ∀ flow ∈ r.sink.store.versions key, flow.owner = .unowned) ∧
      (∀ flow ∈ r.sink.store.flows, flow.owner = .unowned) ∧
      (∀ id, r.pool.held id = []) ∧ r.inFlight = [] := by
  have hversions (key : FlowKey) (flow : Flow) (hflow : flow ∈ r.sink.store.versions key) :
      flow.owner = .unowned := by
    cases howner : flow.owner with
    | unowned => rfl
    | path id => exact absurd (h.live_of_mem_versions hflow howner) (hdeleted id)
  have hleases : r.pool.leases = [] :=
    List.eq_nil_iff_forall_not_mem.mpr fun lease hlease =>
      hdeleted lease.path (h.live_of_mem_leases hlease)
  refine ⟨hversions, fun flow hflow => ?_, fun id => ?_, h.inFlight_eq_nil⟩
  · exact hversions flow.key flow (List.mem_of_getLast? ((h.store_wellFormed.mem_flows flow).mp
      hflow))
  · simp [VlanPool.held, VlanPool.lease?, hleases]

theorem Reached.default_of_mem_flows (h : Reached d ({} : FlowSink) log r) {flow : Flow}
    (hflow : flow ∈ r.sink.store.flows) (hnobody : flow.owner = .unowned) :
    ∃ logical port, flow ∈ d.defaultsOn (d.numbering logical) flow.switch port := by
  have hversion := List.mem_of_getLast? ((h.store_wellFormed.mem_flows flow).mp hflow)
  obtain ⟨-, path, pool, initialized, p, c, hplan, hmake, hstaged⟩ :=
    h.stages_of_mem_versions hversion
  have hp : p.Carries d path := Plan.make_ok (Prod.ext hplan rfl)
  obtain ⟨-, hdefault⟩ := Compilation.default_of_mem hp hmake hstaged hnobody
  exact ⟨p.graph.isLogical, _, hp.tables_eq ▸ hdefault⟩

end Renderer

namespace Scenario

open Renderer (Reached)

variable {d : Deployment} {log : List Reply} {r : Renderer}

theorem count_eq {α : Type} (failures : Nat) (o : Outcome α) :
    ∃ after, count failures o = (o.renderer, after) := by
  unfold count
  split
  · exact ⟨failures, rfl⟩
  · exact ⟨failures + 1, rfl⟩

theorem reached_renderAll (h : Reached d ({} : FlowSink) log r) (failures : Nat)
    (paths : List ServicePath) :
    ∃ replies, Reached d ({} : FlowSink) (log ++ replies) (renderAll d (r, failures) paths).1 ∧
      (renderAll d (r, failures) paths).1.sink.fault = r.sink.fault ∧
      ∀ reply ∈ replies, reply.path ∈ paths := by
  induction paths generalizing log r failures with
  | nil => exact ⟨[], by simpa [renderAll] using h, rfl, by simp⟩
  | cons path rest ih =>
    obtain ⟨after, hafter⟩ := count_eq failures (r.render d path)
    have hstep : renderAll d (r, failures) (path :: rest) =
        renderAll d ((r.render d path).renderer, after) rest :=
      congrArg (renderAll d · rest) hafter
    obtain ⟨replies, hreached, hfault, hpaths⟩ := ih (h.render path) after
    rw [hstep]
    refine ⟨.render path (r.render d path).result (r.render d path).trace :: replies, ?_, ?_, ?_⟩
    · rwa [List.append_cons]
    · exact hfault.trans (Renderer.fault_render d r path)
    · intro reply hreply
      rcases List.mem_cons.mp hreply with rfl | hreply
      · exact List.mem_cons_self
      · exact List.mem_cons_of_mem _ (hpaths reply hreply)

theorem reached_deleteAll (h : Reached d ({} : FlowSink) log r) (hfault : r.sink.fault = none)
    (failures : Nat) (paths : List ServicePath) (ids : List PathId) :
    ∃ replies,
      Reached d ({} : FlowSink) (log ++ replies) (deleteAll paths (r, failures) ids).1 ∧
      (∀ reply ∈ replies, ∀ id, ¬ reply.Renders id) ∧
      ∀ id ∈ ids, (∃ path ∈ paths, path.id = id) → ∃ reply ∈ replies, reply.Deletes id := by
  induction ids generalizing log r failures with
  | nil => exact ⟨[], by simpa [deleteAll] using h, by simp, by simp⟩
  | cons id rest ih =>
    cases hfind : paths.find? (·.id = id) with
    | none =>
      have hstep : deleteAll paths (r, failures) (id :: rest) =
          deleteAll paths (r, failures) rest := by
        simp [deleteAll, hfind]
      obtain ⟨replies, hreached, hnone, hdeletes⟩ := ih h hfault failures
      refine ⟨replies, hstep ▸ hreached, hnone, fun other hother hpath => ?_⟩
      rcases List.mem_cons.mp hother with rfl | hother
      · obtain ⟨path, hmem, hid⟩ := hpath
        exact absurd hid (by simpa using List.find?_eq_none.mp hfind path hmem)
      · exact hdeletes other hother hpath
    | some path =>
      have hid : path.id = id := by simpa using List.find?_some hfind
      obtain ⟨hresult, hstate⟩ := Renderer.delete_of_no_fault hfault path
      obtain ⟨after, hafter⟩ := count_eq failures (r.delete path)
      have hstep : deleteAll paths (r, failures) (id :: rest) =
          deleteAll paths ((r.delete path).renderer, after) rest := by
        simp [deleteAll, hfind, hafter]
      have hkept : (r.delete path).renderer.sink.fault = none := by
        rw [hstate]
        exact hfault
      obtain ⟨replies, hreached, hnone, hdeletes⟩ := ih (h.delete path) hkept after
      have hdeleted : (Reply.delete path (r.delete path).result (r.delete path).trace).Deletes
          id := by
        rw [hresult]
        exact hid
      rw [hstep]
      refine ⟨.delete path (r.delete path).result (r.delete path).trace :: replies, ?_, ?_, ?_⟩
      · rwa [List.append_cons]
      · intro reply hreply
        rcases List.mem_cons.mp hreply with rfl | hreply
        · exact fun _ hrenders => hrenders
        · exact hnone reply hreply
      · intro other hother hpath
        rcases List.mem_cons.mp hother with rfl | hother
        · exact ⟨_, List.mem_cons_self, hdeleted⟩
        · obtain ⟨reply, hreply, hdeletes⟩ := hdeletes other hother hpath
          exact ⟨reply, List.mem_cons_of_mem _ hreply, hdeletes⟩

theorem reached_run (s : Scenario) (config : Config) (ids : List PathId)
    (hids : ∀ path ∈ s.paths, path.id ∈ ids) :
    ∃ log, Reached ⟨config, s.topology, s.placements⟩ ({} : FlowSink) log (s.run config ids).1 ∧
      ∀ id, ¬ Reply.Live log id := by
  obtain ⟨renders, hrendered, hfault, hpaths⟩ := reached_renderAll
    (Reached.start (d := ⟨config, s.topology, s.placements⟩)) 0 s.paths
  obtain ⟨deletes, hdeleted, hnone, hdeletes⟩ :=
    reached_deleteAll hrendered hfault _ s.paths ids
  refine ⟨_, hdeleted, fun id hlive => ?_⟩
  obtain ⟨hbefore, hkept⟩ := hlive.of_append fun reply hreply => hnone reply hreply id
  obtain ⟨reply, hreply, hrenders⟩ := hbefore.exists_renders
  have hid : reply.path.id = id := by
    cases reply with
    | render path result trace =>
      cases result with
      | ok report => exact hrenders
      | error e => cases hrenders
    | delete path result trace => cases hrenders
  obtain ⟨deletion, hdeletion, hends⟩ := hdeletes id (hid ▸ hids _ (hpaths reply hreply))
    ⟨reply.path, hpaths reply hreply, hid⟩
  exact hkept deletion hdeletion hends

end Scenario

open Renderer (Reached)

theorem Request.flows_answer {request : Request} {ids : List PathId} {config : Config}
    {s : Scenario}
    (hids : request.deletes.mapM pathId? = some ids) (hconfig : request.loadConfig = .ok config)
    (hscenario : request.scenario.bind Scenario.ofText? = some s) :
    request.answer.flows = some (s.run config ids).1.sink.store.flows := by
  simp only [answer, hids, hconfig, hscenario]

/-- Complete teardown leaks nothing. Where every path that was rendered was deleted after its last
render, whatever else was tried, the store holds flows of nobody only, no path has an id, and none
is marked as in flight. In particular a command that is asked to delete every path of its scenario
prints default flows only. -/
theorem teardown_leaks_nothing :
    (∀ (d : Deployment) (log : List Reply) (r : Renderer), Reached d ({} : FlowSink) log r →
      (∀ id, ¬ Reply.Live log id) →
        (∀ key, ∀ flow ∈ r.sink.store.versions key, flow.owner = .unowned) ∧
        (∀ flow ∈ r.sink.store.flows, flow.owner = .unowned) ∧
        (∀ id, r.pool.held id = []) ∧ r.inFlight = []) ∧
    ∀ (request : Request) (ids : List PathId) (config : Config) (s : Scenario),
      request.deletes.mapM Request.pathId? = some ids → request.loadConfig = .ok config →
      request.scenario.bind Scenario.ofText? = some s → (∀ path ∈ s.paths, path.id ∈ ids) →
        ∃ flows, request.answer.flows = some flows ∧
          ∀ flow ∈ flows, flow.owner = .unowned ∧
            ∃ logical port,
              flow ∈ Deployment.defaultsOn ⟨config, s.topology, s.placements⟩
                (Deployment.numbering ⟨config, s.topology, s.placements⟩ logical)
                flow.switch port := by
  refine ⟨fun d log r h hdeleted => h.nothing_left hdeleted, ?_⟩
  intro request ids config s hids hconfig hscenario hall
  obtain ⟨log, hrun, hdeleted⟩ := s.reached_run config ids hall
  obtain ⟨-, hnobody, -⟩ := hrun.nothing_left hdeleted
  refine ⟨_, Request.flows_answer hids hconfig hscenario, fun flow hflow => ?_⟩
  exact ⟨hnobody flow hflow, hrun.default_of_mem_flows hflow (hnobody flow hflow)⟩

def edgeText : String := "model:
  forwarders:
  - name: edge
    node_id: openflow:1
    service_functions:
    - service_function: firewall
      ingress_locator: inside
  service_functions:
  - name: firewall
paths:
- name: edge
  path_id: 1
  hops:
  - forwarder: edge
    service_function: firewall
    service_index: 255
  transport: vxlan-gpe
  encapsulation: nsh
  starting_index: 255
"

def edgeScenario : Scenario where
  topology :=
    { forwarders :=
        [⟨"edge", some "openflow:1", [], [⟨"firewall", "inside", none, none, none⟩], none, none,
            none⟩]
      serviceFunctions := [⟨"firewall", "", [], false⟩] }
  placements := .empty
  paths := [Renderer.edgePath]

def Scenario.ofChars? (cs : List Char) : Option Scenario :=
  match (if cs.all Document.Yaml.isPrintable then
      (Document.Yaml.scan? {} (Document.Yaml.unifyBreaks cs)).bind Document.Yaml.document?
    else none).map ofDocument with
  | some (.ok scenario) => some scenario
  | _ => none

theorem Scenario.ofText?_ofList (cs : List Char) : ofText? (String.ofList cs) = ofChars? cs :=
  congrArg ofChars? String.toList_ofList

set_option maxRecDepth 8000 in
theorem ofText?_edgeText : Scenario.ofText? edgeText = some edgeScenario :=
  (Scenario.ofText?_ofList _).trans (by decide +kernel)

namespace Renderer

/-- When the line is deleted its ids are given back; and the command that deletes the path of the
text prints what is left on its switch. -/
theorem teardown_line :
    lineRendered.pool.held 3 = [lineId 0, lineId 1] ∧
      (lineRendered.delete (linePath 3)).renderer.pool.held 3 = [] ∧
      (∃ flow ∈ (edgeScenario.run {} []).1.sink.store.flows, flow.owner = .path 1) ∧
      ∃ flows, (Request.answer ⟨some edgeText, none, ["1"]⟩).flows = some flows ∧
        flows.length = 5 ∧ ∀ flow ∈ flows, flow.owner = .unowned := by
  obtain ⟨hstore, hcommand⟩ := teardown_leaks_nothing
  have hline : Reached vlanDeployment ({} : FlowSink)
      [.render (linePath 3) _ _,
        .delete (linePath 3) (lineRendered.delete (linePath 3)).result _]
      (lineRendered.delete (linePath 3)).renderer :=
    (Reached.start.render (linePath 3)).delete (linePath 3)
  obtain ⟨hresult, -⟩ := delete_of_no_fault fault_lineRendered (linePath 3)
  rw [hresult] at hline
  obtain ⟨-, -, hheld, -⟩ := hstore vlanDeployment _ _ hline (Reply.not_live_of_deleted _)
  have hids : ["1"].mapM Request.pathId? = some [1] := by decide +kernel
  have hscenario : (some edgeText).bind Scenario.ofText? = some edgeScenario :=
    (Option.bind_some edgeText Scenario.ofText?).trans ofText?_edgeText
  obtain ⟨flows, hflows, hdefault⟩ := hcommand ⟨some edgeText, none, ["1"]⟩ [1] {} edgeScenario
    hids rfl hscenario (by decide)
  have hanswer := @Request.flows_answer ⟨some edgeText, none, ["1"]⟩ [1] {} edgeScenario hids rfl
    hscenario
  obtain rfl := Option.some.inj (hflows.symm.trans hanswer)
  refine ⟨?_, hheld 3, by decide +kernel, _, hflows, by decide +kernel, fun flow hflow => ?_⟩
  · rw [pool_lineRendered]
    rfl
  · exact (hdefault flow hflow).1

end Renderer
end ServiceChain
