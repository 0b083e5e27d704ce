import ServiceChain.Proofs.RenderOutcome
import ServiceChain.Proofs.StoreHistory

/-! Runs of a renderer: the calls it was asked to do since it started, in any order, with what it
answered to each. -/
namespace ServiceChain

/-- A call, its result, and what it told the outside. -/
inductive Reply where
  | render (path : ServicePath) (result : Except RenderError RenderReport) (trace : RenderTrace)
  | delete (path : ServicePath) (result : Except RenderError (List SwitchId))
      (trace : RenderTrace)

namespace Reply

def path : Reply → ServicePath
  | render path _ _ => path
  | delete path _ _ => path

/-- The switches that a render lists as initialized. -/
def initialized : Reply → List SwitchId
  | render _ (.ok report) _ => report.initialized
  | _ => []

def reset : Reply → List SwitchId
  | delete _ (.ok switches) _ => switches
  | _ => []

def events : Reply → List StoreEvent
  | render _ (.ok _) trace => trace.offered.map .put
  | delete path (.ok _) _ => [.drop (.path path.id)]
  | _ => []

def Renders (id : PathId) : Reply → Prop
  | render path (.ok _) _ => path.id = id
  | _ => False

def Deletes (id : PathId) : Reply → Prop
  | delete path (.ok _) _ => path.id = id
  | _ => False

/-- A reply of one kind was given, and none of another kind since. -/
def Stands (begins ends : Reply → Prop) (log : List Reply) : Prop :=
  ∃ before reply after, log = before ++ reply :: after ∧ begins reply ∧
    ∀ later ∈ after, ¬ ends later

theorem not_stands_nil (begins ends : Reply → Prop) : ¬ Stands begins ends [] := by
  rintro ⟨before, reply, after, hlog, -⟩
  simp at hlog

theorem stands_concat {begins ends : Reply → Prop} {log : List Reply} {reply : Reply} :
    Stands begins ends (log ++ [reply]) ↔
      begins reply ∨ Stands begins ends log ∧ ¬ ends reply := by
  constructor
  · rintro ⟨before, first, after, hlog, hfirst, hkept⟩
    rcases after.eq_nil_or_concat with rfl | ⟨middle, last, rfl⟩
    · obtain ⟨rfl, hlast⟩ := List.append_inj' hlog rfl
      cases hlast
      exact Or.inl hfirst
    · have hlog : log ++ [reply] = (before ++ first :: middle) ++ [last] := by simpa using hlog
      obtain ⟨rfl, hlast⟩ := List.append_inj' hlog rfl
      cases hlast
      refine Or.inr ⟨⟨before, first, middle, rfl, hfirst, fun later hlater => ?_⟩, ?_⟩
      · exact hkept later (by simp [hlater])
      · exact hkept reply (by simp)
  · rintro (hfirst | ⟨⟨before, first, after, rfl, hfirst, hkept⟩, hlast⟩)
    · exact ⟨log, reply, [], rfl, hfirst, by simp⟩
    · refine ⟨before, first, after ++ [reply], by simp, hfirst, fun later hlater => ?_⟩
      rcases List.mem_append.mp hlater with hlater | hlater
      · exact hkept later hlater
      · cases List.mem_singleton.mp hlater
        exact hlast

/-- A render listed the switch, and no later deletion answered it. -/
def Initializes (log : List Reply) (switch : SwitchId) : Prop :=
  ∃ before reply after, log = before ++ reply :: after ∧ switch ∈ reply.initialized ∧
    ∀ later ∈ after, switch ∉ later.reset

theorem not_initializes_nil (switch : SwitchId) : ¬ Initializes [] switch :=
  not_stands_nil (switch ∈ ·.initialized) (switch ∈ ·.reset)

theorem initializes_concat {log : List Reply} {reply : Reply} {switch : SwitchId} :
    Initializes (log ++ [reply]) switch ↔
      switch ∈ reply.initialized ∨ Initializes log switch ∧ switch ∉ reply.reset :=
  @stands_concat (switch ∈ ·.initialized) (switch ∈ ·.reset) log reply

end Reply

namespace Renderer

variable {σ : Type} [FlowDestination σ]

/-- The states a renderer comes to, each with the replies given until then. Between calls the
destination may be disturbed. -/
inductive Reached (d : Deployment) (sink : σ) : List Reply → Renderer σ → Prop
  | start : Reached d sink [] (.start d sink)
  | render {log : List Reply} {r : Renderer σ} (h : Reached d sink log r) (path : ServicePath) :
      Reached d sink (log ++ [.render path (r.render d path).result (r.render d path).trace])
        (r.render d path).renderer
  | delete {log : List Reply} {r : Renderer σ} (h : Reached d sink log r) (path : ServicePath) :
      Reached d sink (log ++ [.delete path (r.delete path).result (r.delete path).trace])
        (r.delete path).renderer
  | disturb {log : List Reply} {r : Renderer σ} (h : Reached d sink log r)
      (disturbance : FlowDestination.Disturbance σ) :
      Reached d sink log { r with sink := FlowDestination.disturb disturbance r.sink }

/-- The states that further calls lead to, each with the replies given on the way. -/
inductive Continues (d : Deployment) (start : Renderer σ) : List Reply → Renderer σ → Prop
  | refl : Continues d start [] start
  | render {since : List Reply} {r : Renderer σ} (h : Continues d start since r)
      (path : ServicePath) :
      Continues d start
        (since ++ [.render path (r.render d path).result (r.render d path).trace])
        (r.render d path).renderer
  | delete {since : List Reply} {r : Renderer σ} (h : Continues d start since r)
      (path : ServicePath) :
      Continues d start (since ++ [.delete path (r.delete path).result (r.delete path).trace])
        (r.delete path).renderer
  | disturb {since : List Reply} {r : Renderer σ} (h : Continues d start since r)
      (disturbance : FlowDestination.Disturbance σ) :
      Continues d start since { r with sink := FlowDestination.disturb disturbance r.sink }

theorem Continues.reached {d : Deployment} {sink : σ} {log since : List Reply} {r s : Renderer σ}
    (h : Continues d r since s) (hreached : Reached d sink log r) :
    Reached d sink (log ++ since) s := by
  induction h with
  | refl => simpa using hreached
  | render _ path ih => simpa using ih.render path
  | delete _ path ih => simpa using ih.delete path
  | disturb _ disturbance ih => exact ih.disturb disturbance

theorem Reached.continues {d : Deployment} {sink : σ} {log : List Reply} {r : Renderer σ}
    (h : Reached d sink log r) : Continues d (.start d sink) log r := by
  induction h with
  | start => exact .refl
  | render _ path ih => exact ih.render path
  | delete _ path ih => exact ih.delete path
  | disturb _ disturbance ih => exact ih.disturb disturbance

theorem Continues.exists_of_mem_puts {d : Deployment} {start r : Renderer σ} {since : List Reply}
    (h : Continues d start since r) {flow : Flow}
    (hflow : flow ∈ StoreEvent.puts (since.flatMap (·.events))) :
    ∃ before s path report, Continues d start before s ∧
      (s.render d path).result = .ok report ∧ before ⊆ since ∧
      .render path (.ok report) (s.render d path).trace ∈ since ∧
      flow ∈ (s.render d path).trace.offered := by
  -- on the last call: either it offered the flow or one before did
  induction h with
  | refl => cases hflow
  | @render since r h path ih =>
    rw [List.flatMap_append, List.flatMap_singleton, StoreEvent.puts_append,
      List.mem_append] at hflow
    rcases hflow with hflow | hflow
    · obtain ⟨before, s, other, report, hs, hreport, hearlier, hreply, hoffered⟩ := ih hflow
      exact ⟨before, s, other, report, hs, hreport, List.subset_append_of_subset_left _ hearlier,
        List.mem_append_left _ hreply, hoffered⟩
    · cases hresult : (r.render d path).result with
      | error e => simp [hresult, Reply.events, StoreEvent.puts] at hflow
      | ok report =>
        rw [hresult, Reply.events, StoreEvent.puts_map_put] at hflow
        exact ⟨since, r, path, report, h, hresult, List.subset_append_left _ _,
          List.mem_append_right _ (List.mem_singleton_self _), hflow⟩
  | @delete since r h path ih =>
    rw [List.flatMap_append, List.flatMap_singleton, StoreEvent.puts_append,
      List.mem_append] at hflow
    rcases hflow with hflow | hflow
    · obtain ⟨before, s, other, report, hs, hreport, hearlier, hreply, hoffered⟩ := ih hflow
      exact ⟨before, s, other, report, hs, hreport, List.subset_append_of_subset_left _ hearlier,
        List.mem_append_left _ hreply, hoffered⟩
    · cases hresult : (r.delete path).result <;>
        simp [hresult, Reply.events, StoreEvent.puts] at hflow
  | disturb _ _ ih => exact ih hflow

theorem delete_ok {r : Renderer σ} {path : ServicePath} {switches : List SwitchId}
    (h : (r.delete path).result = .ok switches) :
    FlowDestination.deletePath r.sink path.id =
        .ok (switches, (r.delete path).renderer.sink) ∧
      (r.delete path).renderer.initialized = Ordered.without r.initialized switches := by
  simp only [delete] at h ⊢
  split at h
  · cases h
  · next hdelete =>
    cases h
    simp [hdelete]

theorem delete_error {r : Renderer σ} {path : ServicePath} {e : RenderError}
    (h : (r.delete path).result = .error e) : (r.delete path).renderer = r := by
  simp only [delete] at h ⊢
  split at h
  · rfl
  · cases h

theorem Reached.mem_initialized {d : Deployment} {sink : σ} {log : List Reply} {r : Renderer σ}
    (h : Reached d sink log r) (switch : SwitchId) :
    switch ∈ r.initialized ↔ Reply.Initializes log switch := by
  induction h with
  | start => simpa [Renderer.start] using Reply.not_initializes_nil switch
  | @render log r _ path ih =>
    rw [Reply.initializes_concat]
    cases hresult : (r.render d path).result with
    | error e =>
      obtain ⟨pool, hstate⟩ := render_error hresult
      simp [hstate, ih, Reply.initialized, Reply.reset]
    | ok report =>
      obtain ⟨p, c, -, -, -, rfl, hinitialized, -⟩ := render_ok hresult
      simp [hinitialized, ih, Reply.initialized, Reply.reset]
  | @delete log r _ path ih =>
    rw [Reply.initializes_concat]
    cases hresult : (r.delete path).result with
    | error e => simp [delete_error hresult, ih, Reply.initialized, Reply.reset]
    | ok switches =>
      simp [(delete_ok hresult).2, ih, Reply.initialized, Reply.reset]
  | disturb _ _ ih => exact ih

/-- The store of a renderer is that of the flows it committed and the paths it deleted. -/
theorem Reached.store_eq {d : Deployment} {log : List Reply} {r : Renderer}
    (h : Reached d ({} : FlowSink) log r) :
    r.sink.store = StoreEvent.replay (log.flatMap (·.events)) := by
  induction h with
  | start => rfl
  | @render log r _ path ih =>
    rw [List.flatMap_append, List.flatMap_singleton, StoreEvent.replay_append, ← ih]
    cases hresult : (r.render d path).result with
    | error e =>
      obtain ⟨pool, hstate⟩ := render_error hresult
      simp [hstate, Reply.events]
    | ok report =>
      rcases sink_render hresult with ⟨hnone, hsink⟩ | hcommit
      · simp [Reply.events, hnone, hsink]
      · rw [FlowSink.store_of_commit hcommit, Reply.events, List.foldl_map]
        rfl
  | @delete log r _ path ih =>
    rw [List.flatMap_append, List.flatMap_singleton, StoreEvent.replay_append, ← ih]
    cases hresult : (r.delete path).result with
    | error e => simp [delete_error hresult, Reply.events]
    | ok switches =>
      obtain ⟨hdelete, -⟩ := delete_ok hresult
      rw [FlowSink.store_of_deletePath hdelete]
      rfl
  | disturb _ _ ih => exact ih

theorem Reached.store_wellFormed {d : Deployment} {log : List Reply} {r : Renderer}
    (h : Reached d ({} : FlowSink) log r) : r.sink.store.WellFormed := by
  rw [h.store_eq]
  exact StoreEvent.wellFormed_replay _

/-- Further calls keep of a key's versions those that they do not end, and add the flows that they
leave live. -/
theorem Continues.versions_eq {d : Deployment} {log since : List Reply} {start r : Renderer}
    (h : Continues d start since r) (hstart : Reached d ({} : FlowSink) log start) (key : FlowKey) :
    r.sink.store.versions key =
      (start.sink.store.versions key).filter
          (fun flow => !(since.flatMap (·.events)).any (·.ends flow)) ++
        (StoreEvent.live (since.flatMap (·.events))).filter (·.key = key) := by
  rw [(h.reached hstart).store_eq, hstart.store_eq, StoreEvent.versions_replay,
    StoreEvent.versions_replay, List.flatMap_append, StoreEvent.live_append, List.filter_append,
    List.filter_filter, List.filter_filter]
  congr 1
  exact List.filter_congr fun flow _ => Bool.and_comm _ _

theorem isOk_render {d : Deployment} {r : Renderer} {path : ServicePath} {p : Plan}
    {pool : VlanPool} (hplan : Plan.make d r.pool path = (.ok p, pool))
    (hfault : r.sink.fault = none) :
    (r.render d path).result.isOk = (Compilation.make d p r.initialized).isOk := by
  cases hmake : Compilation.make d p r.initialized with
  | error e =>
    rw [result_render]
    simp only [attempt, markInFlight, hplan, hmake]
    rfl
  | ok c =>
    obtain ⟨sink, hflush⟩ := FlowBatch.flush_ok_iff (b := c.batch) |>.mpr (Or.inr hfault)
    rw [result_render_of_flush (congrArg Prod.fst hplan) hmake hflush]
    rfl

theorem fault_render (d : Deployment) (r : Renderer) (path : ServicePath) :
    (r.render d path).renderer.sink.fault = r.sink.fault := by
  cases hresult : (r.render d path).result with
  | error e =>
    obtain ⟨pool, hstate⟩ := render_error hresult
    rw [hstate]
  | ok report =>
    rcases sink_render hresult with ⟨-, hsink⟩ | hcommit
    · rw [hsink]
    · exact FlowSink.fault_of_commit hcommit

end Renderer
end ServiceChain
