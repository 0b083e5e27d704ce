import ServiceChain.Proofs.DefaultsOnce

/-! Which default flows a switch holds. It gets them once, in the numbering and with the accelerated
port of the render that finds it uninitialized; later renders rely on them whatever their own
numbering and port are. -/
namespace ServiceChain

namespace Reply

/-- The default flows that a call brought to a switch. -/
def defaultsOn (d : Deployment) (switch : SwitchId) : Reply → List Flow
  | render path (.ok report) _ =>
    if switch ∈ report.initialized then
      d.defaultsOn (d.numbering report.logical) switch (d.firstPort? path.hops switch)
    else []
  | _ => []

theorem defaultsOn_of_mem (d : Deployment) {reply : Reply} {switch : SwitchId}
    (h : switch ∈ reply.initialized) :
    ∃ path report trace, reply = render path (.ok report) trace ∧ switch ∈ report.initialized ∧
      reply.defaultsOn d switch =
        d.defaultsOn (d.numbering report.logical) switch (d.firstPort? path.hops switch) := by
  cases reply with
  | render path result trace =>
    cases result with
    | ok report => exact ⟨path, report, trace, rfl, h, if_pos h⟩
    | error e => simp [initialized] at h
  | delete path result trace => simp [initialized] at h

theorem defaultsOn_of_notMem (d : Deployment) {reply : Reply} {switch : SwitchId}
    (h : switch ∉ reply.initialized) : reply.defaultsOn d switch = [] := by
  cases reply with
  | render path result trace =>
    cases result with
    | ok report => exact if_neg h
    | error e => rfl
  | delete path result trace => rfl

/-- The last default flow that the calls brought under a key. -/
def lastDefault? (d : Deployment) (log : List Reply) (key : FlowKey) : Option Flow :=
  ((log.flatMap (·.defaultsOn d key.switch)).filter (·.key = key)).getLast?

theorem drop_unowned_notMem_events (reply : Reply) :
    StoreEvent.drop .unowned ∉ reply.events := by
  unfold events
  split <;> simp

end Reply

theorem Deployment.owner_of_mem_defaultsOn {d : Deployment} {tables : TableNumbers}
    {switch : SwitchId} {port : Option UInt32} {flow : Flow}
    (h : flow ∈ d.defaultsOn tables switch port) :
    flow.owner = .unowned ∧ flow.switch = switch := by
  obtain ⟨template, _, rfl⟩ := List.mem_map.mp h
  exact ⟨rfl, rfl⟩

theorem Deployment.keys_defaultsOn_nodup (d : Deployment) {tables : TableNumbers}
    (h : tables.toList.Nodup) (switch : SwitchId) (port : Option UInt32) :
    ((d.defaultsOn tables switch port).map (·.key)).Nodup := by
  simp only [TableNumbers.toList, List.nodup_cons, List.mem_cons, List.not_mem_nil, or_false,
    not_or] at h
  cases port with
  | none =>
    simp [defaultsOn, defaultFlows, acceleratedFlows, FlowTemplate.on, Flow.key,
      FlowTemplate.matchAny, TableNumbers.resolve, h]
  | some port =>
    simp [defaultsOn, defaultFlows, acceleratedFlows, FlowTemplate.on, Flow.key,
      FlowTemplate.matchAny, FlowTemplate.bypass, TableNumbers.resolve, h, Priority.matchAny,
      Priority.acceleratedBypass, FlowMatch.withInPort, FlowMatch.any]

theorem getLast?_of_forall_eq {α : Type} {l : List α} {a : α} (hmem : a ∈ l)
    (hall : ∀ b ∈ l, b = a) : l.getLast? = some a := by
  have hne : l ≠ [] := List.ne_nil_of_mem hmem
  rw [List.getLast?_eq_some_getLast hne, hall _ (List.getLast_mem hne)]

namespace Renderer

variable {d : Deployment}

theorem Reached.filter_puts_default {σ : Type} [FlowDestination σ] {sink : σ} {log : List Reply}
    {r : Renderer σ} (h : Reached d sink log r) (switch : SwitchId) :
    (StoreEvent.puts (log.flatMap (·.events))).filter (·.isDefaultOn switch) =
      log.flatMap (·.defaultsOn d switch) := by
  induction h with
  | start => rfl
  | @render log r _ path ih =>
    rw [List.flatMap_append, List.flatMap_append, List.flatMap_singleton, List.flatMap_singleton,
      StoreEvent.puts_append, List.filter_append, ih]
    congr 1
    cases hresult : (r.render d path).result with
    | error e => rfl
    | ok report =>
      rw [Reply.events, StoreEvent.puts_map_put, filter_offered_default hresult, Reply.defaultsOn]
  | @delete log r _ path ih =>
    rw [List.flatMap_append, List.flatMap_append, List.flatMap_singleton, List.flatMap_singleton,
      StoreEvent.puts_append, List.filter_append, ih]
    congr 1
    cases (r.delete path).result <;> rfl
  | disturb _ _ ih => exact ih

/-- The store holds an unowned flow as long as no later default flow has its key. -/
theorem Reached.mem_versions_iff {log : List Reply} {r : Renderer}
    (h : Reached d ({} : FlowSink) log r) {flow : Flow} (hflow : flow.owner = .unowned) :
    flow ∈ r.sink.store.versions flow.key ↔ Reply.lastDefault? d log flow.key = some flow := by
  have hkept : StoreEvent.drop flow.owner ∉ log.flatMap (·.events) := by
    rw [hflow, List.mem_flatMap]
    rintro ⟨reply, -, hdrop⟩
    exact reply.drop_unowned_notMem_events hdrop
  have hfilter : (StoreEvent.puts (log.flatMap (·.events))).filter
      (fun other => other.owner = flow.owner ∧ other.key = flow.key) =
        (log.flatMap (·.defaultsOn d flow.key.switch)).filter (·.key = flow.key) := by
    rw [← h.filter_puts_default, List.filter_filter]
    refine List.filter_congr fun other _ => ?_
    by_cases hkey : other.key = flow.key
    · have hswitch : other.switch = flow.key.switch := congrArg FlowKey.switch hkey
      simp [Flow.isDefaultOn, hkey, hswitch, hflow]
    · simp [hkey]
  rw [h.store_eq, StoreEvent.versions_replay, List.mem_filter, Reply.lastDefault?, ← hfilter,
    ← StoreEvent.mem_live_iff hkept]
  simp

/-- A taken render leaves a switch of its hops with the default flows of its numbering and of the
hop's port exactly if each of them is the last default flow that the switch was brought under its
key, by this render or one before. -/
theorem Reached.defaults_held_iff {log : List Reply} {r : Renderer}
    (h : Reached d ({} : FlowSink) log r) (path : ServicePath) (report : RenderReport)
    (hreport : (r.render d path).result = .ok report) :
    ∀ hop ∈ path.hops, ∀ switch, d.switchOf? hop = some switch →
      ((∀ flow ∈ d.defaultsOn (d.numbering report.logical) switch (d.acceleratedPort? hop),
          flow ∈ (r.render d path).renderer.sink.store.versions flow.key) ↔
        ∀ flow ∈ d.defaultsOn (d.numbering report.logical) switch (d.acceleratedPort? hop),
          Reply.lastDefault? d (log ++ [.render path (.ok report) (r.render d path).trace])
            flow.key = some flow) := by
  intro hop _ switch _
  have hrendered := h.render path
  rw [hreport] at hrendered
  refine forall₂_congr fun flow hflow => ?_
  exact hrendered.mem_versions_iff (Deployment.owner_of_mem_defaultsOn hflow).1

theorem defaults_held_fresh :
    (∃ hop ∈ edgePath.hops, sharedDeployment.switchOf? hop = some "openflow:7") ∧
      ∀ flow ∈ sharedDeployment.defaultsOn sharedDeployment.config.standardTables "openflow:7" none,
        flow ∈ ((fresh sharedDeployment).render sharedDeployment
          edgePath).renderer.sink.store.versions flow.key := by
  have hstart : Reached sharedDeployment ({} : FlowSink) [] (fresh sharedDeployment) := .start
  have hhop : (⟨"edge", "firewall", none, 255⟩ : Hop) ∈ edgePath.hops := List.mem_singleton.mpr rfl
  have h := hstart.defaults_held_iff edgePath _ rfl _ hhop "openflow:7" rfl
  exact ⟨⟨_, hhop, rfl⟩, h.mpr (by decide +kernel)⟩

/-- With the overlay rendered first, the edge path finds nothing in the tables of its own
numbering: packets that its flows do not match are lost there. -/
theorem defaults_not_held :
    ¬ ∀ (d : Deployment) (log : List Reply) (r : Renderer), Reached d ({} : FlowSink) log r →
      ∀ path report, (r.render d path).result = .ok report →
        ∀ hop ∈ path.hops, ∀ switch, d.switchOf? hop = some switch →
          ∀ flow ∈ d.defaultsOn (d.numbering report.logical) switch (d.acceleratedPort? hop),
            flow ∈ (r.render d path).renderer.sink.store.versions flow.key := by
  intro hheld
  have hrendered : Reached sharedDeployment ({} : FlowSink) _ overlayRendered :=
    Reached.start.render overlayPath
  have hheld := hheld sharedDeployment _ overlayRendered hrendered edgePath _ rfl _
    (List.mem_singleton.mpr rfl) "openflow:7" rfl
    ((FlowTemplate.matchAny .nextHop (.goto .transportEgress)).on
      sharedDeployment.config.standardTables .unowned "openflow:7")
    (List.mem_map.mpr ⟨_, by simp [defaultFlows], rfl⟩)
  exact List.not_mem_nil hheld

/-- Where all renders that initialized a switch did so in one numbering, without repetition, and
with one accelerated port, every later render in that numbering and with that port finds the
default flows it relies on. -/
theorem Reached.defaults_held_of_uniform {log : List Reply} {r : Renderer}
    (h : Reached d ({} : FlowSink) log r) {path : ServicePath} {report : RenderReport}
    (hreport : (r.render d path).result = .ok report) {hop : Hop} (hhop : hop ∈ path.hops)
    {switch : SwitchId} (hswitch : d.switchOf? hop = some switch)
    (hnodup : (d.numbering report.logical).toList.Nodup)
    (huniform : ∀ other listed trace,
      .render other (.ok listed) trace ∈
        log ++ [Reply.render path (.ok report) (r.render d path).trace] →
      switch ∈ listed.initialized →
        d.numbering listed.logical = d.numbering report.logical ∧
          d.firstPort? other.hops switch = d.acceleratedPort? hop) :
    ∀ flow ∈ d.defaultsOn (d.numbering report.logical) switch (d.acceleratedPort? hop),
      flow ∈ (r.render d path).renderer.sink.store.versions flow.key := by
  intro flow hflow
  have hrendered := h.render path
  rw [hreport] at hrendered
  have hkeys := List.inj_on_of_nodup_map (d.keys_defaultsOn_nodup hnodup switch
    (d.acceleratedPort? hop))
  obtain ⟨howner, hon⟩ := Deployment.owner_of_mem_defaultsOn hflow
  rw [hrendered.mem_versions_iff howner, Reply.lastDefault?, show flow.key.switch = switch from hon]
  refine getLast?_of_forall_eq ?_ fun other hother => ?_
  · obtain ⟨before, reply, after, hlog, hlisted, -⟩ := (hrendered.mem_initialized switch).mp
      (switch_mem_initialized hreport hhop hswitch)
    have hreply : reply ∈ log ++ [Reply.render path (.ok report) (r.render d path).trace] := by
      simp [hlog]
    obtain ⟨path', report', trace', rfl, hlisted, hbrought⟩ := Reply.defaultsOn_of_mem d hlisted
    obtain ⟨htables, hport⟩ := huniform path' report' trace' hreply hlisted
    rw [htables, hport] at hbrought
    simp only [List.mem_filter, List.mem_flatMap, decide_true, and_true]
    exact ⟨_, hreply, hbrought ▸ hflow⟩
  · obtain ⟨hother, hkey⟩ := List.mem_filter.mp hother
    obtain ⟨reply, hreply, hother⟩ := List.mem_flatMap.mp hother
    by_cases hlisted : switch ∈ reply.initialized
    · obtain ⟨path', report', trace', rfl, hlisted, hbrought⟩ := Reply.defaultsOn_of_mem d hlisted
      obtain ⟨htables, hport⟩ := huniform path' report' trace' hreply hlisted
      rw [hbrought, htables, hport] at hother
      exact hkeys hother hflow (of_decide_eq_true hkey)
    · simp [Reply.defaultsOn_of_notMem d hlisted] at hother

end Renderer
end ServiceChain
