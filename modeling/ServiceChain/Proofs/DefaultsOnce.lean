import ServiceChain.Proofs.BatchContents
import ServiceChain.Proofs.Reached

/-! Default flows are written once: by the render that finds a switch uninitialized, and again only
after a deletion took the switch's flows away. -/
namespace ServiceChain
namespace Renderer

variable {σ : Type} [FlowDestination σ] {d : Deployment}

section Taken

variable {r : Renderer σ} {path : ServicePath} {report : RenderReport}

theorem mem_report_initialized (h : (r.render d path).result = .ok report) (switch : SwitchId) :
    switch ∈ report.initialized ↔
      (∃ hop ∈ path.hops, d.switchOf? hop = some switch) ∧ switch ∉ r.initialized := by
  obtain ⟨p, c, hp, hmake, -, rfl, -⟩ := render_ok h
  exact (Compilation.covers_make hp hmake).pending switch

/-- The flows offered have the default flows of every listed switch, once, and no others. -/
theorem filter_offered_default (h : (r.render d path).result = .ok report) (switch : SwitchId) :
    (r.render d path).trace.offered.filter (·.isDefaultOn switch) =
      if switch ∈ report.initialized then
        d.defaultsOn (d.numbering report.logical) switch (d.firstPort? path.hops switch)
      else [] := by
  obtain ⟨p, c, hp, hmake, -, rfl, -, hoffered⟩ := render_ok h
  rw [hoffered, (Compilation.covers_make hp hmake).defaults, hp.tables_eq]

theorem switch_of_mem_offered (h : (r.render d path).result = .ok report) {flow : Flow}
    (hflow : flow ∈ (r.render d path).trace.offered) :
    flow.switch ∈ (r.render d path).renderer.initialized := by
  obtain ⟨p, c, hp, hmake, -, rfl, hinitialized, hoffered⟩ := render_ok h
  rw [hoffered] at hflow
  rw [hinitialized, Ordered.mem_insertAll]
  exact ((Compilation.covers_make hp hmake).covered flow hflow).symm

theorem switch_mem_initialized (h : (r.render d path).result = .ok report) {hop : Hop}
    (hhop : hop ∈ path.hops) {switch : SwitchId} (hswitch : d.switchOf? hop = some switch) :
    switch ∈ (r.render d path).renderer.initialized := by
  obtain ⟨p, c, hp, hmake, -, rfl, hinitialized, -⟩ := render_ok h
  rw [hinitialized, Ordered.mem_insertAll]
  exact ((Compilation.covers_make hp hmake).known hhop hswitch).symm

end Taken

/-- The switches that count as initialized are those a render listed and no later deletion
answered. A taken render lists the switches of its hops that did not count; the batch it commits
has the default flows of these, once, and of no others; and every switch in the batch counts from
then on. -/
theorem Reached.defaults_once {sink : σ} {log : List Reply} {r : Renderer σ}
    (h : Reached d sink log r) :
    (∀ switch, switch ∈ r.initialized ↔ Reply.Initializes log switch) ∧
      ∀ path report, (r.render d path).result = .ok report →
        (∀ switch, switch ∈ report.initialized ↔
          (∃ hop ∈ path.hops, d.switchOf? hop = some switch) ∧ switch ∉ r.initialized) ∧
        ((r.render d path).trace.offered = [] ∧ (r.render d path).renderer.sink = r.sink ∨
          FlowDestination.commit r.sink (r.render d path).trace.offered =
            .ok (r.render d path).renderer.sink) ∧
        (∀ switch, (r.render d path).trace.offered.filter (·.isDefaultOn switch) =
          if switch ∈ report.initialized then
            d.defaultsOn (d.numbering report.logical) switch (d.firstPort? path.hops switch)
          else []) ∧
        ∀ flow ∈ (r.render d path).trace.offered,
          flow.switch ∈ (r.render d path).renderer.initialized := by
  refine ⟨h.mem_initialized, fun path report hreport => ?_⟩
  exact ⟨mem_report_initialized hreport, sink_render hreport, filter_offered_default hreport,
    fun flow hflow => switch_of_mem_offered hreport hflow⟩

def sharedDeployment : Deployment where
  topology :=
    { forwarders :=
        [⟨"edge", some "openflow:7", [], [⟨"firewall", "inside", none, some 1, none⟩], none, none,
            none⟩,
          ⟨"overlay", none, [], [⟨"inspector", "tap", none, none, none⟩], none, none, none⟩]
      serviceFunctions :=
        [⟨"firewall", "firewall", [⟨"inside", .ip (.v4 10 0 0 2) none⟩], false⟩,
          ⟨"inspector", "dpi", [⟨"tap", .logicalInterface "tap7" none⟩], false⟩] }
  placements := ⟨[("tap7", ⟨7⟩)], []⟩

def edgePath : ServicePath where
  name := "edge"
  id := 1
  hops := [⟨"edge", "firewall", none, 255⟩]
  transport := .vxlanGpe
  encapsulation := .nsh
  startingIndex := 255
  direction := .forward

def overlayPath : ServicePath :=
  { edgePath with name := "overlay", id := 2, hops := [⟨"overlay", "inspector", none, 255⟩] }

def overlayRendered : Renderer :=
  ((fresh sharedDeployment).render sharedDeployment overlayPath).renderer

theorem defaults_once_after_delete :
    "openflow:7" ∈ overlayRendered.initialized ∧
      "openflow:7" ∉ (overlayRendered.delete overlayPath).renderer.initialized ∧
      ((overlayRendered.delete overlayPath).renderer.render sharedDeployment
            edgePath).trace.offered.filter (·.isDefaultOn "openflow:7") =
        sharedDeployment.defaultsOn sharedDeployment.config.standardTables "openflow:7" none := by
  have hrendered : Reached sharedDeployment ({} : FlowSink) _ overlayRendered :=
    Reached.start.render overlayPath
  have hreset : (overlayRendered.delete overlayPath).renderer.initialized = [] := rfl
  obtain ⟨hbefore, -⟩ := hrendered.defaults_once
  obtain ⟨-, hrender⟩ := (hrendered.delete overlayPath).defaults_once
  obtain ⟨hlisted, -, hdefaults, -⟩ := hrender edgePath _ rfl
  have hmem := (hlisted "openflow:7").mpr ⟨⟨_, List.mem_singleton.mpr rfl, rfl⟩, by simp [hreset]⟩
  refine ⟨(hbefore "openflow:7").mpr ⟨[], _, [], rfl, ?_, by simp⟩, by simp [hreset], ?_⟩
  · exact List.mem_singleton.mpr rfl
  · exact (hdefaults "openflow:7").trans (if_pos hmem)

end Renderer
end ServiceChain
