import ServiceChain.Proofs.HopEntries

/-! The legs of a hop. Every leg of an entry has its flows in the batch, or a note of why it has
none. -/
namespace ServiceChain

namespace LocatedEntry

variable {l : LocatedEntry} {d : Deployment} {path : ServicePath} {hop next : Hop}
  {src dst : SwitchId} {into back : Attachment}

namespace ArrivesAt

theorem forwarderIngress_mem (h : l.ArrivesAt d path hop dst) (g : HopGraph) :
    (dst, .forwarderIngress) ∈ l.legs g := by
  simp [legs, admission, h.dstSwitch]

theorem functionIngress_mem (h : l.ArrivesAt d path hop dst) (hinto : d.inlet? path hop = some into)
    (g : HopGraph) : (dst, .functionIngress into) ∈ l.legs g := by
  simp [legs, admission, h.dstSwitch, h.dstFunction, hinto]

theorem delivery_mem (h : l.ArrivesAt d path hop dst) (hinto : d.inlet? path hop = some into)
    (g : HopGraph) : (dst, .gatewayToFunction into) ∈ l.legs g ∨
      (dst, .forwarderToFunction l.srcEgress into) ∈ l.legs g := by
  by_cases hstart : l.entry.src = .ingress
  · exact Or.inl (by simp [legs, delivery, h.dstSwitch, h.dstFunction, hinto, hstart])
  · exact Or.inr (by simp [legs, delivery, h.dstSwitch, h.dstFunction, hinto, hstart])

theorem functionEgress_mem (h : l.ArrivesAt d path hop dst) (hinto : d.inlet? path hop = some into)
    (g : HopGraph) : (dst, .functionEgress into) ∈ l.legs g := by
  simp [legs, departure, h.dst, h.dstSwitch, h.dstFunction, hinto]

end ArrivesAt

def linkLegs (l : LocatedEntry) (src dst : SwitchId) (back into : Attachment) :
    List (SwitchId × Leg) :=
  [(dst, .forwarderIngress), (dst, .functionIngress into),
    (dst, .forwarderMapper l.entry.hopIngress), (dst, .functionMapper into),
    (dst, .forwarderToFunction l.srcEgress into), (src, .functionToForwarder back l.dstIngress),
    (dst, .functionEgress into),
    (src, .forwarderEgress l.srcEgress l.dstIngress l.entry.hopIngress)]

def exitLegs (l : LocatedEntry) (src : SwitchId) (back : Attachment) : List (SwitchId × Leg) :=
  [(src, .functionToGateway back), (src, .functionToForwarder back l.dstIngress),
    (src, .terminalEgress (some back) l.entry.pathEgress)]

theorem isSameForwarder_iff (harrives : l.ArrivesAt d path next dst)
    (hleaves : l.LeavesFrom d path hop src) :
    l.entry.isSameForwarder = true ↔ hop.forwarder = next.forwarder := by
  simp [HopEntry.isSameForwarder, hleaves.src, harrives.dst, Endpoint.name?]

theorem isSameForwarder_eq_false (harrives : l.ArrivesAt d path next dst)
    (hleaves : l.LeavesFrom d path hop src) (hcross : hop.forwarder ≠ next.forwarder) :
    l.entry.isSameForwarder = false :=
  Bool.eq_false_iff.mpr (mt (isSameForwarder_iff harrives hleaves).mp hcross)

theorem legs_link (harrives : l.ArrivesAt d path next dst) (hleaves : l.LeavesFrom d path hop src)
    (hcross : hop.forwarder ≠ next.forwarder) (hinto : d.inlet? path next = some into)
    (hback : d.outlet? path hop = some back) {g : HopGraph} (hplain : g.isLogical = false) :
    l.legs g = l.linkLegs src dst back into := by
  simp [linkLegs, legs, admission, delivery, handBack, onward, departure, HopGraph.isIntraLogical,
    hplain, isSameForwarder_eq_false harrives hleaves hcross, harrives.dst, harrives.dstSwitch,
    harrives.dstFunction, hinto, hleaves.src, hleaves.srcSwitch, hleaves.srcFunction, hback]

theorem legs_exit (hend : l.entry.dst = .egress) (hnone : l.dstSwitch = none)
    (hleaves : l.LeavesFrom d path hop src) (hback : d.outlet? path hop = some back) {g : HopGraph}
    (hplain : g.isLogical = false) :
    l.legs g = l.exitLegs src back := by
  have hsame : l.entry.isSameForwarder = false := by
    simp [HopEntry.isSameForwarder, hleaves.src, hend, Endpoint.name?]
  simp [exitLegs, legs, admission, delivery, handBack, onward, departure, HopGraph.isIntraLogical,
    hplain, hsame, hend, hnone, hleaves.srcSwitch, hleaves.srcFunction, hback]

end LocatedEntry

namespace Plan

variable {d : Deployment} {path : ServicePath} {p : Plan} {i : Nat} {hop next : Hop}
  {initialized : List SwitchId} {c : Compilation}

theorem exists_arrival (hp : p.Carries d path) (hmake : Compilation.make d p initialized = .ok c)
    (hhop : path.hops[i]? = some hop) :
    ∃ l switch, p.Locates d i l ∧ d.switchOf? hop = some switch ∧
      l.ArrivesAt d path hop switch := by
  obtain ⟨l, hl⟩ := exists_locates hp hmake (Nat.le_of_lt (List.getElem?_eq_some_iff.mp hhop).1)
  obtain ⟨switch, hswitch, harrives⟩ := hl.arrivesAt hp hhop
  exact ⟨l, switch, hl, hswitch, harrives⟩

theorem exists_link (hp : p.Carries d path) (hmake : Compilation.make d p initialized = .ok c)
    (hv : p.variant ≠ .logicalForwarder) (hhop : path.hops[i]? = some hop)
    (hnext : path.hops[i + 1]? = some next) (hcross : hop.forwarder ≠ next.forwarder)
    (hback : (d.outlet? path hop).isSome) (hinto : (d.inlet? path next).isSome) :
    ∃ l src dst back into, p.Locates d (i + 1) l ∧ d.switchOf? hop = some src ∧
      d.switchOf? next = some dst ∧ d.outlet? path hop = some back ∧
      d.inlet? path next = some into ∧ l.ArrivesAt d path next dst ∧
      l.LeavesFrom d path hop src ∧ l.legs p.graph = l.linkLegs src dst back into := by
  obtain ⟨l, dst, hl, hdst, harrives⟩ := exists_arrival hp hmake hnext
  obtain ⟨src, hsrc, hleaves⟩ := hl.leavesFrom hp hhop
  obtain ⟨back, hback⟩ := Option.isSome_iff_exists.mp hback
  obtain ⟨into, hinto⟩ := Option.isSome_iff_exists.mp hinto
  exact ⟨l, src, dst, back, into, hl, hsrc, hdst, hback, hinto, harrives, hleaves,
    LocatedEntry.legs_link harrives hleaves hcross hinto hback (hp.isLogical_eq_false hv)⟩

theorem exists_final (hp : p.Carries d path) (hmake : Compilation.make d p initialized = .ok c)
    (hlast : path.hops.getLast? = some hop) :
    ∃ l src, p.Locates d path.hops.length l ∧ d.switchOf? hop = some src ∧
      l.LeavesFrom d path hop src := by
  rw [List.getLast?_eq_getElem?] at hlast
  have hlt := (List.getElem?_eq_some_iff.mp hlast).1
  have hlength : path.hops.length = path.hops.length - 1 + 1 := by omega
  obtain ⟨l, hl⟩ := exists_locates hp hmake (Nat.le_refl path.hops.length)
  obtain ⟨src, hsrc, hleaves⟩ := (hlength ▸ hl : p.Locates d _ l).leavesFrom hp hlast
  exact ⟨l, src, hl, hsrc, hleaves⟩

theorem exists_exit (hp : p.Carries d path) (hmake : Compilation.make d p initialized = .ok c)
    (hv : p.variant ≠ .logicalForwarder) (hlast : path.hops.getLast? = some hop)
    (hback : (d.outlet? path hop).isSome) :
    ∃ l src back, p.Locates d path.hops.length l ∧ d.switchOf? hop = some src ∧
      d.outlet? path hop = some back ∧ l.LeavesFrom d path hop src ∧
      l.legs p.graph = l.exitLegs src back := by
  obtain ⟨l, src, hl, hsrc, hleaves⟩ := exists_final hp hmake hlast
  have hend := hl.dst_final hp
  obtain ⟨-, hnone, -⟩ := LocatedEntry.locate_ok hl.located
  rw [hend] at hnone
  obtain ⟨back, hback⟩ := Option.isSome_iff_exists.mp hback
  exact ⟨l, src, back, hl, hsrc, hback, hleaves, LocatedEntry.legs_exit hend
    (Except.ok.inj hnone).symm hleaves hback (hp.isLogical_eq_false hv)⟩

end Plan

namespace Flow

/-- A flow of a path in a table of a switch. -/
structure StandsIn (flow : Flow) (tables : TableNumbers) (id : PathId) (switch : SwitchId)
    (table : TableRef) : Prop where
  owner : flow.owner = .path id
  switch : flow.switch = switch
  tableId : flow.tableId = tables.resolve table
  table : flow.table = table

/-- A flow of a path in a table of a switch, for the packets that match this. -/
structure Serves (flow : Flow) (tables : TableNumbers) (id : PathId) (switch : SwitchId)
    (table : TableRef) (m : FlowMatch) : Prop extends flow.StandsIn tables id switch table where
  flowMatch : flow.flowMatch = m

/-- The flow's packets go on to the table `next`. -/
def GoesTo (flow : Flow) (tables : TableNumbers) (next : TableRef) : Prop :=
  .goto (.raw (tables.resolve next)) ∈ flow.actions

def SendsOut (flow : Flow) : Prop := ∃ port, .output port ∈ flow.actions

end Flow

namespace FlowTemplate

variable (tables : TableNumbers) (id : PathId) (switch : SwitchId)

theorem standsIn_on (template : FlowTemplate) :
    (template.on tables (.path id) switch).StandsIn tables id switch template.table :=
  ⟨rfl, rfl, rfl, rfl⟩

theorem serves_on (template : FlowTemplate) :
    (template.on tables (.path id) switch).Serves tables id switch template.table
      template.flowMatch :=
  ⟨standsIn_on tables id switch template, rfl⟩

theorem goesTo_ingress (role : FlowRole) (m : FlowMatch) (next : TableRef) :
    ((ingress role m next).on tables (.path id) switch).GoesTo tables next :=
  List.mem_singleton.mpr rfl

@[simp] theorem actions_nextHop (m : FlowMatch) (actions : List FlowAction) :
    ((nextHop m actions).on tables (.path id) switch).actions =
      actions.map (·.numbered tables) ++ [.goto (.raw (tables.resolve .transportEgress))] := by
  simp [nextHop, on, FlowAction.numbered]

theorem goesTo_nextHop (m : FlowMatch) (actions : List FlowAction) :
    ((nextHop m actions).on tables (.path id) switch).GoesTo tables .transportEgress := by
  simp [Flow.GoesTo]

theorem sendsOut_egress (role : FlowRole) (priority : UInt16) (m : FlowMatch)
    {actions : List FlowAction} {port : Option UInt32} (h : .outputTo port ∈ actions) :
    ((egress role priority m actions).on tables (.path id) switch).SendsOut := by
  cases port with
  | none => exact ⟨_, List.mem_map_of_mem h⟩
  | some port => exact ⟨_, List.mem_map_of_mem h⟩

end FlowTemplate

namespace LegOutcome

def Staged (o : LegOutcome) (tables : TableNumbers) (id : PathId) (switch : SwitchId)
    (flows : List Flow) : Prop :=
  ∀ template ∈ o.templates, template.on tables (.path id) switch ∈ flows

/-- The leg has flows, or needs none. -/
def Complete (o : LegOutcome) : Prop := ∀ reason, o = skipped reason → reason = .notRequired

theorem Staged.mem {template : FlowTemplate} {tables : TableNumbers} {id : PathId}
    {switch : SwitchId} {flows : List Flow} (h : (one template).Staged tables id switch flows) :
    template.on tables (.path id) switch ∈ flows :=
  h template (List.mem_singleton.mpr rfl)

theorem not_complete_missing (part : MissingPart) : ¬ (missing part).Complete := by
  intro h
  cases h _ rfl

end LegOutcome

/-- No leg lacks its flows for want of a part or of support. -/
def RenderReport.Clean (report : RenderReport) : Prop :=
  ∀ leg ∈ report.skipped, leg.reason = .notRequired

instance (report : RenderReport) : Decidable report.Clean :=
  inferInstanceAs (Decidable (∀ leg ∈ report.skipped, leg.reason = .notRequired))

namespace Plan.Locates

variable {d : Deployment} {path : ServicePath} {p : Plan} {i : Nat} {l : LocatedEntry}
  {initialized : List SwitchId} {c : Compilation} {switch : SwitchId} {leg : Leg}

theorem staged (h : p.Locates d i l) (hp : p.Carries d path)
    (hmake : Compilation.make d p initialized = .ok c) (hleg : (switch, leg) ∈ l.legs p.graph) :
    (p.variant.emit (d.legContext path.id) l.entry leg).Staged
      (d.numbering p.graph.isLogical) path.id switch c.batch.flows := by
  intro template htemplate
  rw [← hp.tables_eq, ← hp.pathId]
  rw [← hp.pathId] at htemplate
  exact Compilation.mem_of_locate hmake h.entry h.located
    (List.mem_flatMap.mpr ⟨_, hleg, List.mem_map.mpr ⟨template, htemplate, rfl⟩⟩)

theorem mem_skipped (h : p.Locates d i l) (hp : p.Carries d path)
    (hmake : Compilation.make d p initialized = .ok c) (hleg : (switch, leg) ∈ l.legs p.graph)
    {reason : SkipCause}
    (hskipped : p.variant.emit (d.legContext path.id) l.entry leg = .skipped reason) :
    ⟨i, leg.name, reason⟩ ∈ c.skipped := by
  obtain ⟨located, hlocated, -, hall⟩ := Compilation.own_make hmake
  have hmem : l ∈ located :=
    LocatedEntry.mem_of_locate hlocated h.entry (by rw [Nat.zero_add]; exact h.located)
  have hnumber : l.number = i := (LocatedEntry.parts_of_locate h.located).1
  rw [hall]
  refine List.mem_flatMap.mpr ⟨l, hmem, List.mem_filterMap.mpr ⟨_, hleg, ?_⟩⟩
  rw [← hp.pathId] at hskipped
  simp only [← hnumber]
  rw [show p.variant.emit ⟨d.topology, d.config, p.graph.pathId⟩ l.entry leg = .skipped reason from
    hskipped]

theorem staged_plain (h : p.Locates d i l) (hp : p.Carries d path)
    (hmake : Compilation.make d p initialized = .ok c) {v : Variant} (hv : p.variant = v)
    (hplain : v ≠ .logicalForwarder) (hleg : (switch, leg) ∈ l.legs p.graph) :
    (v.emit (d.legContext path.id) l.entry leg).Staged d.config.standardTables path.id switch
      c.batch.flows := by
  have hstaged := h.staged hp hmake hleg
  rwa [hv, hp.isLogical_eq_false (hv ▸ hplain)] at hstaged

theorem complete (h : p.Locates d i l) (hp : p.Carries d path)
    (hmake : Compilation.make d p initialized = .ok c) {v : Variant} (hv : p.variant = v)
    (hclean : ∀ skipped ∈ c.skipped, skipped.reason = .notRequired)
    (hleg : (switch, leg) ∈ l.legs p.graph) :
    (v.emit (d.legContext path.id) l.entry leg).Complete :=
  fun _ hskipped => hclean _ (h.mem_skipped hp hmake hleg (hv ▸ hskipped))

end Plan.Locates

namespace Compilation

/-- The flows that the legs of this name have for an entry. -/
def legFlows (d : Deployment) (p : Plan) (l : LocatedEntry) (name : String) : List Flow :=
  ((l.legs p.graph).filter (·.2.name = name)).flatMap fun leg =>
    (p.variant.emit (d.legContext p.graph.pathId) l.entry leg.2).templates.map
      (·.on (p.tables d.config) (.path p.graph.pathId) leg.1)

theorem legFlows_subset (d : Deployment) (p : Plan) (l : LocatedEntry) (name : String) :
    legFlows d p l name ⊆ ownFlows d p l := by
  intro flow hflow
  obtain ⟨leg, hleg, hflow⟩ := List.mem_flatMap.mp hflow
  exact List.mem_flatMap.mpr ⟨leg, (List.mem_filter.mp hleg).1, hflow⟩

end Compilation

namespace Renderer

variable {σ : Type} {d : Deployment} {r : Renderer σ} {path : ServicePath} {p : Plan} {i : Nat}
  {l : LocatedEntry} {name : String}

/-- The flows that a render stages for the legs of this name of an entry; none if it has no plan or
finds no such entry. -/
def legFlows (d : Deployment) (r : Renderer σ) (path : ServicePath) (number : Nat)
    (name : String) : List Flow :=
  match (Plan.make d r.pool path).1 with
  | .error _ => []
  | .ok p =>
    match p.graph.entries[number]?.map (LocatedEntry.locate d.topology number) with
    | some (.ok l) => Compilation.legFlows d p l name
    | _ => []

theorem legFlows_eq (hplan : (Plan.make d r.pool path).1 = .ok p) (hl : p.Locates d i l) :
    r.legFlows d path i name = Compilation.legFlows d p l name := by
  simp [legFlows, hplan, hl.entry, hl.located]

theorem legFlows_subset [FlowDestination σ] {report : RenderReport}
    (h : (r.render d path).result = .ok report) :
    r.legFlows d path i name ⊆ (r.render d path).trace.offered := by
  obtain ⟨p, c, hplan, hmake, -, -, -, hoffered⟩ := render_taken h
  intro flow hflow
  simp only [legFlows, hplan] at hflow
  split at hflow
  · next l hlocated =>
    obtain ⟨e, hentry, hlocate⟩ := Option.map_eq_some_iff.mp hlocated
    rw [hoffered]
    exact Compilation.mem_of_locate hmake hentry hlocate
      (Compilation.legFlows_subset d p l name hflow)
  · cases hflow

end Renderer
end ServiceChain
