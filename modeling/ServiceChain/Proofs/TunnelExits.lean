import ServiceChain.Flow.Packet
import ServiceChain.Proofs.KeyAgreement
import ServiceChain.Proofs.PathIsolation

/-! The end of a tunnelled path. Three flows are staged there, by priorities of their own: for
packets that are tunnelled to the forwarder itself, for those without context, and for those that
have one. -/
namespace ServiceChain

namespace FlowMatch

variable {m : FlowMatch} {packet : Packet}

theorem covers_withNshC1 (hnone : m.nshC1 = none) {word : UInt32} :
    (m.withNshC1 word).covers packet = true ↔
      m.covers packet = true ∧ packet.nshC1 = some word := by
  simp [covers, withNshC1, hnone]
  tauto

theorem covers_withTunDst (hnone : m.tunDst = none) {ip : Option IpAddress} :
    (m.withTunDst ip).covers packet = true ↔
      m.covers packet = true ∧ ∀ address, ip = some address → packet.tunDst = some address := by
  cases ip <;> simp [covers, withTunDst, hnone]
  tauto

end FlowMatch

/-- The flow is above the exits of tunnels and does not look at the service header: it leads around
the classifier, or takes packets out of a path that they are marked as. -/
def Flow.IgnoresHeader (flow : Flow) : Prop :=
  flow.role = .acceleratedBypass ∧ flow.priority = Priority.acceleratedBypass ∨
    flow.role = .lastHopEgress ∧ flow.priority = Priority.lastHopEgress ∧
      flow.flowMatch.metadata.isSome

instance (flow : Flow) : Decidable flow.IgnoresHeader :=
  inferInstanceAs (Decidable (_ ∧ _ ∨ _ ∧ _ ∧ _))

theorem Flow.IgnoresHeader.le_priority {flow : Flow} (h : flow.IgnoresHeader) :
    Priority.lastHopEgress ≤ flow.priority := by
  rcases h with ⟨-, hpriority⟩ | ⟨-, hpriority, -⟩ <;>
  · rw [hpriority]
    decide

namespace Leg

theorem cases_of_priority {leg : Leg} {priority : UInt16} (h : priority ∈ leg.priorities)
    (hlt : Priority.transportEgress < priority) :
    (∃ dst, leg = .functionEgress dst) ∨
      ∃ src pathEgress, leg = .terminalEgress src pathEgress := by
  have hnone (hall : leg.priorities.all (fun other =>
      decide (¬ Priority.transportEgress < other)) = true) : False :=
    of_decide_eq_true (List.all_eq_true.mp hall priority h) hlt
  cases leg with
  | functionEgress dst => exact Or.inl ⟨dst, rfl⟩
  | terminalEgress src pathEgress => exact Or.inr ⟨src, pathEgress, rfl⟩
  | _ => exact (hnone rfl).elim

end Leg

theorem NshTunnel.nsh_of_mem_emit {ctx : LegContext} {e : HopEntry} {leg : Leg} {t : FlowTemplate}
    (ht : t ∈ (emit ctx e leg).templates) (hlt : Priority.transportEgress < t.priority) :
    t.flowMatch.nsp = some ctx.pathId ∧ t.flowMatch.nsi = some e.index := by
  rcases Leg.cases_of_priority (fits_emit ctx e leg t ht).priority hlt with
    ⟨dst, rfl⟩ | ⟨src, pathEgress, rfl⟩
  · simp only [emit] at ht
    split at ht
    · cases List.mem_singleton.mp ht
      exact ⟨rfl, rfl⟩
    · split at ht <;>
      · cases List.mem_singleton.mp ht
        exact ⟨rfl, rfl⟩
  · simp only [emit, LegOutcome.templates, terminal, List.mem_cons, List.not_mem_nil,
      or_false] at ht
    rcases ht with rfl | rfl | rfl <;> exact ⟨rfl, rfl⟩

/-- Above the usual egress flows, those of a path name it or take out packets that are marked as
its own. -/
theorem Variant.nsp_or_marked_of_mem_emit {v : Variant} {ctx : LegContext} {e : HopEntry}
    {leg : Leg} {t : FlowTemplate} (ht : t ∈ (v.emit ctx e leg).templates)
    (hlt : Priority.transportEgress < t.priority) :
    t.flowMatch.nsp = some ctx.pathId ∨
      t.role = .lastHopEgress ∧ t.priority = Priority.lastHopEgress ∧
        t.flowMatch.metadata.isSome := by
  have hleg := Leg.cases_of_priority (v.fits_emit ctx e leg t ht).priority hlt
  cases v with
  | nshTunnel => exact Or.inl (NshTunnel.nsh_of_mem_emit ht hlt).1
  | nshEthernet =>
    rcases hleg with ⟨dst, rfl⟩ | ⟨src, pathEgress, rfl⟩ <;>
    · cases List.mem_singleton.mp ht
      exact Or.inl rfl
  | mpls | vlan =>
    rcases hleg with ⟨dst, rfl⟩ | ⟨src, pathEgress, rfl⟩
    · cases List.mem_singleton.mp ht
      exact absurd hlt (UInt16.lt_irrefl _)
    · simp only [emit, Vlan.emit, Mpls.emit, Mpls.terminal] at ht
      split at ht
      · cases ht
      · cases ht
      · cases List.mem_singleton.mp ht
        exact Or.inr ⟨rfl, rfl, rfl⟩
  | macChaining =>
    rcases hleg with ⟨dst, rfl⟩ | ⟨src, pathEgress, rfl⟩ <;>
    · obtain ⟨_, -, rfl⟩ := MacChaining.exists_of_mem_sendOut ht
      exact absurd hlt (UInt16.lt_irrefl _)
  | logicalForwarder =>
    rcases hleg with ⟨dst, rfl⟩ | ⟨src, pathEgress, rfl⟩
    · simp only [emit, LogicalForwarder.emit, LogicalForwarder.sendOut] at ht
      split at ht
      · cases List.mem_singleton.mp ht
        exact Or.inl rfl
      · cases ht
    · cases List.mem_singleton.mp ht
      exact Or.inl rfl

/-- Above the usual egress flows, what belongs to another path or to nobody and covers a packet with
a service header of the path does not look at the header. -/
theorem Deployment.Stages.ignoresHeader {d : Deployment} {path : ServicePath} {flow : Flow}
    (h : d.Stages path flow) {id : PathId} (hother : flow.owner ≠ .path id) {packet : Packet}
    (hnsp : packet.nsp = some id) (hcovers : flow.flowMatch.covers packet = true)
    (hlt : Priority.transportEgress < flow.priority) : flow.IgnoresHeader := by
  obtain ⟨pool, initialized, p, c, hplan, hmake, hflow⟩ := h
  have hp : p.Carries d path := Plan.make_ok (Prod.ext hplan rfl)
  by_cases hnobody : flow.owner = .unowned
  · obtain ⟨-, hdefault⟩ := Compilation.default_of_mem hp hmake hflow hnobody
    obtain ⟨t, ht, hon⟩ := List.mem_map.mp hdefault
    have hbypass : ∀ u ∈ defaultFlows d.config (d.firstPort? path.hops flow.switch),
        Priority.transportEgress < u.priority →
          u.role = .acceleratedBypass ∧ u.priority = Priority.acceleratedBypass := by
      cases d.firstPort? path.hops flow.switch <;>
        simp [defaultFlows, acceleratedFlows, FlowTemplate.matchAny, FlowTemplate.bypass,
          Priority.matchAny, Priority.transportEgress]
    rw [← hon] at hlt ⊢
    exact Or.inl (hbypass t ht hlt)
  · obtain ⟨_, l, leg, t, -, -, ht, -, hon⟩ :=
      Compilation.exists_leg_of_mem_own hmake hflow hnobody
    rw [hon] at hother hcovers hlt ⊢
    rcases Variant.nsp_or_marked_of_mem_emit ht hlt with hpath | hmarked
    · have hsame : packet.nsp = some p.graph.pathId := FlowMatch.nsp_of_covers hcovers hpath
      exact absurd (congrArg FlowOwner.path (Option.some.inj (hsame.symm.trans hnsp))) hother
    · exact Or.inr hmarked

/-- The role of the flow that is meant for a packet at the end of a path: without context it leaves,
else it goes on where the context says. -/
def Packet.exitRole (packet : Packet) : FlowRole :=
  if packet.nshC1 = some 0 then .lastHopEgress else .nshContextEgress

namespace NshTunnel

open NshEthernet (nsh)

variable {ctx : LegContext} {e : HopEntry} {pathEgress : Option BoundLocator} {packet : Packet}
  {t u : FlowTemplate}

theorem cases_of_mem_terminal (h : t ∈ terminal ctx e pathEgress) :
    t.role = .lastHopEgress ∧ t.priority = Priority.lastHopEgress ∧
        t.flowMatch = (nsh ctx e).withNshC1 0 ∨
      t.role = .nshContextEgress ∧ t.priority = Priority.nshContextEgress ∧
        t.flowMatch = nsh ctx e ∨
      t.role = .appCoexistenceEgress ∧ t.priority = Priority.appCoexistenceEgress ∧
        t.flowMatch = (nsh ctx e).withTunDst (localIp? ctx e pathEgress) := by
  simp only [terminal, List.mem_cons, List.not_mem_nil, or_false] at h
  rcases h with rfl | rfl | rfl
  · exact Or.inl ⟨rfl, rfl, rfl⟩
  · exact Or.inr (Or.inl ⟨rfl, rfl, rfl⟩)
  · exact Or.inr (Or.inr ⟨rfl, rfl, rfl⟩)

theorem marks_of_mem_terminal (h : t ∈ terminal ctx e pathEgress) :
    t.table = .transportEgress ∧ Priority.transportEgress < t.priority ∧
      t.flowMatch.nsi = some e.index ∧ t.flowMatch.metadata = none := by
  simp only [terminal, List.mem_cons, List.not_mem_nil, or_false] at h
  rcases h with rfl | rfl | rfl
  · exact ⟨rfl, show Priority.transportEgress < Priority.lastHopEgress by decide, rfl, rfl⟩
  · exact ⟨rfl, show Priority.transportEgress < Priority.nshContextEgress by decide, rfl, rfl⟩
  · exact ⟨rfl, show Priority.transportEgress < Priority.appCoexistenceEgress by decide, rfl, rfl⟩

theorem not_ignoresHeader (h : t ∈ terminal ctx e pathEgress) (tables : TableNumbers)
    (owner : FlowOwner) (switch : SwitchId) : ¬ (t.on tables owner switch).IgnoresHeader := by
  rintro (⟨hbypass, -⟩ | ⟨-, -, hmarked⟩)
  · have hbypass : t.role = .acceleratedBypass := hbypass
    rcases cases_of_mem_terminal h with ⟨hrole, -⟩ | ⟨hrole, -⟩ | ⟨hrole, -⟩ <;>
      cases hrole.symm.trans hbypass
  · obtain ⟨-, -, -, hmark⟩ := marks_of_mem_terminal h
    have hmarked : t.flowMatch.metadata.isSome := hmarked
    simp [hmark] at hmarked

theorem eq_of_priority (ht : t ∈ terminal ctx e pathEgress) (hu : u ∈ terminal ctx e pathEgress)
    (h : u.priority = t.priority) : u = t :=
  List.inj_on_of_nodup_map (indexed_emit ctx e (.terminalEgress none pathEgress)).distinct hu ht h

theorem exists_coexistence (ctx : LegContext) (e : HopEntry) (pathEgress : Option BoundLocator) :
    ∃ t ∈ terminal ctx e pathEgress, t.role = .appCoexistenceEgress ∧
      t.priority = Priority.appCoexistenceEgress ∧
      t.flowMatch = (nsh ctx e).withTunDst (localIp? ctx e pathEgress) :=
  ⟨_, .tail _ (.tail _ (.head _)), rfl, rfl, rfl⟩

theorem exists_exit (ctx : LegContext) (e : HopEntry) (pathEgress : Option BoundLocator)
    (packet : Packet) : ∃ t ∈ terminal ctx e pathEgress, t.role = packet.exitRole := by
  unfold Packet.exitRole
  split
  · exact ⟨_, .head _, rfl⟩
  · exact ⟨_, .tail _ (.head _), rfl⟩

/-- What the flow that is meant for the packet matches, and its priority. -/
theorem exit_spec (ht : t ∈ terminal ctx e pathEgress) (hrole : t.role = packet.exitRole) :
    (t.flowMatch.covers packet = true ↔ packet.HasNsh ctx.pathId e.index) ∧
      t.priority =
        if packet.nshC1 = some 0 then Priority.lastHopEgress else Priority.nshContextEgress := by
  unfold Packet.exitRole at hrole
  rcases cases_of_mem_terminal ht with ⟨hlast, hpriority, hmatch⟩ | ⟨hcontext, hpriority, hmatch⟩ |
    ⟨happ, -, -⟩
  · have hword : packet.nshC1 = some 0 := by
      by_contra hword
      simp [hlast, hword] at hrole
    rw [hmatch, FlowMatch.covers_withNshC1 rfl, NshEthernet.nsh, FlowMatch.covers_withNsh]
    simp [hpriority, hword]
  · have hword : packet.nshC1 ≠ some 0 := by
      intro hword
      simp [hcontext, hword] at hrole
    rw [hmatch, NshEthernet.nsh, FlowMatch.covers_withNsh]
    simp [hpriority, hword]
  · rw [happ] at hrole
    split at hrole <;> cases hrole

theorem eq_or_lt_of_covers (ht : t ∈ terminal ctx e pathEgress) (hrole : t.role = packet.exitRole)
    (hu : u ∈ terminal ctx e pathEgress) (hcovers : u.flowMatch.covers packet = true)
    (hother : u.role ≠ .appCoexistenceEgress) : u = t ∨ u.priority < t.priority := by
  obtain ⟨-, hexit⟩ := exit_spec ht hrole
  rcases cases_of_mem_terminal hu with ⟨-, hpriority, hmatch⟩ | ⟨-, hpriority, -⟩ | ⟨happ, -, -⟩
  · rw [hmatch, FlowMatch.covers_withNshC1 rfl] at hcovers
    rw [if_pos hcovers.2] at hexit
    exact Or.inl (eq_of_priority ht hu (hpriority.trans hexit.symm))
  · split at hexit
    · rw [hpriority, hexit]
      exact Or.inr (by decide)
    · exact Or.inl (eq_of_priority ht hu (hpriority.trans hexit.symm))
  · exact absurd happ hother

end NshTunnel

namespace Plan.Locates

variable {d : Deployment} {path : ServicePath} {p : Plan} {l : LocatedEntry}
  {initialized : List SwitchId} {c : Compilation} {switch : SwitchId} {flow : Flow}

theorem mem_of_terminal (h : p.Locates d path.hops.length l) (hp : p.Carries d path)
    (hmake : Compilation.make d p initialized = .ok c) (hv : p.variant = .nshTunnel)
    (hswitch : l.srcSwitch = some switch) {t : FlowTemplate}
    (ht : t ∈ NshTunnel.terminal (d.legContext path.id) l.entry l.entry.pathEgress) :
    t.on d.config.standardTables (.path path.id) switch ∈ c.batch.flows := by
  have hleg : (switch, Leg.terminalEgress l.srcFunction l.entry.pathEgress) ∈ l.legs p.graph := by
    simp [LocatedEntry.legs, LocatedEntry.departure, h.dst_final hp, hswitch]
  exact h.staged_plain hp hmake hv (by decide) hleg t ht

theorem terminal_of_mem (h : p.Locates d path.hops.length l) (hp : p.Carries d path)
    (hmake : Compilation.make d p initialized = .ok c) (hv : p.variant = .nshTunnel)
    (hflow : flow ∈ c.batch.flows) (hown : flow.owner ≠ .unowned)
    (hlt : Priority.transportEgress < flow.priority)
    (hnsi : ∀ index, flow.flowMatch.nsi = some index → index = l.entry.index) :
    l.srcSwitch = some flow.switch ∧
      ∃ t ∈ NshTunnel.terminal (d.legContext path.id) l.entry l.entry.pathEgress,
        flow = t.on d.config.standardTables (.path path.id) flow.switch := by
  obtain ⟨i, other, leg, t, hl, hleg, ht, -, hon⟩ :=
    Compilation.exists_leg_of_mem_own hmake hflow hown
  rw [hp.tables_plain (by simp [hv]), hp.pathId] at hon
  rw [hp.pathId, hv] at ht
  have hmatch : flow.flowMatch = t.flowMatch := congrArg Flow.flowMatch hon
  have hpriority : flow.priority = t.priority := congrArg Flow.priority hon
  rw [hmatch] at hnsi
  rw [hpriority] at hlt
  obtain ⟨-, hindex⟩ := NshTunnel.nsh_of_mem_emit ht hlt
  obtain rfl : other = l := hl.eq_of_index h hp (hnsi _ hindex)
  have hhas := LocatedEntry.hasLeg_of_mem_legs hleg
  rcases Leg.cases_of_priority (NshTunnel.fits_emit _ _ _ t ht).priority hlt with
    ⟨dst, rfl⟩ | ⟨src, pathEgress, rfl⟩
  · cases hhas with
    | functionEgress _ _ hend => exact absurd (h.dst_final hp) hend
  · cases hhas with
    | terminalEgress hswitch _ => exact ⟨hswitch, t, ht, hon⟩

end Plan.Locates

namespace Forwarder

/-- The addresses that traffic to the forwarder can be tunnelled to. -/
def tunnelIps (f : Forwarder) : List IpAddress := f.locators.filterMap (·.locator.ip?)

theorem tunnelIp?_eq_head? (f : Forwarder) : f.tunnelIp? = f.tunnelIps.head? := by
  simp [tunnelIp?, tunnelIps, List.head?_filterMap]

end Forwarder

theorem HopEntry.exists_locator_of_pathEgress {t : Topology} {e : HopEntry}
    (hnone : e.pathEgress = none) {l : BoundLocator}
    (h : (e.resolveLocators t).pathEgress = some l) :
    ∃ f, e.src.name?.bind t.forwarder? = some f ∧ ∃ locator ∈ f.locators, locator.bound = l := by
  unfold resolveLocators at h
  split at h
  · simp [hnone] at h
  · split at h
    · obtain ⟨name, hname, h⟩ := Option.bind_eq_some_iff.mp h
      obtain ⟨egress, -, h⟩ := Option.bind_eq_some_iff.mp h
      obtain ⟨f, hf, hl⟩ := Option.bind_eq_some_iff.mp h
      obtain ⟨locator, hlocator, hbound⟩ := Option.map_eq_some_iff.mp hl
      exact ⟨f, by rw [hname, Option.bind_some, hf], locator, List.mem_of_find?_eq_some hlocator,
        hbound⟩
    · simp [hnone] at h
    · simp [hnone] at h

namespace Plan.Locates

variable {d : Deployment} {pool : VlanPool} {path : ServicePath} {p : Plan} {i : Nat}
  {l : LocatedEntry} {name : String}

theorem exists_locator_of_pathEgress (h : p.Locates d i l) (hplan : (make d pool path).1 = .ok p)
    (hv : p.variant = .nshTunnel) (hsrc : l.entry.src = .forwarder name) {bound : BoundLocator}
    (hegress : l.entry.pathEgress = some bound) :
    ∃ f, d.topology.forwarder? name = some f ∧ ∃ locator ∈ f.locators, locator.bound = bound := by
  have hmem := List.mem_of_getElem? h.entry
  rw [entries_of_make hplan (by simp [hv]) (by simp [hv])] at hmem
  obtain ⟨built, hbuilt, hentry⟩ := List.mem_map.mp hmem
  have hbare : l.entry.bare = built.bare := by
    rw [← hentry, HopEntry.bare_resolveLocators, Variant.bare_nameEntry]
  have hnamed : (p.variant.nameEntry d.topology built).src = .forwarder name :=
    (congrArg HopEntry.src ((Variant.bare_nameEntry _ _ _).trans hbare.symm)).trans hsrc
  have hnone : (p.variant.nameEntry d.topology built).pathEgress = none := by
    rw [← HopGraph.bare_of_mem_chainOf hbuilt, hv]
    simp only [Variant.nameEntry, HopEntry.nameLocators]
    split <;> rfl
  rw [← hentry] at hegress
  have hfound := HopEntry.exists_locator_of_pathEgress hnone hegress
  rwa [hnamed] at hfound

theorem mem_tunnelIps_of_localIp? (h : p.Locates d i l) (hplan : (make d pool path).1 = .ok p)
    (hv : p.variant = .nshTunnel) (hsrc : l.entry.src = .forwarder name) {id : PathId}
    {ip : IpAddress}
    (hip : NshTunnel.localIp? (d.legContext id) l.entry l.entry.pathEgress = some ip) :
    ∃ f, d.topology.forwarder? name = some f ∧ ip ∈ f.tunnelIps := by
  unfold NshTunnel.localIp? at hip
  cases hegress : l.entry.pathEgress.bind (·.ip?) with
  | some found =>
    rw [hegress] at hip
    cases hip
    obtain ⟨bound, hbound, hfound⟩ := Option.bind_eq_some_iff.mp hegress
    obtain ⟨f, hf, locator, hlocator, rfl⟩ := h.exists_locator_of_pathEgress hplan hv hsrc hbound
    exact ⟨f, hf, List.mem_filterMap.mpr ⟨locator, hlocator, hfound⟩⟩
  | none =>
    rw [hegress, hsrc] at hip
    obtain ⟨f, hf, hfound⟩ := Option.bind_eq_some_iff.mp hip
    rw [Forwarder.tunnelIp?_eq_head?] at hfound
    exact ⟨f, hf, List.mem_of_head? hfound⟩

theorem isSome_localIp? (h : p.Locates d i l) (hplan : (make d pool path).1 = .ok p)
    (hv : p.variant = .nshTunnel) (hsrc : l.entry.src = .forwarder name) {id : PathId} :
    (NshTunnel.localIp? (d.legContext id) l.entry l.entry.pathEgress).isSome ↔
      ((d.topology.forwarder? name).bind (·.tunnelIp?)).isSome := by
  constructor
  · intro hsome
    obtain ⟨ip, hip⟩ := Option.isSome_iff_exists.mp hsome
    obtain ⟨f, hf, hmem⟩ := h.mem_tunnelIps_of_localIp? hplan hv hsrc hip
    rw [hf, Option.bind_some, Forwarder.tunnelIp?_eq_head?, List.isSome_head?]
    exact List.ne_nil_of_mem hmem
  · intro hsome
    rw [NshTunnel.localIp?, hsrc]
    cases l.entry.pathEgress.bind (·.ip?) with
    | none => exact hsome
    | some ip => rfl

end Plan.Locates

end ServiceChain
