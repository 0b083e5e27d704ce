import ServiceChain.Proofs.HopChain

/-! What a batch holds. A switch that the path comes to, and that has no default flows yet, gets
them once, for the first hop there. All other flows are the path's own, on switches that have their
default flows by then. -/
namespace ServiceChain

def Flow.isDefaultOn (switch : SwitchId) (flow : Flow) : Bool :=
  flow.owner = .unowned ∧ flow.switch = switch

@[simp] theorem Flow.isDefaultOn_on (template : FlowTemplate) (tables : TableNumbers)
    (owner : FlowOwner) (switch other : SwitchId) :
    (template.on tables owner switch).isDefaultOn other =
      decide (owner = .unowned ∧ switch = other) := rfl

namespace Deployment

/-- The switch that a hop leads to. -/
def switchOf? (d : Deployment) (hop : Hop) : Option SwitchId :=
  d.topology.switch? hop.forwarder (d.placementFor hop)

def acceleratedPort? (d : Deployment) (hop : Hop) : Option UInt32 :=
  (d.topology.forwarder? hop.forwarder).bind (·.acceleratedPort)

/-- The numbering of logical paths, and that of all others. -/
def numbering (d : Deployment) (logical : Bool) : TableNumbers :=
  if logical then d.config.logicalTables.index else d.config.standardTables

def defaultsOn (d : Deployment) (tables : TableNumbers) (switch : SwitchId)
    (acceleratedPort : Option UInt32) : List Flow :=
  (defaultFlows d.config acceleratedPort).map (·.on tables .unowned switch)

/-- The accelerated port of the first of some hops that leads to a switch. -/
def firstPort? (d : Deployment) (hops : List Hop) (switch : SwitchId) : Option UInt32 :=
  (hops.find? (d.switchOf? · = some switch)).bind d.acceleratedPort?

theorem filter_defaultsOn (d : Deployment) (tables : TableNumbers) (switch other : SwitchId)
    (port : Option UInt32) :
    (d.defaultsOn tables switch port).filter (·.isDefaultOn other) =
      if switch = other then d.defaultsOn tables switch port else [] := by
  by_cases h : switch = other
  · rw [if_pos h, List.filter_eq_self]
    simp [defaultsOn, h]
  · rw [if_neg h, List.filter_eq_nil_iff]
    simp [defaultsOn, h]

theorem firstPort?_concat_of_mem {d : Deployment} {hops : List Hop} {switch : SwitchId}
    (h : ∃ hop ∈ hops, d.switchOf? hop = some switch) (next : Hop) :
    d.firstPort? (hops ++ [next]) switch = d.firstPort? hops switch := by
  obtain ⟨hop, hmem, hswitch⟩ := h
  have hsome : (hops.find? (d.switchOf? · = some switch)).isSome := by
    simpa using ⟨hop, hmem, hswitch⟩
  obtain ⟨first, hfirst⟩ := Option.isSome_iff_exists.mp hsome
  simp [firstPort?, List.find?_append, hfirst]

theorem firstPort?_concat_of_new {d : Deployment} {hops : List Hop} {switch : SwitchId}
    (h : ¬ ∃ hop ∈ hops, d.switchOf? hop = some switch) {next : Hop}
    (hnext : d.switchOf? next = some switch) :
    d.firstPort? (hops ++ [next]) switch = d.acceleratedPort? next := by
  have hnone : hops.find? (d.switchOf? · = some switch) = none := by
    simpa using h
  simp [firstPort?, List.find?_append, hnone, hnext]

end Deployment

theorem Plan.Carries.tables_eq {p : Plan} {d : Deployment} {path : ServicePath}
    (h : p.Carries d path) : p.tables d.config = d.numbering p.graph.isLogical := by
  have hvariant := h.variant
  unfold Variant.forPath? at hvariant
  cases hlogical : p.graph.isLogical with
  | true =>
    have hv : Variant.logicalForwarder = p.variant := by simpa [hlogical] using hvariant
    simp [Plan.tables, Deployment.numbering, Variant.tables?, ← hv, hlogical]
  | false =>
    unfold Plan.tables
    split <;> simp [hlogical, Deployment.numbering]

namespace LocatedEntry

theorem locate_ok {t : Topology} {number : Nat} {e : HopEntry} {l : LocatedEntry}
    (h : locate t number e = .ok l) :
    l.entry = e ∧ switchOf t e.dst e.dstPlacement = .ok l.dstSwitch ∧
      switchOf t e.src e.srcPlacement = .ok l.srcSwitch := by
  obtain ⟨dst, hdst, h⟩ := bind_eq_ok.mp h
  obtain ⟨src, hsrc, h⟩ := bind_eq_ok.mp h
  cases h
  exact ⟨rfl, hdst, hsrc⟩

theorem switchOf_forwarder {t : Topology} {name : String} {placement : Option Placement}
    {found : Option SwitchId} (h : switchOf t (.forwarder name) placement = .ok found) :
    ∃ switch, found = some switch ∧ t.switch? name placement = some switch := by
  simp only [switchOf, Endpoint.name?] at h
  split at h
  · next switch hswitch => cases h; exact ⟨switch, rfl, hswitch⟩
  · cases h

theorem locate_entryTo {d : Deployment} {path : ServicePath} {origin : HopGraph.Departure}
    {hop : Hop} {number : Nat} {e : HopEntry} {l : LocatedEntry}
    (he : e.bare = HopGraph.entryTo path origin hop (d.placementFor hop))
    (h : locate d.topology number e = .ok l) :
    ∃ switch, l.entry.dst = .forwarder hop.forwarder ∧ l.dstSwitch = some switch ∧
      d.switchOf? hop = some switch ∧
      switchOf d.topology origin.point origin.placement = .ok l.srcSwitch := by
  obtain ⟨rfl, hdst, hsrc⟩ := locate_ok h
  have hname : l.entry.dst = .forwarder hop.forwarder := congrArg HopEntry.dst he
  rw [hname, show l.entry.dstPlacement = d.placementFor hop from
    congrArg HopEntry.dstPlacement he] at hdst
  rw [show l.entry.src = origin.point from congrArg HopEntry.src he,
    show l.entry.srcPlacement = origin.placement from congrArg HopEntry.srcPlacement he] at hsrc
  obtain ⟨switch, hl, hhop⟩ := switchOf_forwarder hdst
  exact ⟨switch, hname, hl, hhop, hsrc⟩

theorem locate_final {t : Topology} {path : ServicePath} {egress : ServiceIndex}
    {origin : HopGraph.Departure} {number : Nat} {e : HopEntry} {l : LocatedEntry}
    (he : e.bare = HopGraph.finalEntry path egress origin) (h : locate t number e = .ok l) :
    l.dstSwitch = none ∧ switchOf t origin.point origin.placement = .ok l.srcSwitch := by
  obtain ⟨rfl, hdst, hsrc⟩ := locate_ok h
  rw [show l.entry.dst = .egress from congrArg HopEntry.dst he] at hdst
  rw [show l.entry.src = origin.point from congrArg HopEntry.src he,
    show l.entry.srcPlacement = origin.placement from congrArg HopEntry.srcPlacement he] at hsrc
  exact ⟨(Except.ok.inj hdst).symm, hsrc⟩

/-- The legs that an entry can have on a switch, each with the places that were looked up for it. -/
inductive HasLeg (l : LocatedEntry) (switch : SwitchId) : Leg → Prop
  | forwarderIngress (hswitch : l.dstSwitch = some switch) : HasLeg l switch .forwarderIngress
  | functionIngress {dst : Attachment} (hswitch : l.dstSwitch = some switch)
      (hdst : l.dstFunction = some dst) : HasLeg l switch (.functionIngress dst)
  | forwarderMapper (hswitch : l.dstSwitch = some switch) :
      HasLeg l switch (.forwarderMapper l.entry.hopIngress)
  | functionMapper {dst : Attachment} (hswitch : l.dstSwitch = some switch)
      (hdst : l.dstFunction = some dst) : HasLeg l switch (.functionMapper dst)
  | gatewayToFunction {dst : Attachment} (hswitch : l.dstSwitch = some switch)
      (hdst : l.dstFunction = some dst) (hstart : l.entry.src = .ingress) :
      HasLeg l switch (.gatewayToFunction dst)
  | forwarderToFunction {dst : Attachment} (hswitch : l.dstSwitch = some switch)
      (hdst : l.dstFunction = some dst) (hstart : l.entry.src ≠ .ingress) :
      HasLeg l switch (.forwarderToFunction l.srcEgress dst)
  | functionToGateway {src : Attachment} (hswitch : l.srcSwitch = some switch)
      (hsrc : l.srcFunction = some src) (hend : l.entry.dst = .egress) :
      HasLeg l switch (.functionToGateway src)
  | functionToFunction {src dst : Attachment} (hswitch : l.srcSwitch = some switch)
      (hsrc : l.srcFunction = some src) (hdst : l.dstFunction = some dst)
      (hsame : l.entry.isSameForwarder = true) : HasLeg l switch (.functionToFunction src dst)
  | functionToForwarder {src : Attachment} (hswitch : l.srcSwitch = some switch)
      (hsrc : l.srcFunction = some src) (hsame : l.entry.isSameForwarder ≠ true) :
      HasLeg l switch (.functionToForwarder src l.dstIngress)
  | functionEgress {dst : Attachment} (hswitch : l.dstSwitch = some switch)
      (hdst : l.dstFunction = some dst) (hend : l.entry.dst ≠ .egress) :
      HasLeg l switch (.functionEgress dst)
  | forwarderEgress (hswitch : l.srcSwitch = some switch) (hend : l.entry.dst ≠ .egress) :
      HasLeg l switch (.forwarderEgress l.srcEgress l.dstIngress l.entry.hopIngress)
  | terminalEgress (hswitch : l.srcSwitch = some switch) (hend : l.entry.dst = .egress) :
      HasLeg l switch (.terminalEgress l.srcFunction l.entry.pathEgress)

variable {g : HopGraph} {l : LocatedEntry} {switch : SwitchId} {leg : Leg}

theorem hasLeg_of_mem_admission (h : (switch, leg) ∈ l.admission) : l.HasLeg switch leg := by
  simp only [admission] at h
  split at h
  · cases h
  · next hswitch =>
    simp only [List.mem_map, List.mem_append, List.mem_singleton, Option.mem_toList,
      Option.map_eq_some_iff, Prod.mk.injEq] at h
    obtain ⟨_, ((rfl | ⟨dst, hdst, rfl⟩) | rfl) | ⟨dst, hdst, rfl⟩, rfl, rfl⟩ := h
    · exact .forwarderIngress hswitch
    · exact .functionIngress hswitch hdst
    · exact .forwarderMapper hswitch
    · exact .functionMapper hswitch hdst

theorem hasLeg_of_mem_delivery (h : (switch, leg) ∈ l.delivery) : l.HasLeg switch leg := by
  simp only [delivery] at h
  split at h
  · next hswitch hdst =>
    split at h
    · next hstart =>
      cases List.mem_singleton.mp h
      exact .gatewayToFunction hswitch hdst hstart
    · next hstart =>
      cases List.mem_singleton.mp h
      exact .forwarderToFunction hswitch hdst hstart
  · cases h

theorem hasLeg_of_mem_handBack (h : (switch, leg) ∈ l.handBack) : l.HasLeg switch leg := by
  simp only [handBack] at h
  split at h
  · next hswitch hsrc =>
    split at h
    · next hend =>
      cases List.mem_singleton.mp h
      exact .functionToGateway hswitch hsrc hend
    · cases h
  · cases h

theorem hasLeg_of_mem_onward (h : (switch, leg) ∈ l.onward) : l.HasLeg switch leg := by
  simp only [onward] at h
  split at h
  · next hswitch hsrc =>
    split at h
    · next hsame =>
      obtain ⟨dst, hdst, hleg⟩ := Option.map_eq_some_iff.mp (Option.mem_toList.mp h)
      cases hleg
      exact .functionToFunction hswitch hsrc hdst hsame
    · next hsame =>
      cases List.mem_singleton.mp h
      exact .functionToForwarder hswitch hsrc hsame
  · cases h

theorem hasLeg_of_mem_departure (h : (switch, leg) ∈ l.departure g) : l.HasLeg switch leg := by
  simp only [departure] at h
  split at h
  · next hend =>
    obtain ⟨_, hswitch, hleg⟩ := Option.map_eq_some_iff.mp (Option.mem_toList.mp h)
    cases hleg
    exact .terminalEgress hswitch hend
  · next hend =>
    rcases List.mem_append.mp h with h | h
    · split at h
      · next hswitch hdst =>
        cases List.mem_singleton.mp h
        exact .functionEgress hswitch hdst hend
      · cases h
    · split at h
      · next hswitch =>
        split at h
        · cases List.mem_singleton.mp h
          exact .forwarderEgress hswitch hend
        · cases h
      · cases h

theorem hasLeg_of_mem_legs (h : (switch, leg) ∈ l.legs g) : l.HasLeg switch leg := by
  simp only [legs, List.mem_append] at h
  rcases h with (((h | h) | h) | h) | h
  · exact hasLeg_of_mem_admission h
  · exact hasLeg_of_mem_delivery h
  · exact hasLeg_of_mem_handBack h
  · split at h
    · cases h
    · exact hasLeg_of_mem_onward h
  · exact hasLeg_of_mem_departure h

/-- Every leg of an entry is on the switch of one of its ends. -/
theorem HasLeg.switch_eq (h : l.HasLeg switch leg) :
    l.dstSwitch = some switch ∨ l.srcSwitch = some switch := by
  cases h with
  | forwarderIngress hswitch | functionIngress hswitch | forwarderMapper hswitch
  | functionMapper hswitch | gatewayToFunction hswitch | forwarderToFunction hswitch
  | functionEgress hswitch => exact Or.inl hswitch
  | functionToGateway hswitch | functionToFunction hswitch | functionToForwarder hswitch
  | forwarderEgress hswitch | terminalEgress hswitch => exact Or.inr hswitch

end LocatedEntry

namespace Compilation

variable {d : Deployment} {p : Plan} {initialized : List SwitchId} {c : Compilation}
  {l : LocatedEntry}

theorem stageDefaults_of_none (h : l.dstSwitch = none) : c.stageDefaults d initialized l = c := by
  simp [stageDefaults, h]

theorem stageDefaults_of_mem {switch : SwitchId} (h : l.dstSwitch = some switch)
    (hmem : switch ∈ initialized ∨ switch ∈ c.pending) :
    c.stageDefaults d initialized l = c := by
  simp [stageDefaults, h, hmem]

theorem stageDefaults_of_new {switch : SwitchId} {hop : Hop} (h : l.dstSwitch = some switch)
    (hdst : l.entry.dst = .forwarder hop.forwarder)
    (hnew : ¬(switch ∈ initialized ∨ switch ∈ c.pending)) :
    c.stageDefaults d initialized l =
      { c with
        batch :=
          { c.batch with
            owner := .unowned
            flows := c.batch.flows ++
              d.defaultsOn c.batch.tables switch (d.acceleratedPort? hop) }
        pending := Ordered.insert switch c.pending } := by
  simp [stageDefaults, h, hnew, hdst, FlowBatch.stageAll_flows, FlowBatch.withOwner,
    Deployment.defaultsOn, Deployment.acceleratedPort?, Endpoint.name?]

theorem mem_pending_stageDefaults {switch : SwitchId} (h : switch ∈ c.pending) :
    switch ∈ (c.stageDefaults d initialized l).pending := by
  simp only [stageDefaults]
  split
  · exact h
  · split <;> simp [h]

theorem foldl_stageLeg (ctx : LegContext) (v : Variant) (legs : List (SwitchId × Leg)) :
    (legs.foldl (stageLeg ctx v l) c).pending = c.pending ∧
      (legs.foldl (stageLeg ctx v l) c).batch =
        { c.batch with
          flows := c.batch.flows ++ legs.flatMap fun leg =>
            (v.emit ctx l.entry leg.2).templates.map
              (·.on c.batch.tables c.batch.owner leg.1) } := by
  induction legs generalizing c with
  | nil => simp
  | cons leg rest ih =>
    obtain ⟨hpending, hbatch⟩ := @ih (stageLeg ctx v l c leg)
    rw [List.foldl_cons, hpending, hbatch]
    simp only [stageLeg]
    split <;> simp [*, LegOutcome.templates, FlowBatch.stageAll_flows]

def ownFlows (d : Deployment) (p : Plan) (l : LocatedEntry) : List Flow :=
  (l.legs p.graph).flatMap fun leg =>
    (p.variant.emit ⟨d.topology, d.config, p.graph.pathId⟩ l.entry leg.2).templates.map
      (·.on (p.tables d.config) (.path p.graph.pathId) leg.1)

theorem owner_of_mem_ownFlows {flow : Flow} (h : flow ∈ ownFlows d p l) :
    flow.owner = .path p.graph.pathId := by
  obtain ⟨leg, _, h⟩ := List.mem_flatMap.mp h
  obtain ⟨template, _, rfl⟩ := List.mem_map.mp h
  rfl

theorem switch_of_mem_ownFlows {flow : Flow} (h : flow ∈ ownFlows d p l) :
    l.dstSwitch = some flow.switch ∨ l.srcSwitch = some flow.switch := by
  obtain ⟨leg, hleg, h⟩ := List.mem_flatMap.mp h
  obtain ⟨template, _, rfl⟩ := List.mem_map.mp h
  exact (LocatedEntry.hasLeg_of_mem_legs hleg).switch_eq

/-- An entry adds the default flows that are missing at its end, then its own. -/
theorem stageEntry_eq (htables : c.batch.tables = p.tables d.config) :
    (c.stageEntry d p initialized l).pending = (c.stageDefaults d initialized l).pending ∧
      (c.stageEntry d p initialized l).batch.tables = p.tables d.config ∧
      (c.stageEntry d p initialized l).batch.flows =
        (c.stageDefaults d initialized l).batch.flows ++ ownFlows d p l := by
  have hkept : (c.stageDefaults d initialized l).batch.tables = p.tables d.config := by
    rw [← htables]
    simp only [stageDefaults]
    split
    · rfl
    · split <;> simp [FlowBatch.stageAll_flows, FlowBatch.withOwner]
  -- the legs are staged under the path's name, whatever owner the default flows left behind
  obtain ⟨hpending, hbatch⟩ := @foldl_stageLeg
    { c.stageDefaults d initialized l with
      batch := (c.stageDefaults d initialized l).batch.withOwner (.path p.graph.pathId) }
    l ⟨d.topology, d.config, p.graph.pathId⟩ p.variant (l.legs p.graph)
  simp only [stageEntry, hpending, hbatch]
  simp [FlowBatch.withOwner, hkept, ownFlows]

theorem stageEntries_cons_ok {number : Nat} {e : HopEntry} {rest : List HopEntry}
    {c' : Compilation} (h : stageEntries d p initialized c number (e :: rest) = .ok c') :
    ∃ l, LocatedEntry.locate d.topology number e = .ok l ∧
      stageEntries d p initialized (c.stageEntry d p initialized l) (number + 1) rest =
        .ok c' := by
  simp only [stageEntries] at h
  split at h
  · cases h
  · next l hlocate => exact ⟨l, hlocate, h⟩

/-- What is staged once the path has come past these hops. -/
structure Covers (c : Compilation) (d : Deployment) (p : Plan) (initialized : List SwitchId)
    (hops : List Hop) : Prop where
  tables : c.batch.tables = p.tables d.config
  pending : ∀ switch, switch ∈ c.pending ↔
    (∃ hop ∈ hops, d.switchOf? hop = some switch) ∧ switch ∉ initialized
  defaults : ∀ switch, c.batch.flows.filter (·.isDefaultOn switch) =
    if switch ∈ c.pending then
      d.defaultsOn (p.tables d.config) switch (d.firstPort? hops switch)
    else []
  covered : ∀ flow ∈ c.batch.flows, flow.switch ∈ initialized ∨ flow.switch ∈ c.pending

namespace Covers

variable {hops : List Hop}

theorem start (d : Deployment) (p : Plan) (initialized : List SwitchId) :
    Covers { batch := { tables := p.tables d.config } } d p initialized [] where
  tables := rfl
  pending := by simp
  defaults := by simp
  covered := by simp

theorem concat_of_mem (h : c.Covers d p initialized hops) {hop : Hop} {switch : SwitchId}
    (hhop : d.switchOf? hop = some switch) (hmem : switch ∈ initialized ∨ switch ∈ c.pending) :
    c.Covers d p initialized (hops ++ [hop]) where
  tables := h.tables
  pending := by
    intro other
    simp only [h.pending, List.mem_append, List.mem_singleton]
    constructor
    · rintro ⟨⟨known, hknown, hother⟩, hnew⟩
      exact ⟨⟨known, Or.inl hknown, hother⟩, hnew⟩
    · rintro ⟨⟨known, hknown | rfl, hother⟩, hnew⟩
      · exact ⟨⟨known, hknown, hother⟩, hnew⟩
      · obtain rfl : switch = other := by simpa [hhop] using hother
        exact (h.pending switch).mp (hmem.resolve_left hnew)
  defaults := by
    intro other
    rw [h.defaults]
    split
    · next hother =>
      rw [Deployment.firstPort?_concat_of_mem ((h.pending other).mp hother).1]
    · rfl
  covered := h.covered

theorem concat_of_new (h : c.Covers d p initialized hops) {hop : Hop} {switch : SwitchId}
    (hl : l.dstSwitch = some switch) (hdst : l.entry.dst = .forwarder hop.forwarder)
    (hhop : d.switchOf? hop = some switch)
    (hnew : ¬(switch ∈ initialized ∨ switch ∈ c.pending)) :
    (c.stageDefaults d initialized l).Covers d p initialized (hops ++ [hop]) := by
  obtain ⟨hfresh, hunstaged⟩ := not_or.mp hnew
  have hfirst : ¬ ∃ known ∈ hops, d.switchOf? known = some switch := fun hex =>
    hunstaged ((h.pending switch).mpr ⟨hex, hfresh⟩)
  rw [stageDefaults_of_new hl hdst hnew, h.tables]
  refine ⟨h.tables, fun other => ?_, fun other => ?_, fun flow hflow => ?_⟩
  · simp only [Ordered.mem_insert, h.pending, List.mem_append, List.mem_singleton]
    constructor
    · rintro (rfl | ⟨⟨known, hknown, hother⟩, hinit⟩)
      · exact ⟨⟨hop, Or.inr rfl, hhop⟩, hfresh⟩
      · exact ⟨⟨known, Or.inl hknown, hother⟩, hinit⟩
    · rintro ⟨⟨known, hknown | rfl, hother⟩, hinit⟩
      · exact Or.inr ⟨⟨known, hknown, hother⟩, hinit⟩
      · exact Or.inl (by simpa [hhop, eq_comm] using hother)
  · simp only [List.filter_append, h.defaults, Deployment.filter_defaultsOn, Ordered.mem_insert]
    by_cases hother : other = switch
    · subst hother
      simp [hunstaged, Deployment.firstPort?_concat_of_new hfirst hhop]
    · -- other switches keep what they have, and the port of a hop before this one
      have hne : ¬ switch = other := fun e => hother e.symm
      simp only [hother, hne, if_false, false_or, List.append_nil]
      split
      · next hpending =>
        rw [Deployment.firstPort?_concat_of_mem ((h.pending other).mp hpending).1]
      · rfl
  · rcases List.mem_append.mp hflow with hflow | hflow
    · exact (h.covered flow hflow).imp_right fun hmem => by simp [hmem]
    · obtain ⟨template, _, rfl⟩ := List.mem_map.mp hflow
      exact Or.inr (by simp [FlowTemplate.on])

theorem append_own (h : (c.stageDefaults d initialized l).Covers d p initialized hops)
    (htables : c.batch.tables = p.tables d.config)
    (hends : ∀ switch, l.dstSwitch = some switch ∨ l.srcSwitch = some switch →
      switch ∈ initialized ∨ switch ∈ (c.stageDefaults d initialized l).pending) :
    (c.stageEntry d p initialized l).Covers d p initialized hops := by
  obtain ⟨hpending, hkept, hflows⟩ := @stageEntry_eq d p initialized c l htables
  refine ⟨hkept, ?_, fun switch => ?_, fun flow hflow => ?_⟩
  · rw [hpending]
    exact h.pending
  · have hown : (ownFlows d p l).filter (·.isDefaultOn switch) = [] := by
      rw [List.filter_eq_nil_iff]
      intro flow hflow
      simp [Flow.isDefaultOn, owner_of_mem_ownFlows hflow]
    rw [hflows, hpending, List.filter_append, hown, List.append_nil, h.defaults]
  · rw [hflows] at hflow
    rw [hpending]
    rcases List.mem_append.mp hflow with hflow | hflow
    · exact h.covered flow hflow
    · exact hends flow.switch (switch_of_mem_ownFlows hflow)

theorem known (h : c.Covers d p initialized hops) {hop : Hop} {switch : SwitchId}
    (hmem : hop ∈ hops) (hhop : d.switchOf? hop = some switch) :
    switch ∈ initialized ∨ switch ∈ c.pending := by
  by_cases hinit : switch ∈ initialized
  · exact Or.inl hinit
  · exact Or.inr ((h.pending switch).mpr ⟨⟨hop, hmem, hhop⟩, hinit⟩)

theorem stageEntry (h : c.Covers d p initialized hops) {hop : Hop} {switch : SwitchId}
    (hl : l.dstSwitch = some switch) (hdst : l.entry.dst = .forwarder hop.forwarder)
    (hhop : d.switchOf? hop = some switch)
    (hsrc : ∀ src, l.srcSwitch = some src → src ∈ initialized ∨ src ∈ c.pending) :
    (c.stageEntry d p initialized l).Covers d p initialized (hops ++ [hop]) := by
  have hdefaults :
      (c.stageDefaults d initialized l).Covers d p initialized (hops ++ [hop]) := by
    by_cases hmem : switch ∈ initialized ∨ switch ∈ c.pending
    · rw [stageDefaults_of_mem hl hmem]
      exact h.concat_of_mem hhop hmem
    · exact h.concat_of_new hl hdst hhop hmem
  refine append_own hdefaults h.tables fun other hend => ?_
  rcases hend with hend | hend
  · obtain rfl : switch = other := by simpa [hl] using hend
    exact hdefaults.known (by simp) hhop
  · exact (hsrc other hend).imp_right mem_pending_stageDefaults

theorem stageLast (h : c.Covers d p initialized hops) (hl : l.dstSwitch = none)
    (hsrc : ∀ src, l.srcSwitch = some src → src ∈ initialized ∨ src ∈ c.pending) :
    (c.stageEntry d p initialized l).Covers d p initialized hops := by
  have hsame : c.stageDefaults d initialized l = c := stageDefaults_of_none hl
  refine append_own (by rwa [hsame]) h.tables fun switch hend => ?_
  rw [hsame]
  rcases hend with hend | hend
  · simp [hl] at hend
  · exact hsrc switch hend

/-- The entries one by one. Each leaves from where the one before it arrived, so that its source
has its default flows already. -/
theorem stageEntries {path : ServicePath} {egress : ServiceIndex} {origin : HopGraph.Departure}
    {passed : List Hop} {entries : List HopEntry} {number : Nat} {c' : Compilation}
    (h : c.Covers d p initialized passed)
    (horigin : ∀ switch, LocatedEntry.switchOf d.topology origin.point origin.placement =
      .ok (some switch) → switch ∈ initialized ∨ switch ∈ c.pending)
    (hentries : entries.map HopEntry.bare =
      HopGraph.chain path egress origin (hops.map fun hop => (hop, d.placementFor hop)))
    (hok : Compilation.stageEntries d p initialized c number entries = .ok c') :
    c'.Covers d p initialized (passed ++ hops) := by
  -- on the hops still to come; what is known of the origin is passed on from hop to hop
  induction hops generalizing c origin passed entries number with
  | nil =>
    obtain ⟨e, rfl, he⟩ := List.map_eq_singleton_iff.mp hentries
    obtain ⟨l, hlocate, hok⟩ := stageEntries_cons_ok hok
    obtain ⟨hdst, hsrc⟩ := LocatedEntry.locate_final he hlocate
    cases hok
    rw [List.append_nil]
    exact h.stageLast hdst fun src hl => horigin src (hsrc.trans (congrArg _ hl))
  | cons hop rest ih =>
    obtain ⟨e, entries, rfl, he, hrest⟩ := List.map_eq_cons_iff.mp hentries
    obtain ⟨l, hlocate, hok⟩ := stageEntries_cons_ok hok
    obtain ⟨switch, hdst, hl, hhop, hsrc⟩ := LocatedEntry.locate_entryTo he hlocate
    have hentry := h.stageEntry hl hdst hhop fun src hl => horigin src (hsrc.trans (congrArg _ hl))
    rw [List.append_cons]
    refine ih hentry (fun other hother => ?_) hrest hok
    obtain ⟨found, hfound, hthere⟩ := LocatedEntry.switchOf_forwarder hother
    cases hfound
    exact hentry.known (by simp) hthere

end Covers

theorem covers_make {path : ServicePath} (hp : p.Carries d path)
    (h : make d p initialized = .ok c) : c.Covers d p initialized path.hops :=
  (Covers.start d p initialized).stageEntries (by simp [LocatedEntry.switchOf, Endpoint.name?])
    hp.entries h

end Compilation
end ServiceChain
