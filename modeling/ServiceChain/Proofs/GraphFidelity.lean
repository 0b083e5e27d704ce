import ServiceChain.Proofs.PathChecks
import ServiceChain.Render.Event

/-! What a hop graph keeps of its path: one entry for each hop and one out of the path, each leaving
from where the one before it arrived, with indices that count down by one. Where a function is
placed is a matter of which interfaces it has, not of their order or how often they are listed. -/
namespace ServiceChain

namespace HopGraph

/-- The entries are those of a walk along the path: from its edge to every hop in turn, and out. -/
structure Follows (g : HopGraph) (path : ServicePath) : Prop where
  length : g.entries.length = path.hops.length + 1
  first : ∃ e, g.entries[0]? = some e ∧ e.src = .ingress ∧ e.previousFunction = none ∧
    e.srcPlacement = none
  hop : ∀ (i : Nat) (hop : Hop), path.hops[i]? = some hop → ∃ e, g.entries[i]? = some e ∧
    e.dst = .forwarder hop.forwarder ∧ e.serviceFunction = some hop.serviceFunction ∧
    e.group = hop.group ∧ e.index = hop.index
  onward : ∀ (i : Nat) (e next : HopEntry), g.entries[i]? = some e →
    g.entries[i + 1]? = some next →
    next.src = e.dst ∧ next.previousFunction = e.serviceFunction ∧
      next.srcPlacement = e.dstPlacement
  last : ∃ e, g.entries[path.hops.length]? = some e ∧ e.dst = .egress ∧
    e.serviceFunction = none ∧ e.dstPlacement = none
  /-- The last hop has an index to take one off, and what is left is that of the way out. -/
  egress : ∃ e hop, g.entries[path.hops.length]? = some e ∧ path.hops.getLast? = some hop ∧
    hop.index ≠ 0 ∧ e.index = hop.index - 1
  index : ∀ (i : Nat) (e : HopEntry), g.entries[i]? = some e →
    e.index.toNat + i = path.startingIndex.toNat
  inside : ∀ e ∈ g.entries, e.src.name?.isSome ∨ e.dst.name?.isSome

variable {path : ServicePath} {egress : ServiceIndex} {origin : Departure}
  {hops : List (Hop × Option Placement)}

theorem chain_head (path : ServicePath) (egress : ServiceIndex) (origin : Departure)
    (hops : List (Hop × Option Placement)) :
    ∃ e, (chain path egress origin hops)[0]? = some e ∧ e.src = origin.point ∧
      e.previousFunction = origin.function ∧ e.srcPlacement = origin.placement := by
  cases hops with
  | nil => exact ⟨_, rfl, rfl, rfl, rfl⟩
  | cons hop rest => exact ⟨_, rfl, rfl, rfl, rfl⟩

/-- An entry leaves from where the one before it arrived. -/
theorem chain_onward {i : Nat} {e next : HopEntry}
    (he : (chain path egress origin hops)[i]? = some e)
    (hnext : (chain path egress origin hops)[i + 1]? = some next) :
    next.src = e.dst ∧ next.previousFunction = e.serviceFunction ∧
      next.srcPlacement = e.dstPlacement := by
  induction hops generalizing origin i with
  | nil => simp [chain] at hnext
  | cons hop rest ih =>
    rw [chain, List.getElem?_cons_succ] at hnext
    cases i with
    | zero =>
      obtain rfl : entryTo path origin hop.1 hop.2 = e := by simpa [chain] using he
      obtain ⟨head, hhead, hsrc, hprevious, hplaced⟩ := chain_head path egress
        ⟨.forwarder hop.1.forwarder, some hop.1.serviceFunction, hop.2⟩ rest
      obtain rfl : head = next := Option.some.inj (hhead.symm.trans hnext)
      exact ⟨hsrc, hprevious, hplaced⟩
    | succ i => exact ih (by simpa [chain] using he) hnext

theorem chain_inside (hinside : origin.point.name?.isSome ∨ hops ≠ []) {e : HopEntry}
    (he : e ∈ chain path egress origin hops) : e.src.name?.isSome ∨ e.dst.name?.isSome := by
  induction hops generalizing origin with
  | nil =>
    cases List.mem_singleton.mp he
    exact Or.inl (hinside.resolve_right fun hne => hne rfl)
  | cons hop rest ih =>
    rcases List.mem_cons.mp he with rfl | he
    · exact Or.inr rfl
    · exact ih (Or.inl rfl) he

theorem filterMap_hopOf?_chain (path : ServicePath) (egress : ServiceIndex) (origin : Departure)
    (hops : List (Hop × Option Placement)) :
    (chain path egress origin hops).filterMap hopOf? =
      hops.map fun hop => (hop.1.forwarder, hop.1.serviceFunction, hop.1.index) := by
  induction hops generalizing origin with
  | nil => rfl
  | cons hop rest ih =>
    have hhead : hopOf? (entryTo path origin hop.1 hop.2) =
        some (hop.1.forwarder, hop.1.serviceFunction, hop.1.index) := rfl
    rw [chain, List.filterMap_cons_some hhead, ih, List.map_cons]

/-- The indices of a checked path go down to what its hops leave over. -/
theorem index_chainOf {d : Deployment} (h : checkHops path = .ok ()) {i : Nat} {e : HopEntry}
    (he : (chainOf d path)[i]? = some e) : e.index.toNat + i = path.startingIndex.toNat := by
  have hlength : (chainOf d path).length = path.hops.length + 1 := by simp [chainOf]
  have hlt : i < path.hops.length + 1 := by
    have hfound := (List.getElem?_eq_some_iff.mp he).1
    omega
  rcases Nat.lt_or_eq_of_le (Nat.le_of_lt_succ hlt) with hlt | rfl
  · have hhop : path.hops[i]? = some path.hops[i] := List.getElem?_eq_getElem hlt
    obtain ⟨point, -, hentry⟩ := chainOf_getElem?_hop d hhop
    obtain rfl := Option.some.inj (he.symm.trans hentry)
    exact (index_of_checkHops h hhop).1
  · obtain ⟨point, -, hentry⟩ := chainOf_getElem?_final d path
    obtain rfl := Option.some.inj (he.symm.trans hentry)
    obtain ⟨hop, -, -, hegress, hleft⟩ := exists_egressIndex h
    rw [hegress]
    exact hleft

theorem follows_chainOf {d : Deployment} (h : checkHops path = .ok ()) :
    Follows ⟨path.id, chainOf d path⟩ path where
  length := by simp [chainOf]
  first := chain_head path _ ⟨.ingress, none, none⟩ _
  hop := by
    intro i hop hhop
    obtain ⟨point, -, hentry⟩ := chainOf_getElem?_hop d hhop
    exact ⟨_, hentry, rfl, rfl, rfl, rfl⟩
  onward := fun i e next he hnext => chain_onward he hnext
  last := by
    obtain ⟨point, -, hentry⟩ := chainOf_getElem?_final d path
    exact ⟨_, hentry, rfl, rfl, rfl⟩
  egress := by
    obtain ⟨point, -, hentry⟩ := chainOf_getElem?_final d path
    obtain ⟨hop, hlast, hne, hegress, -⟩ := exists_egressIndex h
    rw [hegress] at hentry
    exact ⟨_, hop, hentry, hlast, hne, rfl⟩
  index := fun i e he => index_chainOf h he
  inside := by
    have hlength : 1 ≤ path.hops.length := (checkHops_ok_iff.mp h).1
    have hsome : (path.hops.map fun hop => (hop, d.placementFor hop)) ≠ [] := by
      intro hnone
      have hzero := congrArg List.length hnone
      rw [List.length_map, List.length_nil] at hzero
      omega
    exact fun e he => chain_inside (Or.inr hsome) he

end HopGraph

/-- The hop with the placement of its function. -/
def Deployment.hopSummary (d : Deployment) (hop : Hop) : HopSummary :=
  ⟨hop.forwarder, hop.serviceFunction, hop.index, d.placementFor hop⟩

theorem PathEvent.filterMap_hopSummary?_chain (path : ServicePath) (egress : ServiceIndex)
    (origin : HopGraph.Departure) (hops : List (Hop × Option Placement)) :
    (HopGraph.chain path egress origin hops).filterMap hopSummary? = hops.map fun hop =>
      ⟨hop.1.forwarder, hop.1.serviceFunction, hop.1.index, hop.2⟩ := by
  induction hops generalizing origin with
  | nil => rfl
  | cons hop rest ih =>
    have hhead : hopSummary? (HopGraph.entryTo path origin hop.1 hop.2) =
        some ⟨hop.1.forwarder, hop.1.serviceFunction, hop.1.index, hop.2⟩ := rfl
    rw [HopGraph.chain, List.filterMap_cons_some hhead, ih, List.map_cons]

theorem PathEvent.ofGraph_eq {d : Deployment} {path : ServicePath} {g : HopGraph}
    (h : g.entries.map HopEntry.bare = HopGraph.chainOf d path) :
    ofGraph path g = .rendered path.id path.name (path.hops.map d.hopSummary) := by
  have hbare : hopSummary? ∘ HopEntry.bare = hopSummary? := rfl
  have hhops := congrArg (List.filterMap hopSummary?) h
  rw [List.filterMap_map, hbare, HopGraph.chainOf, filterMap_hopSummary?_chain,
    List.map_map] at hhops
  rw [ofGraph, hhops]
  rfl

/-- Both functions have the same locators, as far as these are interfaces, in whatever order and
however often. -/
def ServiceFunction.SameInterfaces (sf other : ServiceFunction) : Prop :=
  ∀ interface, interface ∈ sf.locators.map (·.locator.interface?) ↔
    interface ∈ other.locators.map (·.locator.interface?)

def Topology.mapFunctions (t : Topology) (change : ServiceFunction → ServiceFunction) : Topology :=
  { t with serviceFunctions := t.serviceFunctions.map change }

theorem Topology.serviceFunction?_mapFunctions {change : ServiceFunction → ServiceFunction}
    (hname : ∀ sf, (change sf).name = sf.name) (t : Topology) (name : String) :
    (t.mapFunctions change).serviceFunction? name = (t.serviceFunction? name).map change := by
  have hsame : (fun sf : ServiceFunction => decide (sf.name = name)) ∘ change =
      fun sf => decide (sf.name = name) := by
    funext sf
    simp [hname]
  simp only [serviceFunction?, mapFunctions]
  rw [← List.map_reverse, List.find?_map, hsame]

namespace Deployment

def mapFunctions (d : Deployment) (change : ServiceFunction → ServiceFunction) : Deployment :=
  { d with topology := d.topology.mapFunctions change }

theorem placedOn_of_interfaces {sf : ServiceFunction} {d : Deployment} {p : Placement} :
    ((∀ l ∈ sf.locators, l.locator.kind = .logicalInterface) ∧
        ∃ l ∈ sf.locators, ∃ name, l.locator.interface? = some name ∧
          d.placements.placement name = .ok p) ↔
      none ∉ sf.locators.map (·.locator.interface?) ∧
        ∃ name, some name ∈ sf.locators.map (·.locator.interface?) ∧
          d.placements.placement name = .ok p := by
  have hkinds : (∀ l ∈ sf.locators, l.locator.kind = .logicalInterface) ↔
      none ∉ sf.locators.map (·.locator.interface?) := by
    simp [Locator.kind_eq_logicalInterface, Option.isSome_iff_ne_none]
  rw [hkinds]
  refine and_congr_right fun _ => ?_
  constructor
  · rintro ⟨l, hl, name, hname, hp⟩
    exact ⟨name, List.mem_map.mpr ⟨l, hl, hname⟩, hp⟩
  · rintro ⟨name, hmem, hp⟩
    obtain ⟨l, hl, hname⟩ := List.mem_map.mp hmem
    exact ⟨l, hl, name, hname, hp⟩

variable {change : ServiceFunction → ServiceFunction}

theorem placedOn_mapFunctions (d : Deployment) (hname : ∀ sf, (change sf).name = sf.name)
    (hsame : ∀ sf, (change sf).SameInterfaces sf) (function : String) (p : Placement) :
    (d.mapFunctions change).PlacedOn function p ↔ d.PlacedOn function p := by
  have hplacements : (d.mapFunctions change).placements = d.placements := rfl
  have hfound : (d.mapFunctions change).topology.serviceFunction? function =
      (d.topology.serviceFunction? function).map change :=
    d.topology.serviceFunction?_mapFunctions hname function
  simp only [PlacedOn, placedOn_of_interfaces, hplacements, hfound]
  cases d.topology.serviceFunction? function with
  | none => simp
  | some sf =>
    have hset := hsame sf
    simp only [ServiceFunction.SameInterfaces] at hset
    simp only [Option.map_some, Option.some.injEq, exists_eq_left', hset]

theorem placementOf_mapFunctions (d : Deployment) (hname : ∀ sf, (change sf).name = sf.name)
    (hsame : ∀ sf, (change sf).SameInterfaces sf) (function : String) :
    HopGraph.placementOf (d.topology.mapFunctions change) d.placements function =
      HopGraph.placementOf d.topology d.placements function := by
  have hplacements : (d.mapFunctions change).placementsOf function = d.placementsOf function := by
    refine eq_placementsOf_iff.mpr ⟨ascending_placementsOf _ function, fun p => ?_⟩
    rw [mem_placementsOf, placedOn_mapFunctions d hname hsame]
  have hchanged := (d.mapFunctions change).placementOf_eq function
  rw [hplacements, ← d.placementOf_eq] at hchanged
  exact hchanged

end Deployment

theorem HopGraph.build_mapFunctions {change : ServiceFunction → ServiceFunction} (d : Deployment)
    (hname : ∀ sf, (change sf).name = sf.name) (hsame : ∀ sf, (change sf).SameInterfaces sf)
    (path : ServicePath) :
    build (d.topology.mapFunctions change) d.placements path =
      build d.topology d.placements path := by
  simp only [build, d.placementOf_mapFunctions hname hsame]

/-- A graph follows its path, shows its hops and no others, and so does the event that is made from
it. To list the interfaces of functions in another order or repeatedly gives the same graph. -/
theorem HopGraph.graph_follows_path (d : Deployment) (path : ServicePath) (g : HopGraph)
    (h : build d.topology d.placements path = .ok g) :
    g.Follows path ∧
      g.hops = path.hops.map (fun hop => (hop.forwarder, hop.serviceFunction, hop.index)) ∧
      PathEvent.ofGraph path g = .rendered path.id path.name (path.hops.map d.hopSummary) ∧
      ∀ change : ServiceFunction → ServiceFunction, (∀ sf, (change sf).name = sf.name) →
        (∀ sf, (change sf).SameInterfaces sf) →
        build (d.topology.mapFunctions change) d.placements path = .ok g := by
  obtain ⟨hchecked, rfl, -⟩ := build_ok h
  refine ⟨follows_chainOf hchecked, ?_, ?_, fun change hname hsame => ?_⟩
  · rw [hops, chainOf, filterMap_hopOf?_chain, List.map_map]
    rfl
  · exact PathEvent.ofGraph_eq (map_bare_chain path _ _ _)
  · rw [build_mapFunctions d hname hsame, h]

def pairedDeployment : Deployment where
  topology :=
    { forwarders := []
      serviceFunctions :=
        [⟨"firewall", "firewall", [⟨"inside", .ip (.v4 10 0 0 2) none⟩], false⟩,
          ⟨"cache", "cache",
            [⟨"a", .logicalInterface "tap-a" none⟩, ⟨"b", .logicalInterface "tap-b" none⟩],
            false⟩] }
  placements := ⟨[("tap-a", ⟨7⟩), ("tap-b", ⟨7⟩)], []⟩

def pairedPath : ServicePath where
  name := "paired"
  id := 5
  hops := [⟨"edge", "firewall", none, 2⟩, ⟨"overlay", "cache", some "caches", 1⟩]
  transport := .vxlanGpe
  encapsulation := .nsh
  startingIndex := 2
  direction := .reverse

def ServiceFunction.listedTwice (sf : ServiceFunction) : ServiceFunction :=
  { sf with locators := sf.locators.reverse ++ sf.locators }

theorem HopGraph.graph_follows_path_twice :
    ∃ g, build pairedDeployment.topology pairedDeployment.placements pairedPath = .ok g ∧
      g.Follows pairedPath ∧ g.hops = [("edge", "firewall", 2), ("overlay", "cache", 1)] ∧
      PathEvent.ofGraph pairedPath g = .rendered 5 "paired"
        [⟨"edge", "firewall", 2, none⟩, ⟨"overlay", "cache", 1, some ⟨7⟩⟩] ∧
      build (pairedDeployment.topology.mapFunctions (·.listedTwice)) pairedDeployment.placements
        pairedPath = .ok g := by
  obtain ⟨g, hbuild⟩ : ∃ g,
      build pairedDeployment.topology pairedDeployment.placements pairedPath = .ok g := ⟨_, rfl⟩
  obtain ⟨hfollows, hhops, hevent, hchange⟩ :=
    graph_follows_path pairedDeployment pairedPath g hbuild
  have hsame : ∀ sf : ServiceFunction, sf.listedTwice.SameInterfaces sf := by
    intro sf interface
    simp [ServiceFunction.listedTwice]
  exact ⟨g, hbuild, hfollows, hhops, hevent, hchange _ (fun _ => rfl) hsame⟩

end ServiceChain
