import ServiceChain.Proofs.OwnFlows
import ServiceChain.Proofs.RenderOutcome

/-! The entries of a path by their numbers. What is looked up for the entry that leads to a hop, and
for the one that takes traffic on from there, depends on the hop alone. -/
namespace ServiceChain

namespace HopGraph

def Departure.after (hop : Hop × Option Placement) : Departure :=
  ⟨.forwarder hop.1.forwarder, some hop.1.serviceFunction, hop.2⟩

def departures (origin : Departure) (hops : List (Hop × Option Placement)) : List Departure :=
  origin :: hops.map .after

theorem chain_getElem?_hop {path : ServicePath} {egress : ServiceIndex} {origin : Departure}
    {hops : List (Hop × Option Placement)} {i : Nat} {hop : Hop × Option Placement}
    (h : hops[i]? = some hop) :
    ∃ point, (departures origin hops)[i]? = some point ∧
      (chain path egress origin hops)[i]? = some (entryTo path point hop.1 hop.2) := by
  induction hops generalizing origin i with
  | nil => simp at h
  | cons first rest ih =>
    cases i with
    | zero =>
      obtain rfl : first = hop := by simpa using h
      exact ⟨origin, rfl, rfl⟩
    | succ i => exact @ih (.after first) i (by simpa using h)

theorem chain_getElem?_final (path : ServicePath) (egress : ServiceIndex) (origin : Departure)
    (hops : List (Hop × Option Placement)) :
    ∃ point, (departures origin hops)[hops.length]? = some point ∧
      (chain path egress origin hops)[hops.length]? = some (finalEntry path egress point) := by
  induction hops generalizing origin with
  | nil => exact ⟨origin, rfl, rfl⟩
  | cons first rest ih => exact ih (.after first)

theorem chainOf_getElem?_hop (d : Deployment) {path : ServicePath} {i : Nat} {hop : Hop}
    (h : path.hops[i]? = some hop) :
    ∃ point, (departures ⟨.ingress, none, none⟩
        (path.hops.map fun hop => (hop, d.placementFor hop)))[i]? = some point ∧
      (chainOf d path)[i]? = some (entryTo path point hop (d.placementFor hop)) :=
  @chain_getElem?_hop path _ _ _ i (hop, d.placementFor hop) (by simp [h])

theorem chainOf_getElem?_final (d : Deployment) (path : ServicePath) :
    ∃ point, (departures ⟨.ingress, none, none⟩
        (path.hops.map fun hop => (hop, d.placementFor hop)))[path.hops.length]? = some point ∧
      (chainOf d path)[path.hops.length]? =
        some (finalEntry path ((egressIndex? path).getD 0) point) := by
  have hfinal := chain_getElem?_final path ((egressIndex? path).getD 0) ⟨.ingress, none, none⟩
    (path.hops.map fun hop => (hop, d.placementFor hop))
  rwa [List.length_map] at hfinal

theorem toNat_pred {index : ServiceIndex} (h : 0 < index.toNat) :
    (index - 1).toNat = index.toNat - 1 :=
  UInt8.toNat_sub_of_le index 1 (UInt8.le_iff_toNat_le.mpr h)

theorem index_of_checkIndices {i : Nat} {expected : ServiceIndex} {hops : List Hop}
    (h : checkIndices i expected hops = .ok ()) {k : Nat} {hop : Hop} (hhop : hops[k]? = some hop) :
    hop.index.toNat + k = expected.toNat ∧ 0 < hop.index.toNat := by
  induction hops generalizing i expected k with
  | nil => simp at hhop
  | cons first rest ih =>
    simp only [checkIndices] at h
    split at h
    · cases h
    · next hindex =>
      split at h
      · cases h
      · next hzero =>
        have hpos : expected.toNat ≠ 0 := fun hnone => hzero (UInt8.toNat_inj.mp hnone)
        cases k with
        | zero =>
          obtain rfl : first = hop := by simpa using hhop
          rw [Decidable.not_not.mp hindex]
          omega
        | succ k =>
          obtain ⟨hsum, hlast⟩ := ih h (by simpa using hhop)
          have hless := toNat_pred (Nat.pos_of_ne_zero hpos)
          omega

theorem index_of_checkHops {path : ServicePath} (h : checkHops path = .ok ()) {k : Nat} {hop : Hop}
    (hhop : path.hops[k]? = some hop) :
    hop.index.toNat + k = path.startingIndex.toNat ∧ 0 < hop.index.toNat := by
  simp only [checkHops] at h
  split at h
  · cases h
  · exact index_of_checkIndices h hhop

theorem index_next {path : ServicePath} (h : checkHops path = .ok ()) {i : Nat} {hop next : Hop}
    (hhop : path.hops[i]? = some hop) (hnext : path.hops[i + 1]? = some next) :
    next.index = hop.index - 1 := by
  obtain ⟨hsum, hpos⟩ := index_of_checkHops h hhop
  obtain ⟨hafter, -⟩ := index_of_checkHops h hnext
  have hless := toNat_pred hpos
  apply UInt8.toNat_inj.mp
  omega

/-- The last hop of a checked path has an index above zero, so that one can be taken off for the
way out. -/
theorem exists_egressIndex {path : ServicePath} (h : checkHops path = .ok ()) :
    ∃ hop, path.hops.getLast? = some hop ∧ hop.index ≠ 0 ∧
      egressIndex? path = some (hop.index - 1) ∧
      (hop.index - 1).toNat + path.hops.length = path.startingIndex.toNat := by
  have hsome : path.hops ≠ [] := fun hnone => by simp [checkHops, hnone] at h
  obtain ⟨hop, hlast⟩ : ∃ hop, path.hops.getLast? = some hop :=
    ⟨_, List.getLast?_eq_some_getLast hsome⟩
  obtain ⟨hsum, hpos⟩ := index_of_checkHops h (List.getLast?_eq_getElem? ▸ hlast)
  have hne : hop.index ≠ 0 := fun hzero => by simp [hzero] at hpos
  have hlength := List.length_pos_iff.mpr hsome
  refine ⟨hop, hlast, hne, by simp [egressIndex?, hlast, hne], ?_⟩
  rw [toNat_pred hpos]
  omega

end HopGraph

namespace Deployment

/-- How traffic on a path comes to the function of a hop. -/
def inlet? (d : Deployment) (path : ServicePath) (hop : Hop) : Option Attachment :=
  d.topology.attachment? hop.forwarder hop.serviceFunction path.direction .intoFunction

/-- Where the function of a hop hands traffic back. -/
def outlet? (d : Deployment) (path : ServicePath) (hop : Hop) : Option Attachment :=
  d.topology.attachment? hop.forwarder hop.serviceFunction path.direction .outOfFunction

/-- The function of the hop is known to its forwarder, on the way in and on the way out. -/
def Resolves (d : Deployment) (path : ServicePath) (hop : Hop) : Prop :=
  (d.inlet? path hop).isSome ∧ (d.outlet? path hop).isSome

instance (d : Deployment) (path : ServicePath) (hop : Hop) : Decidable (d.Resolves path hop) :=
  inferInstanceAs (Decidable (_ ∧ _))

def legContext (d : Deployment) (id : PathId) : LegContext := ⟨d.topology, d.config, id⟩

end Deployment

namespace LocatedEntry

theorem exists_of_locateAll {t : Topology} {number : Nat} {entries : List HopEntry}
    {located : List LocatedEntry} (h : locateAll t number entries = .ok located) {i : Nat}
    {e : HopEntry} (hentry : entries[i]? = some e) : ∃ l, locate t (number + i) e = .ok l := by
  induction entries generalizing number located i with
  | nil => simp at hentry
  | cons first rest ih =>
    obtain ⟨found, hfound, h⟩ := bind_eq_ok.mp h
    obtain ⟨others, hothers, -⟩ := bind_eq_ok.mp h
    cases i with
    | zero =>
      obtain rfl : first = e := by simpa using hentry
      exact ⟨found, hfound⟩
    | succ i =>
      have hnumber : number + 1 + i = number + (i + 1) := by omega
      exact hnumber ▸ ih hothers (by simpa using hentry)

theorem parts_of_locate {t : Topology} {number : Nat} {e : HopEntry} {l : LocatedEntry}
    (h : locate t number e = .ok l) :
    l.number = number ∧
      l.dstFunction = (e.dst.name?.bind fun name => e.serviceFunction.bind fun function =>
        t.attachment? name function e.direction .intoFunction) ∧
      l.srcFunction = (e.src.name?.bind fun name => e.previousFunction.bind fun function =>
        t.attachment? name function e.direction .outOfFunction) ∧
      l.dstIngress = e.dst.name?.bind fun name => e.dstIngressLocator.bind (t.locator? name) := by
  obtain ⟨_, -, h⟩ := bind_eq_ok.mp h
  obtain ⟨_, -, h⟩ := bind_eq_ok.mp h
  cases h
  exact ⟨rfl, rfl, rfl, rfl⟩

theorem exists_locator_of_dstIngress {t : Topology} {number : Nat} {l : LocatedEntry}
    (h : locate t number l.entry = .ok l) {name : String} (hdst : l.entry.dst = .forwarder name)
    {ingress : BoundLocator} (hingress : l.dstIngress = some ingress) :
    ∃ locator, t.locator? name locator = some ingress := by
  obtain ⟨-, -, -, hl⟩ := parts_of_locate h
  rw [hingress, hdst] at hl
  obtain ⟨_, hname, hl⟩ := Option.bind_eq_some_iff.mp hl.symm
  cases hname
  obtain ⟨locator, -, hlocator⟩ := Option.bind_eq_some_iff.mp hl
  exact ⟨locator, hlocator⟩

/-- The entry leads to this hop. -/
structure ArrivesAt (l : LocatedEntry) (d : Deployment) (path : ServicePath) (hop : Hop)
    (switch : SwitchId) : Prop where
  dst : l.entry.dst = .forwarder hop.forwarder
  index : l.entry.index = hop.index
  dstSwitch : l.dstSwitch = some switch
  dstFunction : l.dstFunction = d.inlet? path hop

/-- The entry takes traffic on from this hop. -/
structure LeavesFrom (l : LocatedEntry) (d : Deployment) (path : ServicePath) (hop : Hop)
    (switch : SwitchId) : Prop where
  src : l.entry.src = .forwarder hop.forwarder
  index : l.entry.index = hop.index - 1
  srcSwitch : l.srcSwitch = some switch
  srcFunction : l.srcFunction = d.outlet? path hop

end LocatedEntry

/-- `l` is what is looked up for the entry with this number. -/
structure Plan.Locates (p : Plan) (d : Deployment) (i : Nat) (l : LocatedEntry) : Prop where
  entry : p.graph.entries[i]? = some l.entry
  located : LocatedEntry.locate d.topology i l.entry = .ok l

namespace Plan

variable {d : Deployment} {path : ServicePath} {p : Plan} {i : Nat} {l : LocatedEntry}
  {initialized : List SwitchId} {c : Compilation}

theorem Carries.length_entries (hp : p.Carries d path) :
    p.graph.entries.length = path.hops.length + 1 := by
  have h := congrArg List.length hp.entries
  simpa [HopGraph.chainOf] using h

theorem Carries.hops_ne_nil (hp : p.Carries d path) : path.hops ≠ [] := by
  intro hnone
  have hchecked := hp.checked
  simp [HopGraph.checkHops, hnone] at hchecked

theorem Carries.isLogical_eq_false (hp : p.Carries d path)
    (hv : p.variant ≠ .logicalForwarder) : p.graph.isLogical = false := by
  have hvariant := hp.variant
  unfold Variant.forPath? at hvariant
  cases hlogical : p.graph.isLogical with
  | false => rfl
  | true => exact absurd (by simpa [hlogical] using hvariant.symm) hv

theorem Carries.tables_plain (hp : p.Carries d path) (hv : p.variant ≠ .logicalForwarder) :
    p.tables d.config = d.config.standardTables := by
  rw [hp.tables_eq, hp.isLogical_eq_false hv]
  rfl

/-- Every entry of a plan that compiles is looked up. -/
theorem exists_locates (hp : p.Carries d path)
    (hmake : Compilation.make d p initialized = .ok c) (hi : i ≤ path.hops.length) :
    ∃ l, p.Locates d i l := by
  obtain ⟨located, hlocated, -⟩ := Compilation.own_make hmake
  have hlength : i < p.graph.entries.length := by
    rw [hp.length_entries]
    omega
  obtain ⟨e, hentry⟩ : ∃ e, p.graph.entries[i]? = some e := ⟨_, List.getElem?_eq_getElem hlength⟩
  obtain ⟨l, hlocate⟩ := LocatedEntry.exists_of_locateAll hlocated hentry
  rw [Nat.zero_add] at hlocate
  obtain ⟨rfl, -, -⟩ := LocatedEntry.locate_ok hlocate
  exact ⟨l, hentry, hlocate⟩

namespace Locates

/-- An entry leads to the hop of its number, or is the last; in both cases it leaves from where the
one before it arrived. -/
theorem bare_entry (h : p.Locates d i l) (hp : p.Carries d path) :
    ∃ point, (HopGraph.departures ⟨.ingress, none, none⟩
        (path.hops.map fun hop => (hop, d.placementFor hop)))[i]? = some point ∧
      ((∃ hop, path.hops[i]? = some hop ∧
          l.entry.bare = HopGraph.entryTo path point hop (d.placementFor hop)) ∨
        path.hops.length = i ∧ l.entry.bare =
          HopGraph.finalEntry path ((HopGraph.egressIndex? path).getD 0) point) := by
  have hbare : (HopGraph.chainOf d path)[i]? = some l.entry.bare := by
    rw [← hp.entries, List.getElem?_map, h.entry, Option.map_some]
  have hlt : i < path.hops.length + 1 := by
    rw [← hp.length_entries]
    exact (List.getElem?_eq_some_iff.mp h.entry).1
  rcases Nat.lt_or_eq_of_le (Nat.le_of_lt_succ hlt) with hlt | rfl
  · have hhop : path.hops[i]? = some path.hops[i] := List.getElem?_eq_getElem hlt
    obtain ⟨point, hpoint, hentry⟩ := HopGraph.chainOf_getElem?_hop d hhop
    exact ⟨point, hpoint, Or.inl ⟨_, hhop, Option.some.inj (hbare.symm.trans hentry)⟩⟩
  · obtain ⟨point, hpoint, hentry⟩ := HopGraph.chainOf_getElem?_final d path
    exact ⟨point, hpoint, Or.inr ⟨rfl, Option.some.inj (hbare.symm.trans hentry)⟩⟩

theorem arrivesAt (h : p.Locates d i l) (hp : p.Carries d path) {hop : Hop}
    (hhop : path.hops[i]? = some hop) :
    ∃ switch, d.switchOf? hop = some switch ∧ l.ArrivesAt d path hop switch := by
  obtain ⟨point, -, ⟨other, hother, he⟩ | ⟨hlast, -⟩⟩ := h.bare_entry hp
  · obtain rfl : other = hop := Option.some.inj (hother.symm.trans hhop)
    obtain ⟨switch, hdst, hl, hswitch, -⟩ := LocatedEntry.locate_entryTo he h.located
    have hfunction : l.entry.serviceFunction = some other.serviceFunction :=
      congrArg HopEntry.serviceFunction he
    have hdirection : l.entry.direction = path.direction := congrArg HopEntry.direction he
    refine ⟨switch, hswitch, hdst, congrArg HopEntry.index he, hl, ?_⟩
    rw [(LocatedEntry.parts_of_locate h.located).2.1, hdst, hfunction, hdirection]
    rfl
  · simp [hlast] at hhop

theorem exists_hop (h : p.Locates d i l) (hp : p.Carries d path) {switch : SwitchId}
    (hswitch : l.dstSwitch = some switch) :
    ∃ hop, path.hops[i]? = some hop ∧ d.switchOf? hop = some switch ∧
      l.ArrivesAt d path hop switch := by
  obtain ⟨_, -, ⟨hop, hhop, -⟩ | ⟨-, he⟩⟩ := h.bare_entry hp
  · obtain ⟨found, hfound, harrives⟩ := h.arrivesAt hp hhop
    obtain rfl : found = switch := Option.some.inj (harrives.dstSwitch.symm.trans hswitch)
    exact ⟨hop, hhop, hfound, harrives⟩
  · obtain ⟨hnone, -⟩ := LocatedEntry.locate_final he h.located
    simp [hnone] at hswitch

theorem departure (h : p.Locates d i l) (hp : p.Carries d path) :
    ∃ point, (HopGraph.departures ⟨.ingress, none, none⟩
        (path.hops.map fun hop => (hop, d.placementFor hop)))[i]? = some point ∧
      l.entry.src = point.point ∧ l.entry.srcPlacement = point.placement ∧
      l.entry.previousFunction = point.function ∧ l.entry.direction = path.direction := by
  obtain ⟨point, hpoint, ⟨_, -, he⟩ | ⟨-, he⟩⟩ := h.bare_entry hp <;>
    exact ⟨point, hpoint, congrArg HopEntry.src he, congrArg HopEntry.srcPlacement he,
      congrArg HopEntry.previousFunction he, congrArg HopEntry.direction he⟩

/-- The index counts down past every hop, to the one that the hops leave over. -/
theorem index_succ (h : p.Locates d (i + 1) l) (hp : p.Carries d path) {hop : Hop}
    (hhop : path.hops[i]? = some hop) : l.entry.index = hop.index - 1 := by
  obtain ⟨_, -, ⟨next, hnext, he⟩ | ⟨hlast, he⟩⟩ := h.bare_entry hp
  · exact (congrArg HopEntry.index he).trans (HopGraph.index_next hp.checked hhop hnext)
  · obtain ⟨last, hfound, -, hegress, -⟩ := HopGraph.exists_egressIndex hp.checked
    rw [List.getLast?_eq_getElem?, hlast, Nat.add_sub_cancel, hhop] at hfound
    obtain rfl := Option.some.inj hfound
    rw [hegress] at he
    exact congrArg HopEntry.index he

theorem leavesFrom (h : p.Locates d (i + 1) l) (hp : p.Carries d path) {hop : Hop}
    (hhop : path.hops[i]? = some hop) :
    ∃ switch, d.switchOf? hop = some switch ∧ l.LeavesFrom d path hop switch := by
  obtain ⟨point, hpoint, hsrc, hplaced, hfunction, hdirection⟩ := h.departure hp
  obtain rfl : HopGraph.Departure.after (hop, d.placementFor hop) = point := by
    simpa [HopGraph.departures, hhop] using hpoint
  obtain ⟨-, -, hl⟩ := LocatedEntry.locate_ok h.located
  rw [hsrc, hplaced] at hl
  obtain ⟨switch, hfound, hswitch⟩ := LocatedEntry.switchOf_forwarder hl
  refine ⟨switch, hswitch, hsrc, h.index_succ hp hhop, hfound, ?_⟩
  rw [(LocatedEntry.parts_of_locate h.located).2.2.1, hsrc, hfunction, hdirection]
  rfl

theorem src_first (h : p.Locates d 0 l) (hp : p.Carries d path) : l.entry.src = .ingress := by
  obtain ⟨point, hpoint, hsrc, -⟩ := h.departure hp
  cases hpoint
  exact hsrc

theorem exists_previous (h : p.Locates d (i + 1) l) (hp : p.Carries d path) :
    ∃ hop switch, path.hops[i]? = some hop ∧ d.switchOf? hop = some switch ∧
      l.LeavesFrom d path hop switch := by
  have hlt : i < path.hops.length := by
    have hlength := (List.getElem?_eq_some_iff.mp h.entry).1
    rw [hp.length_entries] at hlength
    omega
  have hhop := List.getElem?_eq_getElem hlt
  obtain ⟨switch, hswitch, hleaves⟩ := h.leavesFrom hp hhop
  exact ⟨_, switch, hhop, hswitch, hleaves⟩

theorem exists_departure (h : p.Locates d i l) (hp : p.Carries d path) {switch : SwitchId}
    (hswitch : l.srcSwitch = some switch) :
    ∃ k hop, i = k + 1 ∧ path.hops[k]? = some hop ∧ d.switchOf? hop = some switch ∧
      l.LeavesFrom d path hop switch := by
  cases i with
  | zero =>
    obtain ⟨-, -, hleaves⟩ := LocatedEntry.locate_ok h.located
    rw [h.src_first hp, hswitch] at hleaves
    cases hleaves
  | succ k =>
    obtain ⟨hop, found, hhop, hfound, hleaves⟩ := h.exists_previous hp
    obtain rfl : found = switch := Option.some.inj (hleaves.srcSwitch.symm.trans hswitch)
    exact ⟨k, hop, rfl, hhop, hfound, hleaves⟩

theorem exists_arrival (h : p.Locates d i l) (hp : p.Carries d path)
    (hgo : l.entry.dst ≠ .egress) :
    ∃ hop switch, path.hops[i]? = some hop ∧ d.switchOf? hop = some switch ∧
      l.ArrivesAt d path hop switch := by
  obtain ⟨_, -, ⟨hop, hhop, -⟩ | ⟨-, he⟩⟩ := h.bare_entry hp
  · obtain ⟨switch, hswitch, harrives⟩ := h.arrivesAt hp hhop
    exact ⟨hop, switch, hhop, hswitch, harrives⟩
  · exact absurd (congrArg HopEntry.dst he) hgo

theorem dst_final (h : p.Locates d path.hops.length l) (hp : p.Carries d path) :
    l.entry.dst = .egress := by
  obtain ⟨_, -, ⟨hop, hhop, -⟩ | ⟨-, he⟩⟩ := h.bare_entry hp
  · simp at hhop
  · exact congrArg HopEntry.dst he

theorem eq_length_of_egress (h : p.Locates d i l) (hp : p.Carries d path)
    (hend : l.entry.dst = .egress) : i = path.hops.length := by
  obtain ⟨_, -, ⟨hop, -, he⟩ | ⟨hlast, -⟩⟩ := h.bare_entry hp
  · have hdst : l.entry.dst = .forwarder hop.forwarder := congrArg HopEntry.dst he
    simp [hend] at hdst
  · exact hlast.symm

end Locates

end Plan

end ServiceChain
