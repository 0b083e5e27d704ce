import ServiceChain.Render.Compilation

/-! Plans as chains. Whatever locators a transport finds, the entries of a plan are those of the
path's hops in order, each leaving from where the one before it arrives. -/
namespace ServiceChain

theorem bind_eq_ok {ε α β : Type} {x : Except ε α} {f : α → Except ε β} {b : β} :
    x >>= f = .ok b ↔ ∃ a, x = .ok a ∧ f a = .ok b := by
  cases x <;> simp [bind, Except.bind]

theorem bind_eq_error {ε α β : Type} {x : Except ε α} {f : α → Except ε β} {e : ε} :
    x >>= f = .error e ↔ x = .error e ∨ ∃ a, x = .ok a ∧ f a = .error e := by
  cases x <;> simp [bind, Except.bind]

theorem isOk_iff {ε α : Type} {x : Except ε α} : x.isOk = true ↔ ∃ a, x = .ok a := by
  cases x <;> simp [Except.isOk, Except.toBool]

theorem isOk_eq_false_iff {ε α : Type} {x : Except ε α} :
    x.isOk = false ↔ ∃ e, x = .error e := by
  cases x <;> simp [Except.isOk, Except.toBool]

theorem mapM_ok {ε α β : Type} {f : α → Except ε β} {l : List α} {ys : List β}
    (h : l.mapM f = .ok ys) {g : α → β} (hg : ∀ x y, f x = .ok y → g x = y) :
    ys = l.map g ∧ ∀ x ∈ l, f x = .ok (g x) := by
  induction l generalizing ys with
  | nil => cases h; simp
  | cons x rest ih =>
    rw [List.mapM_cons] at h
    obtain ⟨y, hy, h⟩ := bind_eq_ok.mp h
    obtain ⟨zs, hzs, h⟩ := bind_eq_ok.mp h
    cases h
    obtain ⟨rfl, hrest⟩ := ih hzs
    obtain rfl := hg x y hy
    simpa [hy] using hrest

theorem mapM_error {ε α β : Type} {f : α → Except ε β} {l : List α} {e : ε}
    (h : l.mapM f = .error e) : ∃ x ∈ l, f x = .error e := by
  induction l with
  | nil => cases h
  | cons x rest ih =>
    rw [List.mapM_cons] at h
    rcases bind_eq_error.mp h with hx | ⟨y, _, h⟩
    · exact ⟨x, by simp, hx⟩
    · rcases bind_eq_error.mp h with hrest | ⟨ys, _, h⟩
      · obtain ⟨z, hz, hfz⟩ := ih hrest
        exact ⟨z, by simp [hz], hfz⟩
      · cases h

/-- Where a hop's function is placed; none also if that is ambiguous. -/
def Deployment.placementFor (d : Deployment) (hop : Hop) : Option Placement :=
  match HopGraph.placementOf d.topology d.placements hop.serviceFunction with
  | .ok placement => placement
  | .error _ => none

namespace HopGraph

theorem placementOf_error {t : Topology} {p : Placements} {function : String} {e : RenderError}
    (h : placementOf t p function = .error e) :
    ∃ several, e = .ambiguousPlacement function several := by
  simp only [placementOf] at h
  split at h
  · cases h
  · split at h
    · cases h
    · cases h
    · next several _ _ => cases h; exact ⟨_, rfl⟩

theorem build_error {t : Topology} {p : Placements} {path : ServicePath} {e : RenderError}
    (h : build t p path = .error e) :
    (∃ defect, e = .malformedPath path.id defect) ∨
      ∃ function several, e = .ambiguousPlacement function several := by
  simp only [build] at h
  split at h
  · next defect _ => cases h; exact Or.inl ⟨defect, rfl⟩
  · rcases bind_eq_error.mp h with h | ⟨placed, _, h⟩
    · obtain ⟨hop, _, h⟩ := mapM_error h
      rcases bind_eq_error.mp h with h | ⟨placement, _, h⟩
      · obtain ⟨several, rfl⟩ := placementOf_error h
        exact Or.inr ⟨_, several, rfl⟩
      · cases h
    · split at h
      · cases h; exact Or.inl ⟨_, rfl⟩
      · cases h

/-- The chain of a path's hops, each placed where its function is. A path with a graph has an index
for its egress. -/
def chainOf (d : Deployment) (path : ServicePath) : List HopEntry :=
  chain path ((egressIndex? path).getD 0) ⟨.ingress, none, none⟩
    (path.hops.map fun hop => (hop, d.placementFor hop))

theorem build_ok {d : Deployment} {path : ServicePath} {g : HopGraph}
    (h : build d.topology d.placements path = .ok g) :
    checkHops path = .ok () ∧ g = ⟨path.id, chainOf d path⟩ ∧
      ∀ hop ∈ path.hops, placementOf d.topology d.placements hop.serviceFunction =
        .ok (d.placementFor hop) := by
  simp only [build] at h
  split at h
  · cases h
  · next hchecked =>
    obtain ⟨placed, hplaced, h⟩ := bind_eq_ok.mp h
    obtain ⟨rfl, hfor⟩ := mapM_ok (g := fun hop => (hop, d.placementFor hop)) hplaced (by
      intro hop pair hpair
      obtain ⟨placement, hplacement, hpair⟩ := bind_eq_ok.mp hpair
      cases hpair
      simp [Deployment.placementFor, hplacement])
    have hgraph : g = ⟨path.id, chainOf d path⟩ := by
      split at h
      · cases h
      · next egress hegress =>
        cases h
        simp [chainOf, hegress]
    refine ⟨hchecked, hgraph, fun hop hhop => ?_⟩
    obtain ⟨placement, hplacement, hpair⟩ := bind_eq_ok.mp (hfor hop hhop)
    cases hpair
    exact hplacement

end HopGraph

namespace HopEntry

def bare (e : HopEntry) : HopEntry :=
  { e with
    srcEgressLocator := none
    dstIngressLocator := none
    hopIngress := none
    pathEgress := none }

theorem bare_nameLocators (t : Topology) (kind : LocatorKind) (e : HopEntry) :
    (e.nameLocators t kind).bare = e.bare := by
  unfold nameLocators
  split <;> rfl

theorem bare_resolveLocators (t : Topology) (e : HopEntry) :
    (e.resolveLocators t).bare = e.bare := by
  unfold resolveLocators
  split
  · rfl
  · split <;> rfl

end HopEntry

open HopEntry (bare)

theorem MacChaining.bare_nameLink (t : Topology) (e : HopEntry) : bare (nameLink t e) = bare e := by
  unfold nameLink
  split
  · split
    · rfl
    · split <;> rfl
  · rfl

theorem LogicalForwarder.bare_resolveTunnel (p : Placements) (e : HopEntry) :
    bare (resolveTunnel p e) = bare e := by
  unfold resolveTunnel
  split
  · split
    · rfl
    · split <;> rfl
  · rfl

theorem Vlan.bare_tag (id : Option VlanId) (e : HopEntry) : bare (tag id e) = bare e := by
  unfold tag
  split
  · split <;> rfl
  · rfl

theorem Vlan.map_bare_tagAll (ids : List (Option VlanId)) (entries : List HopEntry) :
    (tagAll ids entries).map bare = entries.map bare := by
  induction entries generalizing ids with
  | nil => rfl
  | cons e rest ih =>
    simp only [tagAll]
    split <;> simp [ih, bare_tag]

theorem HopGraph.map_bare_mapEntries (g : HopGraph) {f : HopEntry → HopEntry}
    (hf : ∀ e, bare (f e) = bare e) : (g.mapEntries f).entries.map bare = g.entries.map bare := by
  simp [mapEntries, hf]

namespace Variant

theorem bare_nameEntry (t : Topology) (e : HopEntry) (v : Variant) :
    bare (nameEntry t e v) = bare e := by
  cases v <;>
    simp [nameEntry, HopEntry.bare_nameLocators, MacChaining.bare_nameLink]

theorem map_bare_nameLocators (v : Variant) (t : Topology) (g : HopGraph) :
    (v.nameLocators t g).entries.map bare = g.entries.map bare :=
  g.map_bare_mapEntries fun e => v.bare_nameEntry t e

theorem resolveLocators_bare (v : Variant) (t : Topology) (p : Placements) (pool : VlanPool)
    (path : PathId) (g : HopGraph) :
    (v.resolveLocators t p pool path g).1.entries.map bare = g.entries.map bare ∧
      (v.resolveLocators t p pool path g).1.pathId = g.pathId := by
  have hresolve := g.map_bare_mapEntries (HopEntry.bare_resolveLocators t)
  cases v with
  | logicalForwarder =>
    exact ⟨g.map_bare_mapEntries (LogicalForwarder.bare_resolveTunnel p), rfl⟩
  | vlan =>
    simp only [resolveLocators, Vlan.leaseHopIds]
    split
    · exact ⟨hresolve, rfl⟩
    · exact ⟨(Vlan.map_bare_tagAll _ _).trans hresolve, rfl⟩
  | nshTunnel | nshEthernet | mpls | macChaining => exact ⟨hresolve, rfl⟩

end Variant

theorem HopGraph.isLogical_eq (g : HopGraph) :
    g.isLogical = (g.entries.map bare).any fun e =>
      e.dstPlacement.isSome || e.srcPlacement.isSome := by
  simp [isLogical, bare, List.any_map, Function.comp_def]

namespace HopGraph

theorem map_bare_chain (path : ServicePath) (egress : ServiceIndex) (origin : Departure)
    (hops : List (Hop × Option Placement)) :
    (chain path egress origin hops).map bare = chain path egress origin hops := by
  induction hops generalizing origin with
  | nil => rfl
  | cons hop rest ih => simp [chain, ih, bare, entryTo]

end HopGraph

/-- The plan is one for this path: its entries are the chain of the path's hops, and the transport
is the path's. -/
structure Plan.Carries (p : Plan) (d : Deployment) (path : ServicePath) : Prop where
  checked : HopGraph.checkHops path = .ok ()
  placed : ∀ hop ∈ path.hops, HopGraph.placementOf d.topology d.placements hop.serviceFunction =
    .ok (d.placementFor hop)
  pathId : p.graph.pathId = path.id
  entries : p.graph.entries.map bare = HopGraph.chainOf d path
  variant : Variant.forPath? path p.graph = some p.variant

namespace Plan

theorem make_ok {d : Deployment} {pool after : VlanPool} {path : ServicePath} {p : Plan}
    (h : make d pool path = (.ok p, after)) : p.Carries d path := by
  simp only [make] at h
  split at h
  · cases h
  · next g hbuild =>
    obtain ⟨hchecked, rfl, hplaced⟩ := HopGraph.build_ok hbuild
    split at h
    · cases h
    · next v hvariant =>
      obtain ⟨hbare, hid⟩ := v.resolveLocators_bare d.topology d.placements pool path.id
        (v.nameLocators d.topology ⟨path.id, HopGraph.chainOf d path⟩)
      simp only [Prod.mk.injEq, Except.ok.injEq] at h
      obtain ⟨rfl, _⟩ := h
      have hentries := hbare.trans (v.map_bare_nameLocators d.topology _)
      refine ⟨hchecked, hplaced, hid, hentries.trans (HopGraph.map_bare_chain _ _ _ _), ?_⟩
      rw [← hvariant]
      simp only [Variant.forPath?, HopGraph.isLogical_eq, hentries]

theorem make_error {d : Deployment} {pool after : VlanPool} {path : ServicePath} {e : RenderError}
    (h : make d pool path = (.error e, after)) (fault : SinkFault) : e ≠ .flowSink fault := by
  simp only [make] at h
  split at h
  · next hbuild =>
    cases h
    rcases HopGraph.build_error hbuild with ⟨defect, rfl⟩ | ⟨function, several, rfl⟩ <;> simp
  · split at h
    · cases h; simp
    · cases h

end Plan
end ServiceChain
