import ServiceChain.Proofs.Reached
import ServiceChain.Proofs.VlanLeases

/-! VLAN ids on the hops of paths. A render leases ids for the hops that name none, keeps them if it
is taken and gives them back if it fails; a deletion gives back all that a path holds. So an id that
was put on a hop stays with the path, and no other path is given it. -/
namespace ServiceChain

namespace Vlan

theorem vlan?_tag {e : HopEntry} (h : lacksVlan e = true) (id : Option VlanId) :
    (tag id e).hopIngress.bind (·.vlan?) = id := by
  unfold lacksVlan at h
  split at h
  · next name address port mac hingress => simp [tag, hingress, BoundLocator.vlan?, Locator.vlan?]
  · cases h

def rank (entries : List HopEntry) (i : Nat) : Nat := (entries.take i).countP lacksVlan

theorem rank_lt_count {entries : List HopEntry} {i : Nat} {e : HopEntry}
    (hentry : entries[i]? = some e) (hlacks : lacksVlan e = true) :
    rank entries i < entries.countP lacksVlan := by
  induction entries generalizing i with
  | nil => simp at hentry
  | cons first rest ih =>
    cases i with
    | zero =>
      obtain rfl : first = e := by simpa using hentry
      simp [rank, hlacks]
    | succ i =>
      have ih := ih (by simpa using hentry)
      simp only [rank, List.take_succ_cons, List.countP_cons] at ih ⊢
      omega

theorem rank_lt_rank {entries : List HopEntry} {i j : Nat} {e : HopEntry}
    (hentry : entries[i]? = some e) (hlacks : lacksVlan e = true) (hlt : i < j) :
    rank entries i < rank entries j := by
  have hbefore : (entries.take j).take i = entries.take i := by
    rw [List.take_take, Nat.min_eq_left (Nat.le_of_lt hlt)]
  have htaken : (entries.take j)[i]? = some e := by
    rw [List.getElem?_take_of_lt hlt, hentry]
  have h := rank_lt_count htaken hlacks
  rwa [rank, hbefore] at h

/-- Each entry that lacks an id gets that of its place in the line. -/
theorem tagAll_getElem? (ids : List (Option VlanId)) (entries : List HopEntry) (i : Nat) :
    (tagAll ids entries)[i]? = entries[i]?.map fun e =>
      if lacksVlan e then tag ids[rank entries i]?.join e else e := by
  induction entries generalizing ids i with
  | nil => simp [tagAll]
  | cons first rest ih =>
    cases i with
    | zero =>
      cases hlacks : lacksVlan first <;>
        simp [tagAll, hlacks, rank, List.head?_eq_getElem?]
    | succ i =>
      cases hlacks : lacksVlan first <;>
        simp [tagAll, hlacks, rank, ih, List.take_succ_cons]

theorem pool_leaseHopIds (pool : VlanPool) (path : PathId) (g : HopGraph) :
    (leaseHopIds pool path g).2 =
      if g.entries.countP lacksVlan = 0 then pool
      else (pool.lease path (g.entries.countP lacksVlan)).2 := by
  by_cases hneeded : g.entries.countP lacksVlan = 0 <;> simp [leaseHopIds, hneeded]

end Vlan

/-- The entries of a path carried by VLAN tags as they are before the pool is asked; none of
another path. -/
def Deployment.untagged (d : Deployment) (path : ServicePath) : List HopEntry :=
  match HopGraph.build d.topology d.placements path with
  | .error _ => []
  | .ok g =>
    if Variant.forPath? path g = some .vlan then
      ((Variant.vlan.nameLocators d.topology g).mapEntries (·.resolveLocators d.topology)).entries
    else []

def Deployment.vlansNeeded (d : Deployment) (path : ServicePath) : Nat :=
  (d.untagged path).countP Vlan.lacksVlan

namespace Plan

theorem make_leases (d : Deployment) (pool : VlanPool) (path : ServicePath) :
    d.untagged path = [] ∧ (make d pool path).2 = pool ∨
      make d pool path =
        (.ok ⟨(Vlan.leaseHopIds pool path.id ⟨path.id, d.untagged path⟩).1, .vlan⟩,
          (Vlan.leaseHopIds pool path.id ⟨path.id, d.untagged path⟩).2) := by
  cases hbuild : HopGraph.build d.topology d.placements path with
  | error e => exact Or.inl (by simp [Deployment.untagged, make, hbuild])
  | ok g =>
    cases hvariant : Variant.forPath? path g with
    | none => exact Or.inl (by simp [Deployment.untagged, make, hbuild, hvariant])
    | some v =>
      cases v with
      | vlan =>
        obtain ⟨-, rfl, -⟩ := HopGraph.build_ok hbuild
        refine Or.inr ?_
        simp only [Deployment.untagged, make, hbuild, hvariant, if_true]
        rfl
      | nshTunnel | nshEthernet | mpls | macChaining | logicalForwarder =>
        exact Or.inl (by
          simp [Deployment.untagged, make, hbuild, hvariant, Variant.resolveLocators])

theorem make_pool (d : Deployment) (pool : VlanPool) (path : ServicePath) :
    (make d pool path).2 =
      if d.vlansNeeded path = 0 then pool else (pool.lease path.id (d.vlansNeeded path)).2 := by
  rcases make_leases d pool path with ⟨hnone, hpool⟩ | hmake
  · simp [Deployment.vlansNeeded, hnone, hpool]
  · rw [hmake]
    exact Vlan.pool_leaseHopIds pool path.id ⟨path.id, d.untagged path⟩

theorem make_lease {d : Deployment} {pool after : VlanPool} {path : ServicePath} {count : Nat}
    {ids : List (Option VlanId)} (hneeded : d.vlansNeeded path = count + 1)
    (hlease : pool.lease path.id (count + 1) = (ids, after)) :
    make d pool path = (.ok ⟨⟨path.id, Vlan.tagAll ids (d.untagged path)⟩, .vlan⟩, after) := by
  rcases make_leases d pool path with ⟨hnone, -⟩ | hmake
  · simp [Deployment.vlansNeeded, hnone] at hneeded
  · rw [Deployment.vlansNeeded] at hneeded
    rw [hmake]
    simp only [Vlan.leaseHopIds, hneeded, hlease]
    rfl

section Pool

variable {d : Deployment} {pool : VlanPool} {path : ServicePath}

theorem held_make :
    (make d pool path).2.held path.id = pool.held path.id ++
      pool.free.take (d.vlansNeeded path - (pool.held path.id).length) := by
  rw [make_pool]
  split
  · next hnone => simp [hnone]
  · exact pool.held_lease path.id _

theorem held_make_of_ne {other : PathId} (h : path.id ≠ other) :
    (make d pool path).2.held other = pool.held other := by
  rw [make_pool]
  split
  · rfl
  · exact VlanPool.held_lease_of_ne _ h

theorem range_make : (make d pool path).2.range = pool.range := by
  rw [make_pool]
  split <;> rfl

theorem wellFormed_make (h : pool.WellFormed) : (make d pool path).2.WellFormed := by
  rw [make_pool]
  split
  · exact h
  · exact h.lease path.id _

theorem settledBut_make (h : pool.Settled) : (make d pool path).2.SettledBut path.id := by
  rw [make_pool]
  split
  · exact h.but path.id
  · exact h.lease path.id _

end Pool

/-- An entry that names no VLAN carries the id at its place among those that the path holds then; if
they end before, it stays without one. -/
theorem vlan?_entry {d : Deployment} {path : ServicePath} {hop : Nat} {e : HopEntry}
    (pool : VlanPool) (hentry : (d.untagged path)[hop]? = some e)
    (hlacks : Vlan.lacksVlan e = true) :
    ∃ p tagged, (make d pool path).1 = .ok p ∧ p.graph.entries[hop]? = some tagged ∧
      tagged.hopIngress.bind (·.vlan?) =
        ((make d pool path).2.held path.id)[Vlan.rank (d.untagged path) hop]? := by
  have hrank : Vlan.rank (d.untagged path) hop < d.vlansNeeded path :=
    Vlan.rank_lt_count hentry hlacks
  obtain ⟨count, hneeded⟩ := Nat.exists_eq_add_one_of_ne_zero (Nat.ne_zero_of_lt hrank)
  have htagged := Vlan.tagAll_getElem? (pool.lease path.id (count + 1)).1 (d.untagged path) hop
  rw [hentry, Option.map_some, hlacks, if_pos rfl] at htagged
  rw [make_lease hneeded (Prod.eta (pool.lease path.id (count + 1))).symm]
  refine ⟨_, _, rfl, htagged, ?_⟩
  rw [Vlan.vlan?_tag hlacks, VlanPool.slots_held_lease, VlanPool.slots_getElem? (hneeded ▸ hrank)]
  rfl

/-- The plan of a path puts an id from the pool on an entry that names none. -/
def Assigns (d : Deployment) (pool : VlanPool) (path : ServicePath) (hop : Nat) (id : VlanId) :
    Prop :=
  ∃ e p tagged, (d.untagged path)[hop]? = some e ∧ Vlan.lacksVlan e = true ∧
    (make d pool path).1 = .ok p ∧ p.graph.entries[hop]? = some tagged ∧
    tagged.hopIngress.bind (·.vlan?) = some id

namespace Assigns

variable {d : Deployment} {pool : VlanPool} {path : ServicePath} {hop : Nat} {id : VlanId}

theorem of_held (hlacks : (d.untagged path)[hop]?.any Vlan.lacksVlan = true)
    (hheld : ((make d pool path).2.held path.id)[Vlan.rank (d.untagged path) hop]? = some id) :
    Assigns d pool path hop id := by
  obtain ⟨e, hentry, hlacks⟩ := Option.any_eq_true _ _ |>.mp hlacks
  obtain ⟨p, tagged, hplan, htagged, hvlan⟩ := vlan?_entry pool hentry hlacks
  exact ⟨e, p, tagged, hentry, hlacks, hplan, htagged, hvlan.trans hheld⟩

theorem held_getElem? (h : Assigns d pool path hop id) :
    ((make d pool path).2.held path.id)[Vlan.rank (d.untagged path) hop]? = some id := by
  obtain ⟨e, p, tagged, hentry, hlacks, hplan, htagged, hvlan⟩ := h
  obtain ⟨q, other, hplan', hother, hheld⟩ := vlan?_entry pool hentry hlacks
  obtain rfl := Except.ok.inj (hplan.symm.trans hplan')
  obtain rfl := Option.some.inj (htagged.symm.trans hother)
  exact hheld.symm.trans hvlan

theorem mem_held (h : Assigns d pool path hop id) : id ∈ (make d pool path).2.held path.id :=
  List.mem_of_getElem? h.held_getElem?

theorem hop_eq (h : Assigns d pool path hop id) {other : Nat}
    (hother : Assigns d pool path other id) (hpool : pool.WellFormed) : hop = other := by
  have hnodup : ((make d pool path).2.held path.id).Nodup :=
    (wellFormed_make hpool).held_nodup path.id
  have hsame : Vlan.rank (d.untagged path) hop = Vlan.rank (d.untagged path) other := by
    obtain ⟨hlt, -⟩ := List.getElem?_eq_some_iff.mp h.held_getElem?
    exact (List.getElem?_inj hlt hnodup).mp (h.held_getElem?.trans hother.held_getElem?.symm)
  -- of two entries that lack an id the first has the earlier place in the line
  obtain ⟨e, -, -, hentry, hlacks, -⟩ := h
  obtain ⟨e', -, -, hentry', hlacks', -⟩ := hother
  rcases Nat.lt_trichotomy hop other with hlt | heq | hlt
  · exact absurd hsame (Nat.ne_of_lt (Vlan.rank_lt_rank hentry hlacks hlt))
  · exact heq
  · exact absurd hsame.symm (Nat.ne_of_lt (Vlan.rank_lt_rank hentry' hlacks' hlt))

end Assigns
end Plan

namespace Renderer

variable {σ : Type} {d : Deployment}

/-- The pool between two calls: well formed, every lease committed, of the configured range. -/
structure PoolAtRest (d : Deployment) (r : Renderer σ) : Prop where
  wellFormed : r.pool.WellFormed
  settled : r.pool.Settled
  range : r.pool.range = d.config.vlanRange

variable [FlowDestination σ]

theorem pool_attempt (r : Renderer σ) (path : ServicePath) :
    (r.attempt d path).renderer.pool = (Plan.make d r.pool path).2 := by
  have hcases := attempt_cases d r path
  generalize r.attempt d path = o at hcases ⊢
  cases hcases with
  | unplanned hplan => rw [hplan]
  | unlocated hplan hmake => rw [hplan]
  | refused hplan hmake hflush => rw [hplan]
  | taken hplan hmake hflush => rw [hplan]

section Calls

variable {r : Renderer σ} {path : ServicePath}

theorem pool_render_ok {report : RenderReport} (h : (r.render d path).result = .ok report) :
    (r.render d path).renderer.pool = (Plan.make d r.pool path).2.commit path.id := by
  rw [result_render] at h
  have hpool := pool_attempt (d := d) (r.markInFlight path.id) path
  simp only [render, settle, h]
  exact congrArg (·.commit path.id) hpool

theorem pool_render_error {e : RenderError} (h : (r.render d path).result = .error e) :
    (r.render d path).renderer.pool = (Plan.make d r.pool path).2.abandon path.id := by
  rw [result_render] at h
  have hpool := pool_attempt (d := d) (r.markInFlight path.id) path
  simp only [render, settle, h]
  exact congrArg (·.abandon path.id) hpool

theorem pool_delete_ok {switches : List SwitchId} (h : (r.delete path).result = .ok switches) :
    (r.delete path).renderer.pool = r.pool.release path.id := by
  simp only [delete] at h ⊢
  split at h
  · cases h
  · rfl

theorem held_render_of_ne {other : PathId} (h : path.id ≠ other) :
    (r.render d path).renderer.pool.held other = r.pool.held other := by
  cases hresult : (r.render d path).result with
  | ok report =>
    rw [pool_render_ok hresult, VlanPool.held_commit, Plan.held_make_of_ne h]
  | error e =>
    rw [pool_render_error hresult, VlanPool.held_abandon_of_ne h.symm, Plan.held_make_of_ne h]

theorem held_render_ok {report : RenderReport} (h : (r.render d path).result = .ok report) :
    (r.render d path).renderer.pool.held path.id = r.pool.held path.id ++
      r.pool.free.take (d.vlansNeeded path - (r.pool.held path.id).length) := by
  rw [pool_render_ok h, VlanPool.held_commit, Plan.held_make]

theorem held_delete {other : PathId}
    (hkept : path.id = other → ∀ switches, (r.delete path).result ≠ .ok switches) :
    (r.delete path).renderer.pool.held other = r.pool.held other := by
  cases hresult : (r.delete path).result with
  | ok switches =>
    rw [pool_delete_ok hresult]
    exact VlanPool.held_release_of_ne fun hother => hkept hother.symm switches hresult
  | error e => rw [delete_error hresult]

end Calls

namespace PoolAtRest

variable {r : Renderer σ}

theorem render (h : PoolAtRest d r) (path : ServicePath) :
    PoolAtRest d (r.render d path).renderer := by
  have hplanned : (Plan.make d r.pool path).2.WellFormed := Plan.wellFormed_make h.wellFormed
  have hopen : (Plan.make d r.pool path).2.SettledBut path.id := Plan.settledBut_make h.settled
  have hrange : (Plan.make d r.pool path).2.range = d.config.vlanRange :=
    Plan.range_make.trans h.range
  cases hresult : (r.render d path).result with
  | ok report =>
    have hpool := pool_render_ok hresult
    exact ⟨hpool ▸ hplanned.commit path.id, hpool ▸ hopen.commit, hpool ▸ hrange⟩
  | error e =>
    have hpool := pool_render_error hresult
    exact ⟨hpool ▸ hplanned.abandon path.id, hpool ▸ hopen.abandon, hpool ▸ hrange⟩

theorem delete (h : PoolAtRest d r) (path : ServicePath) :
    PoolAtRest d (r.delete path).renderer := by
  cases hresult : (r.delete path).result with
  | ok switches =>
    have hpool := pool_delete_ok hresult
    exact ⟨hpool ▸ h.wellFormed.release path.id, hpool ▸ h.settled.release path.id,
      hpool ▸ h.range⟩
  | error e => exact (delete_error hresult).symm ▸ h

/-- A failed render gives its lease back only if it is the first of its path: a path that had a
lease keeps the fresh ids too. -/
theorem held_render_error (h : PoolAtRest d r) {path : ServicePath} {e : RenderError}
    (he : (r.render d path).result = .error e) :
    (r.render d path).renderer.pool.held path.id = r.pool.held path.id ++
      if (r.pool.lease? path.id).isSome then
        r.pool.free.take (d.vlansNeeded path - (r.pool.held path.id).length)
      else [] := by
  rw [pool_render_error he, Plan.make_pool]
  split
  · next hnone => simp [h.settled.abandon_eq, hnone]
  · exact VlanPool.held_abandon_lease h.wellFormed h.settled path.id _

theorem held_subset_render (h : PoolAtRest d r) (path : ServicePath) (other : PathId) :
    r.pool.held other ⊆ (r.render d path).renderer.pool.held other := by
  intro id hid
  by_cases hother : path.id = other
  · subst hother
    cases hresult : (r.render d path).result with
    | ok report => exact held_render_ok hresult ▸ List.mem_append_left _ hid
    | error e => exact h.held_render_error hresult ▸ List.mem_append_left _ hid
  · rwa [held_render_of_ne hother]

end PoolAtRest

theorem Reached.poolAtRest {sink : σ} {log : List Reply} {r : Renderer σ}
    (h : Reached d sink log r) : PoolAtRest d r := by
  induction h with
  | start =>
    refine ⟨VlanPool.wellFormed_empty d.config.vlanRange, fun lease hlease => ?_, rfl⟩
    simp [Renderer.start] at hlease
  | render _ path ih => exact ih.render path
  | delete _ path ih => exact ih.delete path
  | disturb _ _ ih => exact ⟨ih.wellFormed, ih.settled, ih.range⟩

/-- On the way to this state a render of the path was taken in which the pool put the id on a hop,
and the path was not deleted since. -/
inductive Granted (d : Deployment) (sink : σ) (id : PathId) (vlan : VlanId) :
    List Reply → Renderer σ → Prop
  | taken {log : List Reply} {r : Renderer σ} (h : Reached d sink log r) {path : ServicePath}
      {report : RenderReport} {hop : Nat} (hpath : path.id = id)
      (hresult : (r.render d path).result = .ok report)
      (hassigns : Plan.Assigns d r.pool path hop vlan) :
      Granted d sink id vlan
        (log ++ [.render path (r.render d path).result (r.render d path).trace])
        (r.render d path).renderer
  | render {log : List Reply} {r : Renderer σ} (h : Granted d sink id vlan log r)
      (path : ServicePath) :
      Granted d sink id vlan
        (log ++ [.render path (r.render d path).result (r.render d path).trace])
        (r.render d path).renderer
  | delete {log : List Reply} {r : Renderer σ} (h : Granted d sink id vlan log r)
      (path : ServicePath)
      (hkept : path.id = id → ∀ switches, (r.delete path).result ≠ .ok switches) :
      Granted d sink id vlan
        (log ++ [.delete path (r.delete path).result (r.delete path).trace])
        (r.delete path).renderer
  | disturb {log : List Reply} {r : Renderer σ} (h : Granted d sink id vlan log r)
      (disturbance : FlowDestination.Disturbance σ) :
      Granted d sink id vlan log { r with sink := FlowDestination.disturb disturbance r.sink }

namespace Granted

variable {sink : σ} {id : PathId} {vlan : VlanId} {log : List Reply} {r : Renderer σ}

theorem reached (h : Granted d sink id vlan log r) : Reached d sink log r := by
  induction h with
  | taken h => exact h.render _
  | render _ path ih => exact ih.render path
  | delete _ path _ ih => exact ih.delete path
  | disturb _ disturbance ih => exact ih.disturb disturbance

/-- An id once put on a hop stays with the path. -/
theorem mem_held (h : Granted d sink id vlan log r) : vlan ∈ r.pool.held id := by
  induction h with
  | taken h hpath hresult hassigns =>
    subst hpath
    rw [pool_render_ok hresult, VlanPool.held_commit]
    exact hassigns.mem_held
  | render h path ih => exact h.reached.poolAtRest.held_subset_render path id ih
  | delete h path hkept ih => rwa [held_delete hkept]
  | disturb _ _ ih => exact ih

end Granted

/-- Hop VLANs of live paths never collide. In every state the ids of two paths are disjoint, no
path holds one twice, and all are valid ids of the configured range; an id that the pool put on a
hop stays with the path until it is deleted; and a render that is taken puts no id on two hops. -/
theorem Reached.hop_vlans_apart {sink : σ} {log : List Reply} {r : Renderer σ}
    (h : Reached d sink log r) :
    (∀ path other, path ≠ other → List.Disjoint (r.pool.held path) (r.pool.held other)) ∧
      (∀ path, (r.pool.held path).Nodup) ∧
      (∀ path, ∀ vlan ∈ r.pool.held path,
        (d.config.vlanRange.first.toNat ≤ vlan.number ∧
          vlan.number ≤ d.config.vlanRange.last.toNat) ∧
        1 ≤ vlan.number ∧ vlan.number ≤ 4094) ∧
      (∀ path vlan, Granted d sink path vlan log r → vlan ∈ r.pool.held path) ∧
      ∀ path report, (r.render d path).result = .ok report →
        ∀ hop other vlan, Plan.Assigns d r.pool path hop vlan →
          Plan.Assigns d r.pool path other vlan → hop = other := by
  have hrest := h.poolAtRest
  refine ⟨hrest.wellFormed.held_disjoint, hrest.wellFormed.held_nodup, ?_, ?_, ?_⟩
  · intro path vlan hheld
    have hcandidate := hrest.wellFormed.held_candidate path vlan hheld
    rw [hrest.range] at hcandidate
    exact ⟨VlanPool.mem_candidates.mp hcandidate, vlan.one_le, vlan.le_max⟩
  · exact fun path vlan hgranted => hgranted.mem_held
  · intro path report _ hop other vlan hhop hother
    exact hhop.hop_eq hother hrest.wellFormed

def vlanDeployment : Deployment where
  config := { vlanRange := ⟨100, 103⟩ }
  topology :=
    { forwarders :=
        [⟨"near", some "openflow:10",
            [⟨"edge", .mac ⟨2, 0, 0, 0, 10, 0⟩ none, some 11, none, none⟩,
              ⟨"link", .mac ⟨2, 0, 0, 0, 10, 1⟩ none, some 10, none, some "far"⟩],
            [⟨"firewall", "inside", none, some 12, none⟩], none, none, none⟩,
          ⟨"far", some "openflow:20",
            [⟨"link", .mac ⟨2, 0, 0, 0, 11, 1⟩ none, some 20, none, some "near"⟩,
              ⟨"edge", .mac ⟨2, 0, 0, 0, 11, 0⟩ none, some 21, none, none⟩],
            [⟨"inspector", "inside", none, some 22, none⟩], none, none, none⟩,
          ⟨"lost", none, [⟨"link", .mac ⟨2, 0, 0, 0, 12, 1⟩ none, some 30, none, some "near"⟩],
            [⟨"inspector", "inside", none, some 32, none⟩], none, none, none⟩]
      serviceFunctions :=
        [⟨"firewall", "firewall",
            [⟨"inside", .mac ⟨0, 0, 0, 0, 241, 1⟩ (VlanId.ofNat? 10)⟩], false⟩,
          ⟨"inspector", "dpi",
            [⟨"inside", .mac ⟨0, 0, 0, 0, 242, 1⟩ (VlanId.ofNat? 20)⟩], false⟩] }

def linePath (id : PathId) : ServicePath where
  name := "line"
  id := id
  hops := [⟨"near", "firewall", none, 255⟩, ⟨"far", "inspector", none, 254⟩]
  transport := .mac
  encapsulation := .transparent
  startingIndex := 255
  direction := .forward

theorem vlansNeeded_linePath (id : PathId) : vlanDeployment.vlansNeeded (linePath id) = 2 := by
  with_unfolding_all rfl

theorem linePath_taken {r : Renderer} (hfault : r.sink.fault = none) (id : PathId) :
    ∃ report, (r.render vlanDeployment (linePath id)).result = .ok report := by
  rw [← isOk_iff, isOk_render (Plan.make_lease (vlansNeeded_linePath id) rfl) hfault]
  with_unfolding_all rfl

def lineId (i : Fin 4) : VlanId := ⟨100 + i, by omega, by omega⟩

def lineRendered : Renderer := ((fresh vlanDeployment).render vlanDeployment (linePath 3)).renderer

theorem pool_lineRendered :
    lineRendered.pool = ⟨⟨100, 103⟩, [⟨3, [lineId 0, lineId 1], true⟩]⟩ := by
  obtain ⟨report, hreport⟩ := linePath_taken (r := fresh vlanDeployment) rfl 3
  rw [lineRendered, pool_render_ok hreport, Plan.make_pool, vlansNeeded_linePath,
    if_neg (by decide), VlanPool.lease, VlanPool.free_eq]
  decide

theorem assigns_linePath :
    Plan.Assigns vlanDeployment lineRendered.pool (linePath 4) 0 (lineId 2) := by
  refine Plan.Assigns.of_held (by decide +kernel) ?_
  rw [Plan.held_make, vlansNeeded_linePath, pool_lineRendered, VlanPool.free_eq]
  decide +kernel

theorem hop_vlans_apart_lines :
    (lineRendered.render vlanDeployment (linePath 4)).renderer.pool.held 3 =
        [lineId 0, lineId 1] ∧
      lineId 2 ∈ (lineRendered.render vlanDeployment (linePath 4)).renderer.pool.held 4 ∧
      List.Disjoint ((lineRendered.render vlanDeployment (linePath 4)).renderer.pool.held 3)
        ((lineRendered.render vlanDeployment (linePath 4)).renderer.pool.held 4) := by
  have hline : Reached vlanDeployment ({} : FlowSink) _ lineRendered :=
    Reached.start.render (linePath 3)
  have hfault : lineRendered.sink.fault = none :=
    fault_render vlanDeployment (fresh vlanDeployment) (linePath 3)
  obtain ⟨report, hreport⟩ := linePath_taken hfault 4
  obtain ⟨hdisjoint, -, -, hgranted, -⟩ := (hline.render (linePath 4)).hop_vlans_apart
  refine ⟨?_, hgranted 4 _ (.taken hline rfl hreport assigns_linePath), hdisjoint 3 4 (by decide)⟩
  rw [held_render_of_ne (by decide), pool_lineRendered]
  rfl

end Renderer
end ServiceChain
