import ServiceChain.Proofs.Reached
import ServiceChain.Proofs.VlanLeases

/-! Deleting a path. Its versions go, the versions of all others stay in their order, the switches
where it held a flow alone lose their mark, and its leases are given back. -/
namespace ServiceChain

theorem SharedFlow.WellFormed.isHeldBy_iff {s : SharedFlow} (h : s.WellFormed)
    (owner : FlowOwner) : s.isHeldBy owner = true ↔ s.versions.map (·.owner) = [owner] := by
  simp only [isHeldBy, Bool.and_eq_true, List.any_eq_true, List.all_eq_true, decide_eq_true_eq]
  constructor
  · rintro ⟨⟨f, hf, -⟩, hall⟩
    have howners : s.versions.map (·.owner) = List.replicate s.versions.length owner := by
      refine List.eq_replicate_iff.mpr ⟨List.length_map _, fun other hother => ?_⟩
      obtain ⟨g, hg, rfl⟩ := List.mem_map.mp hother
      exact hall g hg
    have hle : s.versions.length ≤ 1 := by
      have hnodup := h.owners_nodup
      rwa [howners, List.nodup_replicate] at hnodup
    have hlt : 0 < s.versions.length := List.length_pos_of_mem hf
    rw [howners, show s.versions.length = 1 by omega]
    rfl
  · intro howners
    obtain ⟨f, hversions, rfl⟩ := List.map_eq_singleton_iff.mp howners
    simp [hversions]

namespace FlowStore

/-- The switches that lose a flow are those with a key that only the owner has a version of. -/
theorem WellFormed.mem_switchesHeldBy {store : FlowStore} (h : store.WellFormed)
    (owner : FlowOwner) (switch : SwitchId) :
    switch ∈ store.switchesHeldBy owner ↔
      ∃ key : FlowKey, key.switch = switch ∧ store.owners key = [owner] := by
  simp only [switchesHeldBy, Ordered.mem_ofList, List.mem_map, List.mem_filter]
  constructor
  · rintro ⟨s, ⟨hs, hheld⟩, rfl⟩
    refine ⟨s.key, rfl, ?_⟩
    rw [owners, h.versions_of_mem hs]
    exact ((h.slots s hs).isHeldBy_iff owner).mp hheld
  · rintro ⟨key, rfl, howners⟩
    obtain ⟨s, hs, rfl, -⟩ := exists_of_mem_owners (howners ▸ List.mem_singleton_self owner)
    rw [owners, h.versions_of_mem hs] at howners
    exact ⟨s, ⟨hs, ((h.slots s hs).isHeldBy_iff owner).mpr howners⟩, rfl⟩

def Lacks (store : FlowStore) (owner : FlowOwner) : Prop :=
  ∀ s ∈ store.shared, ∀ f ∈ s.versions, f.owner ≠ owner

theorem lacks_deleteOwner (store : FlowStore) (owner : FlowOwner) :
    (store.deleteOwner owner).Lacks owner := by
  intro s hs f hf
  obtain ⟨t, -, rfl⟩ := List.mem_map.mp hs
  simpa using (List.mem_filter.mp hf).2

namespace Lacks

variable {store : FlowStore} {owner : FlowOwner}

theorem isHeldBy_eq_false (h : store.Lacks owner) {s : SharedFlow} (hs : s ∈ store.shared) :
    s.isHeldBy owner = false := by
  have hnone : s.versions.any (·.owner = owner) = false := by
    simpa using h s hs
  simp [SharedFlow.isHeldBy, hnone]

theorem deleteOwner_eq (h : store.Lacks owner) : store.deleteOwner owner = store := by
  have hslots : store.shared.filter (!·.isHeldBy owner) = store.shared := by
    refine List.filter_eq_self.mpr fun s hs => ?_
    simp [h.isHeldBy_eq_false hs]
  have hdrop : store.shared.map (·.drop owner) = store.shared := by
    refine (List.map_congr_left fun s hs => ?_).trans (List.map_id _)
    have hkept : s.versions.filter (·.owner ≠ owner) = s.versions :=
      List.filter_eq_self.mpr (by simpa using h s hs)
    simp only [SharedFlow.drop, hkept, id]
  simp only [deleteOwner, hslots, hdrop]

theorem switchesHeldBy_eq (h : store.Lacks owner) : store.switchesHeldBy owner = [] := by
  have hnone : store.shared.filter (·.isHeldBy owner) = [] := by
    refine List.filter_eq_nil_iff.mpr fun s hs => ?_
    simp [h.isHeldBy_eq_false hs]
  rw [switchesHeldBy, hnone]
  rfl

end Lacks
end FlowStore

namespace Renderer

theorem delete_of_fault {r : Renderer} {fault : SinkFault} (h : r.sink.fault = some fault)
    (path : ServicePath) :
    (r.delete path).result = .error (.flowSink fault) ∧ (r.delete path).renderer = r := by
  simp [delete, FlowDestination.deletePath, FlowSink.deletePath, h]

theorem delete_of_no_fault {r : Renderer} (h : r.sink.fault = none) (path : ServicePath) :
    (r.delete path).result = .ok (r.sink.store.switchesHeldBy (.path path.id)) ∧
      (r.delete path).renderer =
        { r with
          sink := { r.sink with store := r.sink.store.deleteOwner (.path path.id) }
          initialized :=
            Ordered.without r.initialized (r.sink.store.switchesHeldBy (.path path.id))
          stats := r.stats.addDelete
          pool := r.pool.release path.id } := by
  simp [delete, FlowDestination.deletePath, FlowSink.deletePath, h]

theorem delete_again {r : Renderer} (h : r.sink.fault = none) {path again : ServicePath}
    (hid : again.id = path.id) :
    ((r.delete path).renderer.delete again).result = .ok [] ∧
      ((r.delete path).renderer.delete again).renderer =
        { (r.delete path).renderer with stats := (r.delete path).renderer.stats.addDelete } := by
  obtain ⟨-, hfirst⟩ := delete_of_no_fault h path
  have hfault : (r.delete path).renderer.sink.fault = none := by rw [hfirst]; exact h
  have hlacks : (r.delete path).renderer.sink.store.Lacks (.path again.id) := by
    rw [hfirst, hid]
    exact FlowStore.lacks_deleteOwner r.sink.store (.path path.id)
  have hpool : (r.delete path).renderer.pool.release again.id = (r.delete path).renderer.pool := by
    rw [hfirst, hid]
    exact r.pool.release_release path.id
  obtain ⟨hresult, hstate⟩ := delete_of_no_fault hfault again
  rw [hlacks.switchesHeldBy_eq] at hresult hstate
  rw [hlacks.deleteOwner_eq, hpool] at hstate
  refine ⟨hresult, hstate.trans ?_⟩
  simp [Ordered.without]

variable {d : Deployment}

/-- A deletion removes one path. It answers the switches with a key that the path alone had a
version of; takes its versions from every key and leaves the others in order, so that the latest of
them is installed; unmarks the switches it answers; and gives back the path's ids and no others. To
delete the path again changes nothing, and neither does a deletion that the sink refuses. -/
theorem Reached.delete_removes_one_path {log : List Reply} {r : Renderer}
    (h : Reached d ({} : FlowSink) log r) (path : ServicePath) :
    (∀ fault, r.sink.fault = some fault →
      (r.delete path).result = .error (.flowSink fault) ∧ (r.delete path).renderer = r) ∧
    (r.sink.fault = none →
      ∃ switches, (r.delete path).result = .ok switches ∧
        (∀ switch, switch ∈ switches ↔
          ∃ key : FlowKey, key.switch = switch ∧ r.sink.store.owners key = [.path path.id]) ∧
        (∀ key, (r.delete path).renderer.sink.store.versions key =
          (r.sink.store.versions key).filter (·.owner ≠ .path path.id)) ∧
        (∀ flow, flow ∈ (r.delete path).renderer.sink.store.flows ↔
          ((r.sink.store.versions flow.key).filter (·.owner ≠ .path path.id)).getLast? =
            some flow) ∧
        (∀ switch, switch ∈ (r.delete path).renderer.initialized ↔
          switch ∈ r.initialized ∧ switch ∉ switches) ∧
        (r.delete path).renderer.pool.held path.id = [] ∧
        (∀ other, other ≠ path.id →
          (r.delete path).renderer.pool.held other = r.pool.held other) ∧
        ∀ again : ServicePath, again.id = path.id →
          ((r.delete path).renderer.delete again).result = .ok [] ∧
          ((r.delete path).renderer.delete again).renderer.sink =
            (r.delete path).renderer.sink ∧
          ((r.delete path).renderer.delete again).renderer.initialized =
            (r.delete path).renderer.initialized ∧
          ((r.delete path).renderer.delete again).renderer.pool =
            (r.delete path).renderer.pool) := by
  refine ⟨fun fault hfault => delete_of_fault hfault path, fun hfault => ?_⟩
  have hformed : r.sink.store.WellFormed := h.store_wellFormed
  have hversions := hformed.versions_deleteOwner (.path path.id)
  obtain ⟨hresult, hstate⟩ := delete_of_no_fault hfault path
  refine ⟨_, hresult, hformed.mem_switchesHeldBy _, ?_⟩
  have hsecond (again : ServicePath) (hid : again.id = path.id) := delete_again hfault hid
  rw [hstate] at hsecond ⊢
  refine ⟨hversions, fun flow => ?_, fun switch => Ordered.mem_without,
    VlanPool.held_release r.pool path.id, fun other => VlanPool.held_release_of_ne,
    fun again hid => ?_⟩
  · rw [(hformed.deleteOwner _).mem_flows, hversions]
  · obtain ⟨hnothing, hsame⟩ := hsecond again hid
    exact ⟨hnothing, congrArg (·.sink) hsame, congrArg (·.initialized) hsame,
      congrArg (·.pool) hsame⟩

def labelDeployment : Deployment where
  topology :=
    { forwarders :=
        [⟨"near", some "openflow:30",
            [⟨"edge", .mpls { number := 500 }, some 31, some ⟨2, 0, 0, 0, 10, 0⟩, none⟩],
            [⟨"firewall", "inside", none, some 32, none⟩], none, none, none⟩]
      serviceFunctions :=
        [⟨"firewall", "firewall",
            [⟨"inside", .mac ⟨0, 0, 0, 0, 241, 1⟩ (VlanId.ofNat? 10)⟩], false⟩] }

def labelPath (id : PathId) : ServicePath where
  name := "label"
  id := id
  hops := [⟨"near", "firewall", none, 255⟩]
  transport := .mpls
  encapsulation := .transparent
  startingIndex := 255
  direction := .forward

def labelsRendered : Renderer :=
  (((fresh labelDeployment).render labelDeployment (labelPath 21)).renderer.render labelDeployment
    (labelPath 22)).renderer

def labelKey : FlowKey :=
  ⟨"openflow:30", 2, Priority.pathMapper, FlowMatch.any.withMplsLabel { number := 500 }⟩

/-- When the second path is deleted, the first has the shared flows to itself, and the switch, where
the second had flows of its own, is unmarked. -/
theorem delete_second_label :
    labelsRendered.sink.store.owners labelKey = [.path 21, .path 22] ∧
      (labelsRendered.delete (labelPath 22)).renderer.sink.store.owners labelKey = [.path 21] ∧
      "openflow:30" ∈ labelsRendered.initialized ∧
      "openflow:30" ∉ (labelsRendered.delete (labelPath 22)).renderer.initialized := by
  have hreached : Reached labelDeployment ({} : FlowSink) _ labelsRendered :=
    (Reached.start.render (labelPath 21)).render (labelPath 22)
  obtain ⟨-, hdelete⟩ := hreached.delete_removes_one_path (labelPath 22)
  obtain ⟨switches, -, halone, hversions, -, hinitialized, -⟩ := hdelete (by decide +kernel)
  have hreset : "openflow:30" ∈ switches := by
    refine (halone "openflow:30").mpr
      ⟨⟨"openflow:30", 4, Priority.nextHopAnySource, { metadata := some 22 }⟩, rfl, ?_⟩
    decide +kernel
  refine ⟨by decide +kernel, ?_, by decide +kernel, ?_⟩
  · rw [FlowStore.owners, hversions]
    decide +kernel
  · exact fun hmem => ((hinitialized _).mp hmem).2 hreset

end Renderer
end ServiceChain
