import ServiceChain.Proofs.Reached

/-! Rendering a path again. The store replaces the path's flows key by key: what the new rendering
stages under a key takes the place of the old flow, and a key that it does not stage keeps the flow
of the earlier rendering. -/
namespace ServiceChain

namespace FlowStore

def versionsOf (store : FlowStore) (owner : FlowOwner) (key : FlowKey) : List Flow :=
  (store.versions key).filter (·.owner = owner)

theorem versionsOf_eq_nil {store : FlowStore} {owner : FlowOwner} {key : FlowKey} :
    store.versionsOf owner key = [] ↔ owner ∉ store.owners key := by
  simp [versionsOf, owners, List.filter_eq_nil_iff]

theorem versionsOf_install (store : FlowStore) (flow : Flow) (owner : FlowOwner) (key : FlowKey) :
    (store.install flow).versionsOf owner key =
      if flow.owner = owner ∧ flow.key = key then [flow] else store.versionsOf owner key := by
  simp only [versionsOf, versions_install]
  by_cases hkey : flow.key = key
  · subst hkey
    by_cases howner : flow.owner = owner
    · subst howner
      simp [List.filter_filter]
    · have hothers : ((store.versions flow.key).filter (·.owner ≠ flow.owner)).filter
          (·.owner = owner) = (store.versions flow.key).filter (·.owner = owner) := by
        rw [List.filter_filter]
        refine List.filter_congr fun other _ => ?_
        by_cases hother : other.owner = owner
        · have hne : ¬ owner = flow.owner := fun e => howner e.symm
          simp [hother, hne]
        · simp [hother]
      simp only [if_true, List.filter_append, hothers, howner, false_and, if_false]
      simp [howner]
  · have hne : ¬ key = flow.key := fun e => hkey e.symm
    simp [hkey, hne]

end FlowStore

/-- The last flow of an owner under a key among some. -/
def Flow.last? (owner : FlowOwner) (key : FlowKey) (flows : List Flow) : Option Flow :=
  (flows.filter fun flow => flow.owner = owner ∧ flow.key = key).getLast?

/-- Of a batch an owner keeps the last flow of a key, and without one what it had. -/
theorem FlowStore.versionsOf_commit (store : FlowStore) (batch : List Flow) (owner : FlowOwner)
    (key : FlowKey) :
    (store.commit batch).versionsOf owner key =
      match Flow.last? owner key batch with
      | some flow => [flow]
      | none => store.versionsOf owner key := by
  induction batch using List.reverseRecOn with
  | nil => rfl
  | append_singleton rest flow ih =>
    have hcommit : store.commit (rest ++ [flow]) = (store.commit rest).install flow := by
      simp [FlowStore.commit]
    rw [hcommit, versionsOf_install]
    by_cases hflow : flow.owner = owner ∧ flow.key = key
    · simp [Flow.last?, hflow]
    · rw [if_neg hflow, ih]
      simp [Flow.last?, hflow]

namespace Renderer

variable {d : Deployment} {r : Renderer} {path : ServicePath} {report : RenderReport}

/-- After a taken render the path has, of every key, the last flow staged for it, or else the one it
had before. -/
theorem versionsOf_render (h : (r.render d path).result = .ok report) (owner : FlowOwner)
    (key : FlowKey) :
    (r.render d path).renderer.sink.store.versionsOf owner key =
      match Flow.last? owner key (r.render d path).trace.offered with
      | some flow => [flow]
      | none => r.sink.store.versionsOf owner key := by
  rcases sink_render h with ⟨hnone, hsink⟩ | hcommit
  · rw [hnone, hsink]
    rfl
  · rw [FlowSink.store_of_commit hcommit, FlowStore.versionsOf_commit]

/-- After a taken render a path has the last flow staged for it under each key, and of the keys that
were not staged the flow it had before. So its flows are those of the new rendering alone exactly if
every key that it had before is staged again. -/
theorem render_replaces_iff (d : Deployment) (r : Renderer) (path : ServicePath)
    (report : RenderReport) (h : (r.render d path).result = .ok report) :
    (∀ key, (r.render d path).renderer.sink.store.versionsOf (.path path.id) key =
      match Flow.last? (.path path.id) key (r.render d path).trace.offered with
      | some flow => [flow]
      | none => r.sink.store.versionsOf (.path path.id) key) ∧
    ((∀ key, (r.render d path).renderer.sink.store.versionsOf (.path path.id) key =
        (Flow.last? (.path path.id) key (r.render d path).trace.offered).toList) ↔
      ∀ key, .path path.id ∈ r.sink.store.owners key →
        ∃ flow ∈ (r.render d path).trace.offered,
          flow.owner = .path path.id ∧ flow.key = key) := by
  refine ⟨versionsOf_render h _, forall_congr' fun key => ?_⟩
  rw [versionsOf_render h]
  cases hlast : Flow.last? (.path path.id) key (r.render d path).trace.offered with
  | some flow =>
    have hstaged : ∃ flow ∈ (r.render d path).trace.offered,
        flow.owner = .path path.id ∧ flow.key = key := by
      obtain ⟨hflow, hsame⟩ := List.mem_filter.mp (List.mem_of_getLast? hlast)
      exact ⟨flow, hflow, of_decide_eq_true hsame⟩
    simp [hstaged]
  | none =>
    have hunstaged : ¬ ∃ flow ∈ (r.render d path).trace.offered,
        flow.owner = .path path.id ∧ flow.key = key := by
      rintro ⟨flow, hflow, hsame⟩
      have hnil := List.filter_eq_nil_iff.mp (List.getLast?_eq_none_iff.mp hlast) flow hflow
      exact hnil (decide_eq_true hsame)
    simp only [Option.toList_none, FlowStore.versionsOf_eq_nil]
    exact ⟨fun hnew hold => absurd hold hnew, fun hall hold => hunstaged (hall hold)⟩

def chainDeployment : Deployment where
  topology :=
    { forwarders :=
        [⟨"edge", some "openflow:1", [⟨"tunnel", .ip (.v4 192 0 2 1) none, some 10, none, none⟩],
            [⟨"firewall", "inside", none, some 1, none⟩], none, none, none⟩,
          ⟨"core", some "openflow:2", [⟨"tunnel", .ip (.v4 192 0 2 2) none, some 10, none, none⟩],
            [⟨"inspector", "inside", none, some 1, none⟩], none, none, none⟩]
      serviceFunctions :=
        [⟨"firewall", "firewall", [⟨"inside", .ip (.v4 10 0 0 2) none⟩], false⟩,
          ⟨"inspector", "dpi", [⟨"inside", .ip (.v4 10 0 0 3) none⟩], false⟩] }

def shortPath : ServicePath where
  name := "chain"
  id := 1
  hops := [⟨"edge", "firewall", none, 255⟩]
  transport := .vxlanGpe
  encapsulation := .nsh
  startingIndex := 255
  direction := .forward

def longPath : ServicePath :=
  { shortPath with hops := [⟨"edge", "firewall", none, 255⟩, ⟨"core", "inspector", none, 254⟩] }

def shortRendered : Renderer := ((fresh chainDeployment).render chainDeployment shortPath).renderer

def exitKey : FlowKey :=
  ⟨"openflow:1", 10, Priority.lastHopEgress, (FlowMatch.any.withNsh 1 254).withNshC1 0⟩

theorem render_short_again :
    .path 1 ∈ shortRendered.sink.store.owners exitKey ∧
      (shortRendered.render chainDeployment shortPath).renderer.sink.store.versionsOf (.path 1)
          exitKey =
        (Flow.last? (.path 1) exitKey
          (shortRendered.render chainDeployment shortPath).trace.offered).toList := by
  have hstaged : ∀ s ∈ shortRendered.sink.store.shared, .path 1 ∈ s.versions.map (·.owner) →
      ∃ flow ∈ (shortRendered.render chainDeployment shortPath).trace.offered,
        flow.owner = .path 1 ∧ flow.key = s.key := by
    decide +kernel
  obtain ⟨-, hreplaced⟩ := render_replaces_iff chainDeployment shortRendered shortPath _ rfl
  refine ⟨by decide +kernel, hreplaced.mpr (fun key hkey => ?_) exitKey⟩
  obtain ⟨s, hs, rfl, howner⟩ := FlowStore.exists_of_mem_owners hkey
  exact hstaged s hs howner

/-- Rendered again with the inspector, the path still has the flow that ends it behind the firewall,
above that which takes packets on to the inspector. -/
theorem render_keeps_old_exit :
    ¬ ∀ (d : Deployment) (log : List Reply) (r : Renderer), Reached d ({} : FlowSink) log r →
      ∀ path report, (r.render d path).result = .ok report →
        ∀ key, (r.render d path).renderer.sink.store.versionsOf (.path path.id) key =
          (Flow.last? (.path path.id) key (r.render d path).trace.offered).toList := by
  intro hreplaced
  have hshort : Reached chainDeployment ({} : FlowSink) _ shortRendered :=
    Reached.start.render shortPath
  have hexit := hreplaced chainDeployment _ shortRendered hshort longPath _ rfl exitKey
  exact absurd hexit (by decide +kernel)

theorem Reached.versionsOf_render_deleted {log : List Reply} (h : Reached d ({} : FlowSink) log r)
    {again : ServicePath} {switches : List SwitchId}
    (hdelete : (r.delete path).result = .ok switches)
    (hreport : ((r.delete path).renderer.render d again).result = .ok report) (key : FlowKey) :
    ((r.delete path).renderer.render d again).renderer.sink.store.versionsOf (.path path.id) key =
      (Flow.last? (.path path.id) key
        ((r.delete path).renderer.render d again).trace.offered).toList := by
  have hstore := FlowSink.store_of_deletePath (delete_ok hdelete).1
  have hnone : (r.delete path).renderer.sink.store.versionsOf (.path path.id) key = [] := by
    rw [FlowStore.versionsOf, hstore, h.store_wellFormed.versions_deleteOwner, List.filter_filter]
    simp
  rw [versionsOf_render hreport, hnone]
  cases Flow.last? (.path path.id) key
    ((r.delete path).renderer.render d again).trace.offered <;> rfl

end Renderer
end ServiceChain
