import Mathlib.Data.List.Induction
import Mathlib.Data.List.Lattice
import Mathlib.Data.List.Nodup
import ServiceChain.Flow.Store

/-! The flow store against its history. What the store holds is told by the calls alone: of each
key, the flows that no later call replaces or removes, in the order they were committed. -/
namespace ServiceChain

/-- Some version, all of the slot's key, no two of one owner. -/
structure SharedFlow.WellFormed (s : SharedFlow) : Prop where
  versions_ne_nil : s.versions ≠ []
  version_key : ∀ f ∈ s.versions, f.key = s.key
  owners_nodup : (s.versions.map (·.owner)).Nodup

namespace SharedFlow.WellFormed

theorem single (flow : Flow) : SharedFlow.WellFormed ⟨flow.key, [flow]⟩ where
  versions_ne_nil := by simp
  version_key := by simp
  owners_nodup := by simp

theorem install {s : SharedFlow} (h : s.WellFormed) {flow : Flow} (hkey : s.key = flow.key) :
    (s.install flow).WellFormed where
  versions_ne_nil := by simp [SharedFlow.install]
  version_key := by
    intro f hf
    simp only [SharedFlow.install, List.mem_append, List.mem_filter, List.mem_singleton] at hf
    rcases hf with ⟨hf, _⟩ | rfl
    · exact h.version_key f hf
    · exact hkey.symm
  owners_nodup := by
    simp only [SharedFlow.install, List.map_append, List.map_cons, List.map_nil]
    refine List.Nodup.append (h.owners_nodup.sublist (List.filter_sublist.map _)) (by simp) ?_
    intro owner hold hnew
    obtain ⟨f, hf, rfl⟩ := List.mem_map.mp hold
    have : f.owner ≠ flow.owner := by simpa using (List.mem_filter.mp hf).2
    exact this (by simpa using hnew)

theorem drop {s : SharedFlow} (h : s.WellFormed) {owner : FlowOwner}
    (hheld : s.isHeldBy owner = false) : (s.drop owner).WellFormed where
  versions_ne_nil := by
    intro hnil
    have hall : ∀ f ∈ s.versions, f.owner = owner := by
      simpa [SharedFlow.drop, List.filter_eq_nil_iff] using hnil
    obtain ⟨f, hf⟩ := List.exists_mem_of_ne_nil _ h.versions_ne_nil
    have hheld' : s.isHeldBy owner = true := by
      simp only [SharedFlow.isHeldBy, Bool.and_eq_true, List.any_eq_true, List.all_eq_true,
        decide_eq_true_eq]
      exact ⟨⟨f, hf, hall f hf⟩, hall⟩
    simp [hheld] at hheld'
  version_key := fun f hf => h.version_key f (List.mem_filter.mp hf).1
  owners_nodup := h.owners_nodup.sublist (List.filter_sublist.map _)

end SharedFlow.WellFormed

namespace FlowStore

/-- Every key has one slot, and every slot is well formed. -/
structure WellFormed (store : FlowStore) : Prop where
  keys_nodup : (store.shared.map (·.key)).Nodup
  slots : ∀ s ∈ store.shared, s.WellFormed

theorem mem_installInto {flow : Flow} {s : SharedFlow} {shared : List SharedFlow}
    (h : s ∈ installInto flow shared) :
    s ∈ shared ∨ s = ⟨flow.key, [flow]⟩ ∨ ∃ t ∈ shared, t.key = flow.key ∧ s = t.install flow := by
  induction shared with
  | nil => exact Or.inr (Or.inl (by simpa [installInto] using h))
  | cons t rest ih =>
    simp only [installInto] at h
    split at h
    · next hkey =>
      rcases List.mem_cons.mp h with rfl | h
      · exact Or.inr (Or.inr ⟨t, by simp, hkey, rfl⟩)
      · exact Or.inl (by simp [h])
    · rcases List.mem_cons.mp h with rfl | h
      · exact Or.inl (by simp)
      · rcases ih h with h | h | ⟨u, hu, hkey, rfl⟩
        · exact Or.inl (by simp [h])
        · exact Or.inr (Or.inl h)
        · exact Or.inr (Or.inr ⟨u, by simp [hu], hkey, rfl⟩)

theorem keys_installInto (flow : Flow) (shared : List SharedFlow) :
    (installInto flow shared).map (·.key) =
      if flow.key ∈ shared.map (·.key) then shared.map (·.key)
      else shared.map (·.key) ++ [flow.key] := by
  induction shared with
  | nil => simp [installInto]
  | cons s rest ih =>
    by_cases h : s.key = flow.key
    · simp [installInto, h, SharedFlow.install]
    · have h' : ¬ flow.key = s.key := fun e => h e.symm
      simp only [installInto, if_neg h, List.map_cons, ih, List.mem_cons, h', false_or]
      split <;> simp

theorem wellFormed_empty : empty.WellFormed where
  keys_nodup := List.nodup_nil
  slots := by simp [empty]

theorem WellFormed.install {store : FlowStore} (h : store.WellFormed) (flow : Flow) :
    (store.install flow).WellFormed where
  keys_nodup := by
    simp only [FlowStore.install, keys_installInto]
    split
    · exact h.keys_nodup
    · next hnew => simpa [List.nodup_append, hnew] using ⟨h.keys_nodup, fun a b e => hnew (by
        simpa using ⟨a, b, e⟩)⟩
  slots := by
    intro s hs
    rcases mem_installInto hs with hs | rfl | ⟨t, ht, hkey, rfl⟩
    · exact h.slots s hs
    · exact SharedFlow.WellFormed.single flow
    · exact (h.slots t ht).install hkey

theorem WellFormed.commit {store : FlowStore} (h : store.WellFormed) (batch : List Flow) :
    (store.commit batch).WellFormed := by
  induction batch generalizing store with
  | nil => exact h
  | cons flow rest ih => exact ih (h.install flow)

theorem WellFormed.deleteOwner {store : FlowStore} (h : store.WellFormed) (owner : FlowOwner) :
    (store.deleteOwner owner).WellFormed where
  keys_nodup := by
    have hkeys : (store.deleteOwner owner).shared.map (·.key) =
        (store.shared.filter (!·.isHeldBy owner)).map (·.key) := by
      simp [FlowStore.deleteOwner, SharedFlow.drop, Function.comp_def]
    rw [hkeys]
    exact h.keys_nodup.sublist (List.filter_sublist.map _)
  slots := by
    intro s hs
    obtain ⟨t, ht, rfl⟩ := List.mem_map.mp hs
    obtain ⟨ht, hheld⟩ := List.mem_filter.mp ht
    exact (h.slots t ht).drop (by simpa using hheld)

theorem find?_of_mem {shared : List SharedFlow} (hkeys : (shared.map (·.key)).Nodup)
    {s : SharedFlow} (hs : s ∈ shared) : shared.find? (·.key = s.key) = some s := by
  induction shared with
  | nil => simp at hs
  | cons t rest ih =>
    simp only [List.map_cons, List.nodup_cons] at hkeys
    rcases List.mem_cons.mp hs with rfl | hs
    · simp
    · have hne : t.key ≠ s.key := fun e => hkeys.1 (e ▸ List.mem_map_of_mem hs)
      simp [hne, ih hkeys.2 hs]

theorem WellFormed.versions_of_mem {store : FlowStore} (h : store.WellFormed) {s : SharedFlow}
    (hs : s ∈ store.shared) : store.versions s.key = s.versions := by
  simp [versions, find?_of_mem h.keys_nodup hs]

theorem exists_of_mem_owners {store : FlowStore} {owner : FlowOwner} {key : FlowKey}
    (h : owner ∈ store.owners key) :
    ∃ s ∈ store.shared, s.key = key ∧ owner ∈ s.versions.map (·.owner) := by
  cases hfind : store.shared.find? (·.key = key) with
  | none => simp [owners, versions, hfind] at h
  | some s =>
    refine ⟨s, List.mem_of_find?_eq_some hfind, by simpa using List.find?_some hfind, ?_⟩
    simpa [owners, versions, hfind] using h

theorem find?_deleteOwner (owner : FlowOwner) (key : FlowKey) {shared : List SharedFlow}
    (hkeys : (shared.map (·.key)).Nodup) :
    ((shared.filter (!·.isHeldBy owner)).map (·.drop owner)).find? (·.key = key) =
      ((shared.find? (·.key = key)).filter (!·.isHeldBy owner)).map (·.drop owner) := by
  induction shared with
  | nil => rfl
  | cons s rest ih =>
    simp only [List.map_cons, List.nodup_cons] at hkeys
    have ih := ih hkeys.2
    by_cases hkey : s.key = key
    · have hnone : rest.find? (·.key = key) = none := by
        simp only [List.find?_eq_none, decide_eq_true_eq]
        exact fun t ht e => hkeys.1 (hkey ▸ e ▸ List.mem_map_of_mem ht)
      cases hheld : s.isHeldBy owner with
      | true => simp [hheld, hkey, ih, hnone, Option.filter_some]
      | false => simp [hheld, hkey, SharedFlow.drop, Option.filter_some]
    · cases hheld : s.isHeldBy owner with
      | true => simpa [hheld, hkey] using ih
      | false => simpa [hheld, hkey, SharedFlow.drop] using ih

theorem WellFormed.versions_deleteOwner {store : FlowStore} (h : store.WellFormed)
    (owner : FlowOwner) (key : FlowKey) :
    (store.deleteOwner owner).versions key =
      (store.versions key).filter (·.owner ≠ owner) := by
  simp only [versions, FlowStore.deleteOwner, find?_deleteOwner owner key h.keys_nodup]
  cases hfind : store.shared.find? (·.key = key) with
  | none => simp
  | some s =>
    cases hheld : s.isHeldBy owner with
    | true =>
      have hall : ∀ f ∈ s.versions, f.owner = owner := by
        simpa using (Bool.and_eq_true_iff.mp hheld).2
      simpa [hheld, Option.filter_some] using hall
    | false => simp [hheld, SharedFlow.drop, Option.filter_some]

theorem WellFormed.mem_flows {store : FlowStore} (h : store.WellFormed) (flow : Flow) :
    flow ∈ store.flows ↔ (store.versions flow.key).getLast? = some flow := by
  simp only [flows, List.mem_filterMap, SharedFlow.installed?]
  constructor
  · rintro ⟨s, hs, hlast⟩
    have hkey := (h.slots s hs).version_key flow (List.mem_of_getLast? hlast)
    rw [hkey, h.versions_of_mem hs, hlast]
  · intro hlast
    cases hfind : store.shared.find? (·.key = flow.key) with
    | none => simp [versions, hfind] at hlast
    | some s =>
      exact ⟨s, List.mem_of_find?_eq_some hfind, by simpa [versions, hfind] using hlast⟩

end FlowStore

/-- One thing that happens to a store. -/
inductive StoreEvent where
  | put (flow : Flow)
  | drop (owner : FlowOwner)

namespace StoreEvent

def applyTo (store : FlowStore) : StoreEvent → FlowStore
  | put flow => store.install flow
  | drop owner => store.deleteOwner owner

/-- The event replaces the flow or removes it. -/
def ends (flow : Flow) : StoreEvent → Bool
  | put other => other.key = flow.key ∧ other.owner = flow.owner
  | drop owner => owner = flow.owner

/-- The flows that no later event replaces or removes, in the order they were put. -/
def live : List StoreEvent → List Flow
  | [] => []
  | drop _ :: later => live later
  | put flow :: later => if later.any (·.ends flow) then live later else flow :: live later

theorem live_append (earlier later : List StoreEvent) :
    live (earlier ++ later) =
      (live earlier).filter (fun flow => !later.any (·.ends flow)) ++ live later := by
  induction earlier with
  | nil => simp [live]
  | cons event rest ih =>
    cases event with
    | drop owner => simpa [live] using ih
    | put flow =>
      simp only [live, List.cons_append, List.any_append, Bool.or_eq_true]
      by_cases hrest : rest.any (·.ends flow) = true
      · simp only [hrest, true_or, if_true, ih]
      · by_cases hlater : later.any (·.ends flow) = true
        · simp only [hrest, hlater, or_true, if_true, ih]
          simp [hlater]
        · simp only [hrest, hlater, or_self, ih]
          simp [hlater]

def replay (events : List StoreEvent) : FlowStore := events.foldl applyTo .empty

theorem replay_append (earlier later : List StoreEvent) :
    replay (earlier ++ later) = later.foldl applyTo (replay earlier) := by
  simp [replay]

theorem replay_concat (events : List StoreEvent) (event : StoreEvent) :
    replay (events ++ [event]) = event.applyTo (replay events) :=
  replay_append events [event]

theorem wellFormed_replay (events : List StoreEvent) : (replay events).WellFormed := by
  induction events using List.reverseRecOn with
  | nil => exact FlowStore.wellFormed_empty
  | append_singleton events event ih =>
    rw [replay_concat]
    cases event with
    | put flow => exact ih.install flow
    | drop owner => exact ih.deleteOwner owner

/-- The versions of a key are the live flows of that key. -/
theorem versions_replay (events : List StoreEvent) (key : FlowKey) :
    (replay events).versions key = (live events).filter (·.key = key) := by
  induction events using List.reverseRecOn with
  | nil => rfl
  | append_singleton events event ih =>
    rw [replay_concat, live_append, List.filter_append, List.filter_filter]
    cases event with
    | drop owner =>
      have hdrop := (wellFormed_replay events).versions_deleteOwner owner key
      rw [applyTo, hdrop, ih, List.filter_filter]
      simp only [live, ends, List.any_cons, List.any_nil, Bool.or_false, List.filter_nil,
        List.append_nil]
      refine List.filter_congr fun flow _ => ?_
      simp [Bool.and_comm, eq_comm]
    | put flow =>
      rw [applyTo, FlowStore.versions_install, ih]
      by_cases hkey : key = flow.key
      · subst hkey
        simp only [if_true, List.filter_filter, live, ends, List.any_cons, List.any_nil,
          Bool.or_false]
        congr 1
        · refine List.filter_congr fun other _ => ?_
          by_cases h : other.key = flow.key <;> simp [h, eq_comm]
        · simp
      · have hne : ¬ flow.key = key := fun e => hkey e.symm
        simp only [hkey, if_false, live, ends, List.any_cons, List.any_nil, Bool.or_false]
        simp only [hne, decide_false, Bool.false_eq_true, if_false, List.filter_cons,
          List.filter_nil, List.append_nil]
        refine List.filter_congr fun other _ => ?_
        by_cases h : other.key = key <;> simp [h, hne]

def spares (owner : FlowOwner) : StoreEvent → Bool
  | put flow => flow.owner ≠ owner
  | drop _ => true

@[simp] theorem spares_put (owner : FlowOwner) (flow : Flow) :
    (put flow).spares owner = decide (flow.owner ≠ owner) := rfl

@[simp] theorem spares_drop (owner other : FlowOwner) : (drop other).spares owner = true := rfl

theorem spares_of_ends {owner : FlowOwner} {flow : Flow} {event : StoreEvent}
    (hflow : flow.owner ≠ owner) (h : event.ends flow = true) : event.spares owner = true := by
  cases event with
  | drop other => rfl
  | put other =>
    have hsame : other.owner = flow.owner := (of_decide_eq_true h).2
    simpa [hsame] using hflow

theorem any_ends_spares {owner : FlowOwner} {flow : Flow} (hflow : flow.owner ≠ owner)
    (later : List StoreEvent) :
    (later.filter (·.spares owner)).any (·.ends flow) = later.any (·.ends flow) := by
  rw [Bool.eq_iff_iff]
  simp only [List.any_eq_true, List.mem_filter]
  constructor
  · rintro ⟨event, ⟨hmem, _⟩, hends⟩
    exact ⟨event, hmem, hends⟩
  · rintro ⟨event, hmem, hends⟩
    exact ⟨event, ⟨hmem, spares_of_ends hflow hends⟩, hends⟩

theorem live_spares (owner : FlowOwner) (events : List StoreEvent) :
    live (events.filter (·.spares owner)) = (live events).filter (·.owner ≠ owner) := by
  induction events with
  | nil => rfl
  | cons event rest ih =>
    cases event with
    | drop other => rw [List.filter_cons_of_pos (by simp), live, live, ih]
    | put flow =>
      by_cases hflow : flow.owner = owner
      · rw [List.filter_cons_of_neg (by simp [hflow]), ih, live]
        split <;> simp [hflow]
      · rw [List.filter_cons_of_pos (by simp [hflow]), live, live, any_ends_spares hflow, ih]
        split <;> simp [hflow]

def puts : List StoreEvent → List Flow
  | [] => []
  | put flow :: later => flow :: puts later
  | drop _ :: later => puts later

@[simp] theorem puts_append (earlier later : List StoreEvent) :
    puts (earlier ++ later) = puts earlier ++ puts later := by
  induction earlier with
  | nil => rfl
  | cons event rest ih => cases event <;> simp [puts, ih]

@[simp] theorem puts_map_put (flows : List Flow) : puts (flows.map put) = flows := by
  induction flows with
  | nil => rfl
  | cons flow rest ih => simp [puts, ih]

theorem mem_puts {events : List StoreEvent} {flow : Flow} :
    flow ∈ puts events ↔ put flow ∈ events := by
  induction events with
  | nil => simp [puts]
  | cons event rest ih => cases event <;> simp [puts, ih]

theorem mem_puts_of_mem_live {events : List StoreEvent} {flow : Flow}
    (h : flow ∈ live events) : flow ∈ puts events := by
  induction events with
  | nil => cases h
  | cons event rest ih =>
    cases event with
    | drop owner => exact ih h
    | put other =>
      rw [live] at h
      split at h
      · exact List.mem_cons_of_mem _ (ih h)
      · rcases List.mem_cons.mp h with rfl | h
        · exact List.mem_cons_self
        · exact List.mem_cons_of_mem _ (ih h)

/-- While its owner is never dropped, a flow lives if it is its owner's latest of its key. -/
theorem mem_live_iff {events : List StoreEvent} {flow : Flow}
    (hkept : StoreEvent.drop flow.owner ∉ events) :
    flow ∈ live events ↔
      ((puts events).filter fun other =>
        other.owner = flow.owner ∧ other.key = flow.key).getLast? = some flow := by
  -- on the last event: a flow of the same owner and key ends the flow and is the latest itself
  induction events using List.reverseRecOn with
  | nil => simp [live, puts]
  | append_singleton events event ih =>
    simp only [List.mem_append, List.mem_singleton, not_or] at hkept
    have ih := ih hkept.1
    rw [live_append, List.mem_append, List.mem_filter, ih, puts_append, List.filter_append]
    cases event with
    | drop owner =>
      have hother : ¬ owner = flow.owner := fun e => hkept.2 (by rw [e])
      simp [live, puts, ends, hother]
    | put other =>
      by_cases hsame : other.owner = flow.owner ∧ other.key = flow.key
      · simp [live, puts, ends, hsame.1, hsame.2, eq_comm]
      · have hne : flow ≠ other := fun e => hsame (e ▸ ⟨rfl, rfl⟩)
        have hends : (put other).ends flow = false := by
          simpa [ends, and_comm] using hsame
        simp [live, puts, hends, hsame, hne]

end StoreEvent

namespace FlowSink

theorem store_of_commit {sink after : FlowSink} {batch : List Flow}
    (h : FlowDestination.commit sink batch = .ok after) :
    after.store = sink.store.commit batch := by
  change sink.commit batch = .ok after at h
  simp only [commit] at h
  split at h
  · cases h
  · cases h; rfl

theorem fault_of_commit {sink after : FlowSink} {batch : List Flow}
    (h : FlowDestination.commit sink batch = .ok after) : after.fault = sink.fault := by
  change sink.commit batch = .ok after at h
  simp only [commit] at h
  split at h
  · cases h
  · cases h; rfl

theorem store_of_deletePath {sink after : FlowSink} {path : PathId} {switches : List SwitchId}
    (h : FlowDestination.deletePath sink path = .ok (switches, after)) :
    after.store = sink.store.deleteOwner (.path path) := by
  change sink.deletePath path = .ok (switches, after) at h
  simp only [deletePath] at h
  split at h
  · cases h
  · cases h; rfl

end FlowSink

inductive SinkCall where
  | commit (batch : List Flow)
  | deletePath (path : PathId)

namespace SinkCall

/-- The sink after a call. A refused call changes nothing. -/
def applyTo (sink : FlowSink) : SinkCall → FlowSink
  | commit batch =>
    match sink.commit batch with
    | .ok after => after
    | .error _ => sink
  | deletePath path =>
    match sink.deletePath path with
    | .ok (_, after) => after
    | .error _ => sink

/-- The flows of a batch one by one, or the removal of a path's. -/
def events : SinkCall → List StoreEvent
  | commit batch => batch.map .put
  | deletePath path => [.drop (.path path)]

/-- The same call with a path's flows left out of the batch. -/
def without (path : PathId) : SinkCall → SinkCall
  | commit batch => commit (batch.filter (·.owner ≠ .path path))
  | deletePath other => deletePath other

def run (calls : List SinkCall) : FlowSink := calls.foldl applyTo {}

def history (calls : List SinkCall) : List StoreEvent := calls.flatMap events

theorem store_applyTo {sink : FlowSink} (h : sink.fault = none) (call : SinkCall) :
    (call.applyTo sink).store = call.events.foldl StoreEvent.applyTo sink.store ∧
      (call.applyTo sink).fault = none := by
  cases call with
  | commit batch =>
    simp [applyTo, events, FlowSink.commit, h, FlowStore.commit, List.foldl_map,
      StoreEvent.applyTo]
  | deletePath path => simp [applyTo, events, FlowSink.deletePath, h, StoreEvent.applyTo]

theorem store_foldl {sink : FlowSink} (h : sink.fault = none) (calls : List SinkCall) :
    (calls.foldl applyTo sink).store = (history calls).foldl StoreEvent.applyTo sink.store := by
  induction calls generalizing sink with
  | nil => rfl
  | cons call rest ih =>
    obtain ⟨hstore, hfault⟩ := store_applyTo h call
    simp only [List.foldl_cons, ih hfault, hstore, history, List.flatMap_cons, List.foldl_append]

theorem store_run (calls : List SinkCall) :
    (run calls).store = StoreEvent.replay (history calls) :=
  store_foldl rfl calls

theorem history_without (path : PathId) (calls : List SinkCall) :
    history (calls.map (·.without path)) = (history calls).filter (·.spares (.path path)) := by
  simp only [history, List.filter_flatMap, List.flatMap_map]
  refine List.flatMap_congr fun call _ => ?_
  cases call with
  | commit batch => simp [without, events, List.filter_map, StoreEvent.spares, Function.comp_def]
  | deletePath other => simp [without, events, StoreEvent.spares]

/-- The store refines its history: it is well formed, the versions of a key are the history's live
flows of that key, the latest of them is installed, and after a path's deletion it is as if the
path had never committed a flow. -/
theorem run_refines_history (calls : List SinkCall) :
    (run calls).store.WellFormed ∧
      (∀ key, (run calls).store.versions key =
        (StoreEvent.live (history calls)).filter (·.key = key)) ∧
      (∀ flow, flow ∈ (run calls).store.flows ↔
        ((StoreEvent.live (history calls)).filter (·.key = flow.key)).getLast? = some flow) ∧
      ∀ path key, (run (calls ++ [deletePath path])).store.versions key =
        (run (calls.map (·.without path))).store.versions key := by
  have hformed : (run calls).store.WellFormed := by
    rw [store_run]
    exact StoreEvent.wellFormed_replay _
  have hversions (calls : List SinkCall) (key : FlowKey) : (run calls).store.versions key =
      (StoreEvent.live (history calls)).filter (·.key = key) := by
    rw [store_run, StoreEvent.versions_replay]
  refine ⟨hformed, hversions calls, fun flow => ?_, fun path key => ?_⟩
  · rw [hformed.mem_flows, hversions]
  · have hdelete : StoreEvent.live (history (calls ++ [deletePath path])) =
        (StoreEvent.live (history calls)).filter (·.owner ≠ .path path) := by
      simp [history, events, StoreEvent.live_append, StoreEvent.live, StoreEvent.ends, eq_comm]
    rw [hversions, hversions, hdelete, history_without, StoreEvent.live_spares]

end SinkCall
end ServiceChain
