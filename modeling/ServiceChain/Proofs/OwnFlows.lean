import ServiceChain.Proofs.BatchContents

/-! The path's own flows in a batch. They come from the entries alone, whichever switches have their
default flows already, and so do the notes on skipped legs. -/
namespace ServiceChain

def Flow.isOwn (flow : Flow) : Bool := flow.owner ≠ .unowned

def LocatedEntry.locateAll (t : Topology) :
    Nat → List HopEntry → Except RenderError (List LocatedEntry)
  | _, [] => .ok []
  | number, e :: rest => do
    let l ← locate t number e
    let ls ← locateAll t (number + 1) rest
    return l :: ls

theorem LocatedEntry.locate_of_mem {t : Topology} {number : Nat} {entries : List HopEntry}
    {located : List LocatedEntry} (h : locateAll t number entries = .ok located)
    {l : LocatedEntry} (hl : l ∈ located) :
    ∃ i e, entries[i]? = some e ∧ locate t (number + i) e = .ok l := by
  induction entries generalizing number located with
  | nil => cases h; cases hl
  | cons e rest ih =>
    obtain ⟨first, hfirst, h⟩ := bind_eq_ok.mp h
    obtain ⟨others, hothers, h⟩ := bind_eq_ok.mp h
    cases h
    rcases List.mem_cons.mp hl with rfl | hl
    · exact ⟨0, e, rfl, hfirst⟩
    · obtain ⟨i, e', hentry, hlocate⟩ := ih hothers hl
      exact ⟨i + 1, e', by simpa using hentry, by rwa [Nat.add_comm i 1, ← Nat.add_assoc]⟩

theorem LocatedEntry.mem_of_locate {t : Topology} {number : Nat} {entries : List HopEntry}
    {located : List LocatedEntry} (h : locateAll t number entries = .ok located) {i : Nat}
    {e : HopEntry} {l : LocatedEntry} (hentry : entries[i]? = some e)
    (hl : locate t (number + i) e = .ok l) : l ∈ located := by
  induction entries generalizing number located i with
  | nil => simp at hentry
  | cons first rest ih =>
    obtain ⟨found, hfound, h⟩ := bind_eq_ok.mp h
    obtain ⟨others, hothers, h⟩ := bind_eq_ok.mp h
    cases h
    cases i with
    | zero =>
      obtain rfl : first = e := by simpa using hentry
      obtain rfl : found = l := Except.ok.inj (hfound.symm.trans hl)
      exact List.mem_cons_self
    | succ i =>
      have hnumber : number + (i + 1) = number + 1 + i := by omega
      exact List.mem_cons_of_mem _ (ih hothers (by simpa using hentry) (hnumber ▸ hl))

namespace Compilation

variable {d : Deployment} {p : Plan} {initialized : List SwitchId} {c : Compilation}
  {l : LocatedEntry}

def skippedLegs (d : Deployment) (p : Plan) (l : LocatedEntry) : List SkippedLeg :=
  (l.legs p.graph).filterMap fun leg =>
    match p.variant.emit ⟨d.topology, d.config, p.graph.pathId⟩ l.entry leg.2 with
    | .flows _ => none
    | .skipped reason => some ⟨l.number, leg.2.name, reason⟩

theorem skipped_foldl_stageLeg (ctx : LegContext) (v : Variant) (legs : List (SwitchId × Leg)) :
    (legs.foldl (stageLeg ctx v l) c).skipped =
      c.skipped ++ legs.filterMap fun leg =>
        match v.emit ctx l.entry leg.2 with
        | .flows _ => none
        | .skipped reason => some ⟨l.number, leg.2.name, reason⟩ := by
  induction legs generalizing c with
  | nil => simp
  | cons leg rest ih =>
    rw [List.foldl_cons, ih]
    simp only [stageLeg]
    split <;> simp [*]

theorem own_stageDefaults :
    (c.stageDefaults d initialized l).batch.flows.filter (·.isOwn) =
        c.batch.flows.filter (·.isOwn) ∧
      (c.stageDefaults d initialized l).skipped = c.skipped := by
  simp only [stageDefaults]
  split
  · exact ⟨rfl, rfl⟩
  · split
    · exact ⟨rfl, rfl⟩
    · refine ⟨?_, rfl⟩
      simp [FlowBatch.stageAll_flows, FlowBatch.withOwner, Flow.isOwn, FlowTemplate.on]

theorem filter_ownFlows : (ownFlows d p l).filter (·.isOwn) = ownFlows d p l := by
  refine List.filter_eq_self.mpr fun flow hflow => ?_
  simp [Flow.isOwn, owner_of_mem_ownFlows hflow]

theorem own_stageEntry (htables : c.batch.tables = p.tables d.config) :
    (c.stageEntry d p initialized l).batch.flows.filter (·.isOwn) =
        c.batch.flows.filter (·.isOwn) ++ ownFlows d p l ∧
      (c.stageEntry d p initialized l).skipped = c.skipped ++ skippedLegs d p l := by
  obtain ⟨hown, hskipped⟩ := @own_stageDefaults d initialized c l
  constructor
  · rw [(stageEntry_eq htables).2.2, List.filter_append, hown, filter_ownFlows]
  · simp only [stageEntry, skipped_foldl_stageLeg, hskipped, skippedLegs]

theorem stageEntries_ok_iff {number : Nat} {entries : List HopEntry} {c' : Compilation} :
    stageEntries d p initialized c number entries = .ok c' ↔
      ∃ located, LocatedEntry.locateAll d.topology number entries = .ok located ∧
        c' = located.foldl (stageEntry d p initialized) c := by
  induction entries generalizing c number with
  | nil => simp [stageEntries, LocatedEntry.locateAll, eq_comm]
  | cons e rest ih =>
    cases hlocate : LocatedEntry.locate d.topology number e with
    | error err =>
      simp [stageEntries, LocatedEntry.locateAll, hlocate, bind, Except.bind]
    | ok l =>
      simp only [stageEntries, hlocate, ih, LocatedEntry.locateAll, bind_eq_ok]
      constructor
      · rintro ⟨located, hrest, rfl⟩
        exact ⟨l :: located, ⟨l, rfl, located, hrest, rfl⟩, rfl⟩
      · rintro ⟨located, ⟨_, hl, others, hrest, hlocated⟩, rfl⟩
        cases hl
        cases hlocated
        exact ⟨others, hrest, rfl⟩

theorem own_foldl_stageEntry (located : List LocatedEntry)
    (htables : c.batch.tables = p.tables d.config) :
    (located.foldl (stageEntry d p initialized) c).batch.flows.filter (·.isOwn) =
        c.batch.flows.filter (·.isOwn) ++ located.flatMap (ownFlows d p) ∧
      (located.foldl (stageEntry d p initialized) c).skipped =
        c.skipped ++ located.flatMap (skippedLegs d p) := by
  induction located generalizing c with
  | nil => simp
  | cons l rest ih =>
    obtain ⟨hown, hskipped⟩ := @own_stageEntry d p initialized c l htables
    obtain ⟨hrest, hmore⟩ := ih (stageEntry_eq htables).2.1
    rw [List.foldl_cons, hrest, hmore, hown, hskipped]
    simp

/-- The path's own flows and its skipped legs are those of the entries in order. -/
theorem own_make (h : make d p initialized = .ok c) :
    ∃ located, LocatedEntry.locateAll d.topology 0 p.graph.entries = .ok located ∧
      c.batch.flows.filter (·.isOwn) = located.flatMap (ownFlows d p) ∧
      c.skipped = located.flatMap (skippedLegs d p) := by
  obtain ⟨located, hlocated, rfl⟩ := stageEntries_ok_iff.mp h
  refine ⟨located, hlocated, ?_⟩
  simpa using @own_foldl_stageEntry d p initialized { batch := { tables := p.tables d.config } }
    located rfl

/-- Which switches have their default flows makes no difference to whether a plan compiles, to the
path's own flows and to the legs that are skipped. -/
theorem make_of_make (h : make d p initialized = .ok c) (others : List SwitchId) :
    ∃ c', make d p others = .ok c' ∧
      c'.batch.flows.filter (·.isOwn) = c.batch.flows.filter (·.isOwn) ∧
      c'.skipped = c.skipped := by
  obtain ⟨located, hlocated, hown, hskipped⟩ := own_make h
  refine ⟨_, stageEntries_ok_iff.mpr ⟨located, hlocated, rfl⟩, ?_⟩
  obtain ⟨hown', hskipped'⟩ := @own_foldl_stageEntry d p others
    { batch := { tables := p.tables d.config } } located rfl
  rw [hown', hskipped', hown, hskipped]
  simp

theorem exists_of_mem_own (h : make d p initialized = .ok c) {flow : Flow}
    (hflow : flow ∈ c.batch.flows) (hown : flow.owner ≠ .unowned) :
    ∃ i e l, p.graph.entries[i]? = some e ∧ LocatedEntry.locate d.topology i e = .ok l ∧
      flow ∈ ownFlows d p l := by
  obtain ⟨located, hlocated, hflows, -⟩ := own_make h
  have hmem : flow ∈ c.batch.flows.filter (·.isOwn) := by simp [hflow, Flow.isOwn, hown]
  rw [hflows] at hmem
  obtain ⟨l, hl, hflow⟩ := List.mem_flatMap.mp hmem
  obtain ⟨i, e, hentry, hlocate⟩ := LocatedEntry.locate_of_mem hlocated hl
  exact ⟨i, e, l, hentry, by simpa using hlocate, hflow⟩

theorem mem_of_locate (h : make d p initialized = .ok c) {i : Nat} {e : HopEntry}
    (hentry : p.graph.entries[i]? = some e)
    (hl : LocatedEntry.locate d.topology i e = .ok l) {flow : Flow}
    (hflow : flow ∈ ownFlows d p l) : flow ∈ c.batch.flows := by
  obtain ⟨located, hlocated, hown, -⟩ := own_make h
  have hmem : l ∈ located := LocatedEntry.mem_of_locate hlocated hentry (by rwa [Nat.zero_add])
  have hstaged : flow ∈ c.batch.flows.filter (·.isOwn) := by
    rw [hown]
    exact List.mem_flatMap.mpr ⟨l, hmem, hflow⟩
  exact (List.mem_filter.mp hstaged).1

end Compilation
end ServiceChain
