import ServiceChain.Proofs.PlanVerdict

/-! What a render answers. The checks come in a fixed order, each at the first hop that fails it:
service indices, placements, transport, switches, and last the sink. Which error a render gives, or
that it gives none, is read off the path and the deployment. -/
namespace ServiceChain

namespace FlowBatch

variable {σ : Type} [FlowDestination σ] {b : FlowBatch} {sink : σ}

theorem flush_error_iff {fault : SinkFault} : b.flush sink = .error fault ↔
    b.flows ≠ [] ∧ FlowDestination.commit sink b.flows = .error fault := by
  by_cases hempty : b.flows = [] <;> simp [flush_eq, hempty]

theorem exists_flush_iff : (∃ after, b.flush sink = .ok after) ↔
    b.flows = [] ∨ ∃ after, FlowDestination.commit sink b.flows = .ok after := by
  by_cases hempty : b.flows = [] <;> simp [flush_eq, hempty]

end FlowBatch

namespace Renderer

variable {σ : Type} {d : Deployment} {r : Renderer σ} {path : ServicePath}

/-- The flows that a render compiles; none if it does not come to that. -/
def batch? (d : Deployment) (r : Renderer σ) (path : ServicePath) : Option (List Flow) :=
  match (Plan.make d r.pool path).1 with
  | .error _ => none
  | .ok p => (Compilation.make d p r.initialized).toOption.map (·.batch.flows)

theorem batch?_eq_some_iff {batch : List Flow} : r.batch? d path = some batch ↔
    ∃ p, (Plan.make d r.pool path).1 = .ok p ∧
      ∃ c, Compilation.make d p r.initialized = .ok c ∧ c.batch.flows = batch := by
  unfold batch?
  cases (Plan.make d r.pool path).1 with
  | error e => simp
  | ok p => cases hmake : Compilation.make d p r.initialized <;> simp [Except.toOption, hmake]

/-- A render comes to a batch if it has a plan and knows the switches of all hops. -/
theorem batch?_isSome_iff : (r.batch? d path).isSome ↔
    (∃ v, d.Carries path v) ∧ ∀ hop ∈ path.hops, ¬ d.Unresolved hop := by
  simp only [← @Plan.exists_make_iff d r.pool path, Option.isSome_iff_exists, batch?_eq_some_iff]
  constructor
  · rintro ⟨_, p, hplan, c, hmake, -⟩
    refine ⟨⟨p.variant, p, hplan, rfl⟩, fun hop hhop hunresolved => ?_⟩
    obtain ⟨first, hfirst⟩ := FirstWith.exists_iff.mpr ⟨hop, hhop, hunresolved⟩
    obtain ⟨purged, hfails⟩ :=
      (Compilation.make_error_iff (Plan.make_ok (Prod.ext hplan rfl)) r.initialized).mpr
        ⟨first, hfirst, rfl⟩
    simp [hmake] at hfails
  · rintro ⟨⟨_, p, hplan, -⟩, hall⟩
    cases hmake : Compilation.make d p r.initialized with
    | error failed =>
      obtain ⟨hop, hfirst, -⟩ :=
        (Compilation.make_error_iff (Plan.make_ok (Prod.ext hplan rfl)) r.initialized).mp
          ⟨failed.2, hmake⟩
      exact absurd hfirst.holds (hall hop hfirst.mem)
    | ok c => exact ⟨_, p, hplan, c, hmake, rfl⟩

variable [FlowDestination σ]

/-- A render plans, compiles, and offers what it compiled. -/
theorem result_eq (d : Deployment) (r : Renderer σ) (path : ServicePath) :
    (r.render d path).result =
      match (Plan.make d r.pool path).1 with
      | .error e => .error e
      | .ok p =>
        match Compilation.make d p r.initialized with
        | .error (e, _) => .error e
        | .ok c =>
          match c.batch.flush r.sink with
          | .error fault => .error (.flowSink fault)
          | .ok _ =>
            .ok ⟨path.id, p.variant, p.graph.isLogical, c.batch.size, c.pending, c.skipped⟩ := by
  have hpool : Plan.make d (r.markInFlight path.id).pool path = Plan.make d r.pool path := rfl
  have hinitialized : (r.markInFlight path.id).initialized = r.initialized := rfl
  have hsink : (r.markInFlight path.id).sink = r.sink := rfl
  simp only [result_render, attempt, commit, hpool, hinitialized, hsink]
  cases (Plan.make d r.pool path).1 with
  | error e => rfl
  | ok p =>
    simp only
    cases Compilation.make d p r.initialized with
    | error e => rfl
    | ok c =>
      simp only
      cases c.batch.flush r.sink <;> rfl

theorem result_unplanned_iff {e : RenderError} (hlocated : ∀ name, e ≠ .unresolvedForwarder name)
    (htaken : ∀ fault, e ≠ .flowSink fault) :
    (r.render d path).result = .error e ↔ (Plan.make d r.pool path).1 = .error e := by
  rw [result_eq]
  cases (Plan.make d r.pool path).1 with
  | error other => simp
  | ok p =>
    simp only [reduceCtorEq, iff_false]
    cases hmake : Compilation.make d p r.initialized with
    | error failed =>
      obtain ⟨name, hname⟩ := Compilation.stageEntries_error hmake
      simpa [hname] using fun h => hlocated name h.symm
    | ok c =>
      simp only
      cases c.batch.flush r.sink with
      | error fault => simpa using fun h => htaken fault h.symm
      | ok sink => simp

theorem result_unlocated_iff {name : String} :
    (r.render d path).result = .error (.unresolvedForwarder name) ↔
      ∃ p, (Plan.make d r.pool path).1 = .ok p ∧ ∃ purged,
        Compilation.make d p r.initialized = .error (.unresolvedForwarder name, purged) := by
  rw [result_eq]
  cases hplan : (Plan.make d r.pool path).1 with
  | error e =>
    refine iff_of_false (fun h => ?_) (by simp)
    cases h
    rcases Plan.make_error_iff.mp hplan with h | ⟨_, -, -, h⟩
    · rcases HopGraph.build_error h with ⟨_, h⟩ | ⟨_, _, h⟩ <;> cases h
    · cases h
  | ok p =>
    simp only [Except.ok.injEq, exists_eq_left']
    cases hmake : Compilation.make d p r.initialized with
    | error failed => simp [Prod.ext_iff]
    | ok c =>
      simp only [reduceCtorEq, exists_false, iff_false]
      cases c.batch.flush r.sink <;> simp

theorem result_refused_iff {fault : SinkFault} :
    (r.render d path).result = .error (.flowSink fault) ↔
      ∃ batch, r.batch? d path = some batch ∧ batch ≠ [] ∧
        FlowDestination.commit r.sink batch = .error fault := by
  rw [result_eq]
  unfold batch?
  cases hplan : (Plan.make d r.pool path).1 with
  | error e =>
    refine iff_of_false (fun h => ?_) (by simp)
    cases h
    exact Plan.make_error (Prod.ext hplan rfl) fault rfl
  | ok p =>
    simp only
    cases hmake : Compilation.make d p r.initialized with
    | error failed =>
      obtain ⟨name, hname⟩ := Compilation.stageEntries_error hmake
      simp [hname, Except.toOption]
    | ok c =>
      simp only [Except.toOption, Option.map_some, Option.some.injEq, exists_eq_left',
        ← FlowBatch.flush_error_iff]
      cases c.batch.flush r.sink <;> simp

theorem result_taken_iff {v : Variant} :
    (∃ report, (r.render d path).result = .ok report ∧ report.variant = v) ↔
      (∃ p, (Plan.make d r.pool path).1 = .ok p ∧ p.variant = v) ∧
        ∃ batch, r.batch? d path = some batch ∧
          (batch = [] ∨ ∃ sink, FlowDestination.commit r.sink batch = .ok sink) := by
  rw [result_eq]
  unfold batch?
  cases hplan : (Plan.make d r.pool path).1 with
  | error e => simp
  | ok p =>
    simp only
    cases hmake : Compilation.make d p r.initialized with
    | error failed => simp [Except.toOption]
    | ok c =>
      simp only [Except.toOption, Option.map_some, Option.some.injEq, exists_eq_left',
        ← FlowBatch.exists_flush_iff]
      cases c.batch.flush r.sink <;> simp

theorem offered_of_batch? {batch : List Flow} (h : r.batch? d path = some batch) :
    (r.render d path).trace.offered = batch := by
  obtain ⟨p, hplan, c, hmake, rfl⟩ := batch?_eq_some_iff.mp h
  have hcases := attempt_cases d (r.markInFlight path.id) path
  have htrace : (r.render d path).trace.attempts =
      ((r.markInFlight path.id).attempt d path).trace.attempts := by
    simp only [render, settle]
    split <;> rfl
  unfold RenderTrace.offered
  rw [htrace]
  generalize (r.markInFlight path.id).attempt d path = o at hcases ⊢
  cases hcases with
  | unplanned hother => cases hplan.symm.trans (congrArg Prod.fst hother)
  | unlocated hother hfails =>
    cases hplan.symm.trans (congrArg Prod.fst hother)
    cases hmake.symm.trans hfails
  | refused hother hmakes hflush =>
    cases hplan.symm.trans (congrArg Prod.fst hother)
    cases hmake.symm.trans hmakes
    simp
  | taken hother hmakes hflush =>
    cases hplan.symm.trans (congrArg Prod.fst hother)
    cases hmake.symm.trans hmakes
    exact c.batch.flatMap_asked r.sink _

/-- What a render answers, in this order: the service indices are out of order; a function is on
several placements; no transport carries the path; a forwarder's switch is unknown; the sink refuses
the batch; the path is rendered. That no index is left for the way out of the path never is an
answer: a path of which that is so has been refused for its hops. -/
theorem render_verdict (d : Deployment) (r : Renderer σ) (path : ServicePath) :
    (∀ id, (∃ defect, (r.render d path).result = .error (.malformedPath id defect)) ↔
      id = path.id ∧ ¬ path.CountsDown) ∧
    (∀ id, (r.render d path).result ≠ .error (.malformedPath id .noEgressIndex)) ∧
    (∀ function several,
      (r.render d path).result = .error (.ambiguousPlacement function several) ↔
        path.CountsDown ∧
          (∃ hop, FirstWith d.Spread path.hops hop ∧ function = hop.serviceFunction) ∧
          several.Pairwise (· < ·) ∧ ∀ p, p ∈ several ↔ d.PlacedOn function p) ∧
    (∀ t e, (r.render d path).result = .error (.noTransportProcessor t e) ↔
      path.CountsDown ∧ (∀ hop ∈ path.hops, ¬ d.Spread hop) ∧ (∀ hop ∈ path.hops, ¬ d.Placed hop) ∧
        (∀ v, ((path.transport, path.encapsulation), v) ∉ Variant.declaredPairs) ∧
        t = path.transport ∧ e = path.encapsulation) ∧
    (∀ name, (r.render d path).result = .error (.unresolvedForwarder name) ↔
      (∃ v, d.Carries path v) ∧
        ∃ hop, FirstWith d.Unresolved path.hops hop ∧ name = hop.forwarder) ∧
    ((r.batch? d path).isSome ↔
      (∃ v, d.Carries path v) ∧ ∀ hop ∈ path.hops, ¬ d.Unresolved hop) ∧
    (∀ batch, r.batch? d path = some batch → (r.render d path).trace.offered = batch) ∧
    (∀ fault, (r.render d path).result = .error (.flowSink fault) ↔
      ∃ batch, r.batch? d path = some batch ∧ batch ≠ [] ∧
        FlowDestination.commit r.sink batch = .error fault) ∧
    ∀ v, (∃ report, (r.render d path).result = .ok report ∧ report.variant = v) ↔
      d.Carries path v ∧ ∃ batch, r.batch? d path = some batch ∧
        (batch = [] ∨ ∃ sink, FlowDestination.commit r.sink batch = .ok sink) := by
  refine ⟨fun id => ?_, fun id => ?_, fun function several => ?_, fun t e => ?_, fun name => ?_,
    batch?_isSome_iff, fun batch => offered_of_batch?, fun fault => result_refused_iff,
    fun v => ?_⟩
  · rw [← @Plan.make_malformed_iff d r.pool path id]
    exact exists_congr fun defect => result_unplanned_iff (by simp) (by simp)
  · rw [ne_eq, result_unplanned_iff (by simp) (by simp)]
    exact Plan.make_ne_noEgressIndex
  · rw [result_unplanned_iff (by simp) (by simp), Plan.make_ambiguous_iff]
  · rw [result_unplanned_iff (by simp) (by simp), Plan.make_unprocessed_iff]
  · rw [result_unlocated_iff, ← exists_congr fun v => @Plan.exists_make_iff d r.pool path v]
    constructor
    · rintro ⟨p, hplan, hfails⟩
      exact ⟨⟨p.variant, p, hplan, rfl⟩, by
        simpa using (Compilation.make_error_iff (Plan.make_ok (Prod.ext hplan rfl)) _).mp hfails⟩
    · rintro ⟨⟨_, p, hplan, -⟩, hop, hfirst, rfl⟩
      exact ⟨p, hplan, (Compilation.make_error_iff (Plan.make_ok (Prod.ext hplan rfl)) _).mpr
        ⟨hop, hfirst, rfl⟩⟩
  · rw [result_taken_iff, Plan.exists_make_iff]

def spreadDeployment : Deployment where
  topology :=
    { forwarders := []
      serviceFunctions :=
        [⟨"firewall", "firewall", [⟨"inside", .ip (.v4 10 0 0 2) none⟩], false⟩,
          ⟨"cache", "cache",
            [⟨"a", .logicalInterface "tap-a" none⟩, ⟨"b", .logicalInterface "tap-b" none⟩,
              ⟨"c", .logicalInterface "tap-c" none⟩], false⟩] }
  placements := ⟨[("tap-a", ⟨7⟩), ("tap-b", ⟨3⟩), ("tap-c", ⟨7⟩)], []⟩

def spreadPath : ServicePath where
  name := "spread"
  id := 4
  hops := [⟨"stray", "firewall", none, 2⟩, ⟨"edge", "cache", none, 1⟩]
  transport := .function
  encapsulation := .nsh
  startingIndex := 2
  direction := .forward

theorem render_verdict_spread :
    ((fresh spreadDeployment).render spreadDeployment spreadPath).result =
      .error (.ambiguousPlacement "cache" [⟨3⟩, ⟨7⟩]) := by
  obtain ⟨-, -, hambiguous, -⟩ :=
    render_verdict spreadDeployment (fresh spreadDeployment) spreadPath
  have hall : [⟨3⟩, ⟨7⟩] = spreadDeployment.placementsOf "cache" := by decide
  have hnone : spreadDeployment.placementsOf "firewall" = [] := by decide
  refine (hambiguous _ _).mpr ⟨HopGraph.checkHops_ok_iff.mp rfl,
    ⟨⟨"edge", "cache", none, 1⟩, ⟨[⟨"stray", "firewall", none, 2⟩], [], rfl, ?_, ?_⟩, rfl⟩,
    Deployment.eq_placementsOf_iff.mp hall⟩
  · exact ⟨⟨3⟩, ⟨7⟩, by decide, Deployment.mem_placementsOf.mp (by decide),
      Deployment.mem_placementsOf.mp (by decide)⟩
  · rintro hop hhop ⟨p, -, -, hp, -⟩
    cases List.mem_singleton.mp hhop
    rw [← Deployment.mem_placementsOf, hnone] at hp
    cases hp

end Renderer
end ServiceChain
