import ServiceChain.Proofs.HopChain
import ServiceChain.Render.Renderer

/-! How a render comes out: without a plan, without a switch for some forwarder, refused by the
sink, or taken. A render that fails leaves nothing behind but the count of failures. -/
namespace ServiceChain

theorem LocatedEntry.switchOf_error {t : Topology} {point : Endpoint}
    {placement : Option Placement} {e : RenderError}
    (h : switchOf t point placement = .error e) : ∃ name, e = .unresolvedForwarder name := by
  simp only [switchOf] at h
  split at h
  · cases h
  · next name _ =>
    split at h
    · cases h
    · cases h; exact ⟨name, rfl⟩

theorem LocatedEntry.locate_error {t : Topology} {number : Nat} {entry : HopEntry}
    {e : RenderError} (h : locate t number entry = .error e) :
    ∃ name, e = .unresolvedForwarder name := by
  rcases bind_eq_error.mp h with h | ⟨dst, _, h⟩
  · exact switchOf_error h
  · rcases bind_eq_error.mp h with h | ⟨src, _, h⟩
    · exact switchOf_error h
    · cases h

theorem Compilation.stageEntries_error {d : Deployment} {p : Plan} {initialized : List SwitchId}
    {c : Compilation} {number purged : Nat} {entries : List HopEntry} {e : RenderError}
    (h : stageEntries d p initialized c number entries = .error (e, purged)) :
    ∃ name, e = .unresolvedForwarder name := by
  induction entries generalizing c number with
  | nil => cases h
  | cons entry rest ih =>
    simp only [stageEntries] at h
    split at h
    · next hlocate => cases h; exact LocatedEntry.locate_error hlocate
    · exact ih h

theorem FlowBatch.flush_error {σ : Type} [FlowDestination σ] {b : FlowBatch} {sink : σ}
    {fault : SinkFault} (h : b.flush sink = .error fault) :
    (b.offer sink).asked = some b.flows := by
  unfold flush at h
  unfold offer at h ⊢
  split at h
  · cases h
  · next hflows => rw [if_neg hflows]

theorem FlowBatch.flatMap_asked {σ : Type} [FlowDestination σ] (b : FlowBatch) (sink : σ)
    (inFlight : List PathId) :
    ((b.offer sink).asked.map fun batch => (⟨batch, inFlight⟩ : CommitAttempt)).toList.flatMap
      (·.batch) = b.flows := by
  by_cases hempty : b.flows = [] <;> simp [offer, hempty]

theorem FlowBatch.flush_ok_iff {b : FlowBatch} {sink : FlowSink} :
    (∃ after, b.flush sink = .ok after) ↔ b.flows = [] ∨ sink.fault = none := by
  by_cases hempty : b.flows = []
  · simp [flush_eq, hempty]
  · cases hfault : sink.fault <;>
      simp [flush_eq, hempty, hfault, FlowDestination.commit, FlowSink.commit]

def RenderTrace.offered (t : RenderTrace) : List Flow := t.attempts.flatMap (·.batch)

namespace Renderer

variable {σ : Type} [FlowDestination σ]

/-- The outcomes of an attempt. -/
inductive Attempted (d : Deployment) (r : Renderer σ) (path : ServicePath) :
    Outcome RenderReport σ → Prop
  | unplanned {e : RenderError} {pool : VlanPool}
      (hplan : Plan.make d r.pool path = (.error e, pool)) :
      Attempted d r path { result := .error e, renderer := { r with pool }, trace := {} }
  | unlocated {p : Plan} {pool : VlanPool} {e : RenderError} {purged : Nat}
      (hplan : Plan.make d r.pool path = (.ok p, pool))
      (hmake : Compilation.make d p r.initialized = .error (e, purged)) :
      Attempted d r path
        { result := .error e
          renderer := { r with pool }
          trace := { records := [.rolledBack path.id e purged] } }
  | refused {p : Plan} {pool : VlanPool} {c : Compilation} {fault : SinkFault}
      (hplan : Plan.make d r.pool path = (.ok p, pool))
      (hmake : Compilation.make d p r.initialized = .ok c)
      (hflush : c.batch.flush r.sink = .error fault) :
      Attempted d r path
        { result := .error (.flowSink fault)
          renderer := { r with pool }
          trace :=
            { attempts := [⟨c.batch.flows, r.inFlight⟩]
              records := [.rolledBack path.id (.flowSink fault) 0] } }
  | taken {p : Plan} {pool : VlanPool} {c : Compilation} {sink : σ}
      (hplan : Plan.make d r.pool path = (.ok p, pool))
      (hmake : Compilation.make d p r.initialized = .ok c)
      (hflush : c.batch.flush r.sink = .ok sink) :
      Attempted d r path
        { result :=
            .ok ⟨path.id, p.variant, p.graph.isLogical, c.batch.size, c.pending, c.skipped⟩
          renderer :=
            { r with
              sink
              pool
              initialized := Ordered.insertAll c.pending r.initialized }
          trace :=
            { attempts := ((c.batch.offer r.sink).asked.map fun batch => ⟨batch, r.inFlight⟩).toList
              events := [.ofGraph path p.graph]
              records := c.pending.map .initialized } }

theorem attempt_cases (d : Deployment) (r : Renderer σ) (path : ServicePath) :
    Attempted d r path (r.attempt d path) := by
  rcases hplan : Plan.make d r.pool path with ⟨plan, pool⟩
  cases plan with
  | error e =>
    simp only [attempt, hplan]
    exact .unplanned hplan
  | ok p =>
    cases hmake : Compilation.make d p r.initialized with
    | error err =>
      obtain ⟨e, purged⟩ := err
      simp only [attempt, hplan, hmake]
      exact .unlocated hplan hmake
    | ok c =>
      cases hflush : c.batch.flush r.sink with
      | error fault =>
        simp only [attempt, hplan, hmake, commit, hflush, FlowBatch.flush_error hflush]
        exact .refused hplan hmake hflush
      | ok sink =>
        simp only [attempt, hplan, hmake, commit, hflush]
        exact .taken hplan hmake hflush

/-- A failed attempt changes only the pool, and asks the destination only if that refuses. -/
theorem Attempted.of_error {d : Deployment} {r : Renderer σ} {path : ServicePath}
    {o : Outcome RenderReport σ} {e : RenderError} (h : Attempted d r path o)
    (he : o.result = .error e) :
    (∃ pool, o.renderer = { r with pool }) ∧ o.trace.events = [] ∧
      ((∀ fault, e ≠ .flowSink fault) → o.trace.attempts = []) ∧
      ∀ fault, e = .flowSink fault → o.trace.attempts.length = 1 := by
  cases h with
  | @unplanned _ pool hplan =>
    cases he
    have hsink := Plan.make_error hplan
    exact ⟨⟨pool, rfl⟩, rfl, fun _ => rfl, fun fault hfault => absurd hfault (hsink fault)⟩
  | @unlocated _ pool _ _ hplan hmake =>
    cases he
    obtain ⟨name, rfl⟩ := Compilation.stageEntries_error hmake
    exact ⟨⟨pool, rfl⟩, rfl, fun _ => rfl, fun fault hfault => by cases hfault⟩
  | @refused _ pool _ fault hplan hmake hflush =>
    cases he
    exact ⟨⟨pool, rfl⟩, rfl, fun hne => absurd rfl (hne fault), fun _ _ => rfl⟩
  | taken hplan hmake hflush => cases he

theorem result_render (d : Deployment) (r : Renderer σ) (path : ServicePath) :
    (r.render d path).result = ((r.markInFlight path.id).attempt d path).result := by
  simp only [render, settle]
  split <;> simp [*]

/-- A render that is taken commits the compilation of its plan. -/
theorem render_taken {d : Deployment} {r : Renderer σ} {path : ServicePath} {report : RenderReport}
    (h : (r.render d path).result = .ok report) :
    ∃ p c, (Plan.make d r.pool path).1 = .ok p ∧ Compilation.make d p r.initialized = .ok c ∧
      c.batch.flush r.sink = .ok (r.render d path).renderer.sink ∧
      report = ⟨path.id, p.variant, p.graph.isLogical, c.batch.size, c.pending, c.skipped⟩ ∧
      (r.render d path).renderer.initialized = Ordered.insertAll c.pending r.initialized ∧
      (r.render d path).trace.offered = c.batch.flows := by
  rw [result_render] at h
  have hcases := attempt_cases d (r.markInFlight path.id) path
  simp only [render]
  generalize (r.markInFlight path.id).attempt d path = o at h hcases ⊢
  cases hcases with
  | unplanned hplan => cases h
  | unlocated hplan hmake => cases h
  | refused hplan hmake hflush => cases h
  | @taken p _ c _ hplan hmake hflush =>
    cases h
    refine ⟨p, c, congrArg Prod.fst hplan, hmake, hflush, rfl, rfl, ?_⟩
    exact c.batch.flatMap_asked r.sink _

theorem render_ok {d : Deployment} {r : Renderer σ} {path : ServicePath} {report : RenderReport}
    (h : (r.render d path).result = .ok report) :
    ∃ p c, p.Carries d path ∧ Compilation.make d p r.initialized = .ok c ∧
      c.batch.flush r.sink = .ok (r.render d path).renderer.sink ∧
      report = ⟨path.id, p.variant, p.graph.isLogical, c.batch.size, c.pending, c.skipped⟩ ∧
      (r.render d path).renderer.initialized = Ordered.insertAll c.pending r.initialized ∧
      (r.render d path).trace.offered = c.batch.flows := by
  obtain ⟨p, c, hplan, htaken⟩ := render_taken h
  exact ⟨p, c, Plan.make_ok (Prod.ext hplan rfl), htaken⟩

theorem result_render_of_flush {d : Deployment} {r : Renderer σ} {path : ServicePath} {p : Plan}
    {c : Compilation} {sink : σ} (hplan : (Plan.make d r.pool path).1 = .ok p)
    (hmake : Compilation.make d p r.initialized = .ok c)
    (hflush : c.batch.flush r.sink = .ok sink) :
    (r.render d path).result =
      .ok ⟨path.id, p.variant, p.graph.isLogical, c.batch.size, c.pending, c.skipped⟩ := by
  obtain ⟨pool, hmade⟩ : ∃ pool, Plan.make d r.pool path = (.ok p, pool) :=
    ⟨_, Prod.ext hplan rfl⟩
  rw [result_render]
  simp only [attempt, markInFlight, hmade, hmake, commit, hflush]

/-- The sink of a taken render is that which took the flows offered; without flows it was not
asked. -/
theorem sink_render {d : Deployment} {r : Renderer σ} {path : ServicePath} {report : RenderReport}
    (h : (r.render d path).result = .ok report) :
    (r.render d path).trace.offered = [] ∧ (r.render d path).renderer.sink = r.sink ∨
      FlowDestination.commit r.sink (r.render d path).trace.offered =
        .ok (r.render d path).renderer.sink := by
  obtain ⟨p, c, -, -, hflush, -, -, hoffered⟩ := render_ok h
  rw [hoffered]
  rw [FlowBatch.flush_eq] at hflush
  split at hflush
  · next hempty => exact Or.inl ⟨by simpa using hempty, (Except.ok.inj hflush).symm⟩
  · exact Or.inr hflush

theorem commit_render {d : Deployment} {r : Renderer σ} {path : ServicePath} {report : RenderReport}
    (h : (r.render d path).result = .ok report) {flow : Flow}
    (hflow : flow ∈ (r.render d path).trace.offered) :
    FlowDestination.commit r.sink (r.render d path).trace.offered =
      .ok (r.render d path).renderer.sink := by
  rcases sink_render h with ⟨hnone, -⟩ | hcommit
  · rw [hnone] at hflow
    cases hflow
  · exact hcommit

theorem commit_of_offered {d : Deployment} {r : Renderer σ} {path : ServicePath}
    {report : RenderReport} (h : (r.render d path).result = .ok report)
    (hsome : (r.render d path).trace.offered ≠ []) :
    FlowDestination.commit r.sink (r.render d path).trace.offered =
      .ok (r.render d path).renderer.sink :=
  (sink_render h).resolve_left fun ⟨hnone, _⟩ => hsome hnone

/-- A failed render touches the pool, the count of failures and nothing else. -/
theorem render_error {d : Deployment} {r : Renderer σ} {path : ServicePath} {e : RenderError}
    (h : (r.render d path).result = .error e) :
    ∃ pool, (r.render d path).renderer =
      { r with
        pool
        stats := r.stats.addFailure
        inFlight := Ordered.without (Ordered.insert path.id r.inFlight) [path.id] } := by
  rw [result_render] at h
  obtain ⟨⟨pool, hpool⟩, -⟩ := (attempt_cases d (r.markInFlight path.id) path).of_error h
  refine ⟨pool.abandon path.id, ?_⟩
  simp only [render, settle, h, hpool]
  rfl

/-- A failed render is atomic: the destination, the initialized switches and all counts but that
of failures stay as they were, nobody is told of an event, and the destination was asked only if
it was the one to refuse. -/
theorem render_error_atomic (d : Deployment) (r : Renderer σ) (path : ServicePath)
    (e : RenderError) (h : (r.render d path).result = .error e) :
    (r.render d path).renderer.sink = r.sink ∧
      (r.render d path).renderer.initialized = r.initialized ∧
      (r.render d path).renderer.stats =
        { r.stats with renderFailures := saturate (r.stats.renderFailures + 1) } ∧
      (r.stats.renderFailures + 1 < UInt64.size →
        (r.render d path).renderer.stats.renderFailures = r.stats.renderFailures + 1) ∧
      (r.render d path).trace.events = [] ∧
      path.id ∉ (r.render d path).renderer.inFlight ∧
      ((∀ fault, e ≠ .flowSink fault) → (r.render d path).trace.attempts = []) ∧
      ∀ fault, e = .flowSink fault → (r.render d path).trace.attempts.length = 1 := by
  obtain ⟨pool, hstate⟩ := render_error h
  rw [result_render] at h
  obtain ⟨-, hevents, hunasked, hasked⟩ :=
    (attempt_cases d (r.markInFlight path.id) path).of_error h
  have hcount (hlt : r.stats.renderFailures + 1 < UInt64.size) :
      saturate (r.stats.renderFailures + 1) = r.stats.renderFailures + 1 := by
    simp only [saturate]
    omega
  have htrace : (r.render d path).trace =
      ((r.markInFlight path.id).attempt d path).trace.withRecord (.renderFailed path e) := by
    simp [render, settle, h]
  rw [hstate, htrace]
  exact ⟨rfl, rfl, rfl, hcount, hevents, by simp, hunasked, hasked⟩

def strayDeployment : Deployment where
  topology :=
    { forwarders :=
        [⟨"edge", some "openflow:1", [], [⟨"firewall", "inside", none, some 1, none⟩], none, none,
            none⟩,
          ⟨"stray", none, [], [], none, none, none⟩]
      serviceFunctions :=
        [⟨"firewall", "firewall", [⟨"inside", .ip (.v4 10 0 0 2) none⟩], false⟩] }

def strayPath : ServicePath where
  name := "stray"
  id := 9
  hops := [⟨"edge", "firewall", none, 255⟩, ⟨"stray", "firewall", none, 254⟩]
  transport := .vxlanGpe
  encapsulation := .nsh
  startingIndex := 255
  direction := .forward

theorem render_stray_atomic :
    ((fresh strayDeployment).render strayDeployment strayPath).result =
        .error (.unresolvedForwarder "stray") ∧
      ((fresh strayDeployment).render strayDeployment strayPath).renderer.sink = {} ∧
      ((fresh strayDeployment).render strayDeployment strayPath).renderer.initialized = [] ∧
      ((fresh strayDeployment).render strayDeployment strayPath).trace.attempts = [] := by
  have h := render_error_atomic strayDeployment (fresh strayDeployment) strayPath
    (.unresolvedForwarder "stray") rfl
  obtain ⟨hsink, hinitialized, -, -, -, -, hunasked, -⟩ := h
  exact ⟨rfl, hsink, hinitialized, hunasked fun fault hfault => by cases hfault⟩

end Renderer
end ServiceChain
