import Mathlib.Algebra.GroupWithZero.Nat
import ServiceChain.Proofs.DefaultsOnce
import ServiceChain.Proofs.GraphFidelity
import ServiceChain.Proofs.PlanVerdict

/-! Accounts of a run. Counts, events and records are kept at different points of a call; after any
calls they agree with each other and with the replies that were given, and the record alone tells
which switches count as initialized. -/
namespace ServiceChain

theorem Compilation.pending_stageEntry (d : Deployment) (p : Plan) (initialized : List SwitchId)
    (c : Compilation) (l : LocatedEntry) :
    (c.stageEntry d p initialized l).pending = (c.stageDefaults d initialized l).pending :=
  (foldl_stageLeg ⟨d.topology, d.config, p.graph.pathId⟩ p.variant (l.legs p.graph)).1

theorem Compilation.ascending_stageDefaults {d : Deployment} {initialized : List SwitchId}
    {c : Compilation} (h : c.pending.Pairwise (· < ·)) (l : LocatedEntry) :
    (c.stageDefaults d initialized l).pending.Pairwise (· < ·) := by
  have htrans : ∀ a b c : SwitchId, a < b → b < c → a < c := fun _ _ _ => String.lt_trans
  have htotal : ∀ a b : SwitchId, a ≠ b → ¬ a < b → b < a := fun a b hne hge =>
    Std.lt_of_le_of_ne (String.not_lt.mp hge) hne.symm
  unfold stageDefaults
  split
  · exact h
  · next switch _ =>
    split
    · exact h
    · exact Ordered.ascending_insert htrans htotal switch h

theorem Compilation.ascending_stageEntries {d : Deployment} {p : Plan}
    {initialized : List SwitchId} {c after : Compilation} {number : Nat} {entries : List HopEntry}
    (h : c.pending.Pairwise (· < ·))
    (hok : stageEntries d p initialized c number entries = .ok after) :
    after.pending.Pairwise (· < ·) := by
  induction entries generalizing c number with
  | nil =>
    cases hok
    exact h
  | cons entry rest ih =>
    obtain ⟨l, -, hrest⟩ := stageEntries_cons_ok hok
    have hentry : (c.stageEntry d p initialized l).pending.Pairwise (· < ·) := by
      rw [pending_stageEntry]
      exact ascending_stageDefaults h l
    exact ih hentry hrest

theorem saturate_add (a b : Nat) : saturate (saturate a + b) = saturate (a + b) := by
  simp only [saturate]
  omega

theorem saturate_of_lt {n : Nat} (h : n < UInt64.size) : saturate n = n := by
  simp only [saturate]
  omega

namespace RenderStats

def capped (s : RenderStats) : RenderStats where
  renders := saturate s.renders
  renderFailures := saturate s.renderFailures
  deletes := saturate s.deletes
  flowsCommitted := saturate s.flowsCommitted
  forwardersInitialized := saturate s.forwardersInitialized
  legsSkipped := saturate s.legsSkipped

/-- Every count has a number of 64 bits. -/
structure Fits (s : RenderStats) : Prop where
  renders : s.renders < UInt64.size
  renderFailures : s.renderFailures < UInt64.size
  deletes : s.deletes < UInt64.size
  flowsCommitted : s.flowsCommitted < UInt64.size
  forwardersInitialized : s.forwardersInitialized < UInt64.size
  legsSkipped : s.legsSkipped < UInt64.size

theorem Fits.capped {s : RenderStats} (h : s.Fits) : s.capped = s := by
  simp only [RenderStats.capped, saturate_of_lt h.renders, saturate_of_lt h.renderFailures,
    saturate_of_lt h.deletes, saturate_of_lt h.flowsCommitted,
    saturate_of_lt h.forwardersInitialized, saturate_of_lt h.legsSkipped]

end RenderStats

namespace Reply

def report? : Reply → Option RenderReport
  | render _ (.ok report) _ => some report
  | _ => none

def failure? : Reply → Option RenderError
  | render _ (.error e) _ => some e
  | _ => none

def deleted? : Reply → Option (List SwitchId)
  | delete _ (.ok switches) _ => some switches
  | _ => none

def trace : Reply → RenderTrace
  | render _ _ trace => trace
  | delete _ _ trace => trace

/-- How often calls succeeded and failed, and the sums over the reports. -/
def tally (log : List Reply) : RenderStats where
  renders := (log.filterMap report?).length
  renderFailures := (log.filterMap failure?).length
  deletes := (log.filterMap deleted?).length
  flowsCommitted := ((log.filterMap report?).map (·.flowsCommitted)).sum
  forwardersInitialized := ((log.filterMap report?).map (·.initialized.length)).sum
  legsSkipped := ((log.filterMap report?).map (·.skipped.length)).sum

/-- What a consumer is to be told of a call: of renders that were taken with the hops of the path
and their placements, of deletions, and of nothing else. -/
def event? (d : Deployment) : Reply → Option PathEvent
  | render path (.ok _) _ =>
    some (.rendered path.id path.name (path.hops.map d.hopSummary))
  | delete path (.ok _) _ => some (.removed path.id path.name)
  | _ => none

/-- What a call adds to the counts. -/
def count (stats : RenderStats) : Reply → RenderStats
  | render _ (.ok report) _ => stats.addRender report
  | render _ (.error _) _ => stats.addFailure
  | delete _ (.ok _) _ => stats.addDelete
  | delete _ (.error _) _ => stats

theorem tally_concat (log : List Reply) (reply : Reply) :
    (tally (log ++ [reply])).capped = reply.count (tally log).capped := by
  match reply with
  | render path (.ok report) trace =>
    simp [tally, count, RenderStats.capped, RenderStats.addRender, List.filterMap_cons, report?,
      failure?, deleted?, saturate_add]
  | render path (.error e) trace =>
    simp [tally, count, RenderStats.capped, RenderStats.addFailure, List.filterMap_cons, report?,
      failure?, deleted?, saturate_add]
  | delete path (.ok switches) trace =>
    simp [tally, count, RenderStats.capped, RenderStats.addDelete, List.filterMap_cons, report?,
      failure?, deleted?, saturate_add]
  | delete path (.error e) trace =>
    simp [tally, count, List.filterMap_cons, report?, failure?, deleted?]

end Reply

/-- The error arises once the path has a plan: while flows are staged, or when they are
committed. -/
def RenderError.followsPlan : RenderError → Bool
  | unresolvedForwarder _ | flowSink _ => true
  | _ => false

namespace AuditRecord

/-- What a record is about, and how that ended. -/
def gist (record : AuditRecord) : AuditCategory × AuditOutcome × Option String :=
  (record.category, record.outcome, record.objectId)

def nodes (record : AuditRecord) : List SwitchId :=
  match record.details with
  | some (.record members) =>
    (((members.lookup "nodes").bind fun d => (d.toList (·.toText)).toOption)).getD []
  | _ => []

def applyTo (switches : List SwitchId) (record : AuditRecord) : List SwitchId :=
  match record.category, record.outcome with
  | .forwarderInit, .success => Ordered.insertAll record.objectId.toList switches
  | .pathDelete, .success => Ordered.without switches record.nodes
  | _, _ => switches

/-- The switches that count as initialized, as the records tell it. -/
def replay (records : List AuditRecord) : List SwitchId := records.foldl applyTo []

theorem nodes_deleted (path : PathId) (switches : List SwitchId) :
    (deleted path switches).nodes = switches := by
  have hread : (Document.ofList Document.text switches).toList (·.toText) = .ok switches := by
    apply Document.toList_ofList
    intro switch
    rfl
  have hfound : (deleted path switches).details =
      some (.record [("nodes", .ofList .text switches)]) := rfl
  simp [nodes, hfound, hread, Except.toOption]

theorem foldl_applyTo_rendered (path : ServicePath) (report : RenderReport)
    (listed switches : List SwitchId) :
    (listed.map initialized ++ [rendered path report]).foldl applyTo switches =
      Ordered.insertAll listed switches := by
  rw [List.foldl_append, List.foldl_map]
  rfl

theorem map_gist_rendered (path : ServicePath) (report : RenderReport)
    (listed : List SwitchId) :
    (listed.map initialized ++ [rendered path report]).map gist =
      listed.map (fun switch => (.forwarderInit, .success, some switch)) ++
        [(.pathRender, .success, some (toString path.id.toNat))] := by
  rw [List.map_append, List.map_map]
  rfl

end AuditRecord

def Reply.gists : Reply → List (AuditCategory × AuditOutcome × Option String)
  | render path (.ok report) _ =>
    report.initialized.map (fun switch => (.forwarderInit, .success, some switch)) ++
      [(.pathRender, .success, some (toString path.id.toNat))]
  | render path (.error e) _ =>
    (if e.followsPlan then [(.rollback, .failure, some (toString path.id.toNat))] else []) ++
      [(.pathRender, .failure, some (toString path.id.toNat))]
  | delete path (.ok _) _ => [(.pathDelete, .success, some (toString path.id.toNat))]
  | delete path (.error _) _ => [(.pathDelete, .failure, some (toString path.id.toNat))]

/-- A reply whose call told the consumer and put on record what the reply says, with the switches
that got their default flows in ascending order. -/
structure Reply.Told (d : Deployment) (reply : Reply) : Prop where
  events : reply.trace.events = (reply.event? d).toList
  records : reply.trace.records.map AuditRecord.gist = reply.gists
  ascending : ∀ report, reply.report? = some report → report.initialized.Pairwise (· < ·)

namespace Reply

theorem events_of_told {d : Deployment} {log : List Reply} (h : ∀ reply ∈ log, reply.Told d) :
    log.flatMap (·.trace.events) = log.filterMap (event? d) := by
  induction log with
  | nil => rfl
  | cons reply rest ih =>
    have hreply := (h reply (List.mem_cons_self ..)).events
    have hrest := ih fun other hother => h other (List.mem_cons_of_mem _ hother)
    rw [List.flatMap_cons, List.filterMap_cons, hreply, hrest]
    cases reply.event? d with
    | none => rfl
    | some event => rfl

end Reply

theorem Plan.followsPlan_of_error {d : Deployment} {pool after : VlanPool} {path : ServicePath}
    {e : RenderError} (h : make d pool path = (.error e, after)) : e.followsPlan = false := by
  have hplan : (make d pool path).1 = .error e := congrArg Prod.fst h
  rcases make_error_iff.mp hplan with hbuild | ⟨_, -, -, rfl⟩
  · rcases HopGraph.build_error hbuild with ⟨defect, rfl⟩ | ⟨function, several, rfl⟩ <;> rfl
  · rfl

namespace Renderer

variable {σ : Type} {d : Deployment} {r : Renderer σ}

/-- What the renderer counted, told and put on record agrees with the replies of the run. -/
structure Accounts (d : Deployment) (log : List Reply) (r : Renderer σ) : Prop where
  stats : r.stats = (Reply.tally log).capped
  told : ∀ reply ∈ log, reply.Told d
  initialized : AuditRecord.replay (log.flatMap (·.trace.records)) = r.initialized

/-- What one call must do for the accounts of a run to agree after it, if they did before. -/
structure KeepsAccount (d : Deployment) (r : Renderer σ) (reply : Reply) (after : Renderer σ) :
    Prop where
  stats : after.stats = reply.count r.stats
  told : reply.Told d
  initialized : reply.trace.records.foldl AuditRecord.applyTo r.initialized = after.initialized

namespace Accounts

variable {log : List Reply}

theorem start (d : Deployment) (sink : σ) : Accounts d [] (Renderer.start d sink) where
  stats := rfl
  told := by simp
  initialized := rfl

theorem concat {reply : Reply} {after : Renderer σ} (h : r.Accounts d log)
    (hkeeps : r.KeepsAccount d reply after) : after.Accounts d (log ++ [reply]) where
  stats := by rw [hkeeps.stats, h.stats, Reply.tally_concat]
  told := by
    intro other hother
    rcases List.mem_append.mp hother with hbefore | hlast
    · exact h.told other hbefore
    · rw [List.mem_singleton.mp hlast]
      exact hkeeps.told
  initialized := by
    have hbefore := h.initialized
    simp only [AuditRecord.replay] at hbefore ⊢
    rw [List.flatMap_append, List.flatMap_singleton, List.foldl_append, hbefore,
      hkeeps.initialized]

end Accounts

variable [FlowDestination σ] {path : ServicePath}

theorem followsPlan_iff {e : RenderError} (h : (r.render d path).result = .error e) :
    e.followsPlan ↔ ∃ p, (Plan.make d r.pool path).1 = .ok p := by
  rw [result_render] at h
  have hpool : Plan.make d (r.markInFlight path.id).pool path = Plan.make d r.pool path := rfl
  have hcases := attempt_cases d (r.markInFlight path.id) path
  generalize (r.markInFlight path.id).attempt d path = o at h hcases
  cases hcases with
  | unplanned hplan =>
    cases h
    have hearly := Plan.followsPlan_of_error hplan
    rw [hpool] at hplan
    simp [hearly, hplan]
  | @unlocated p _ _ _ hplan hmake =>
    cases h
    obtain ⟨name, rfl⟩ := Compilation.stageEntries_error hmake
    exact iff_of_true rfl ⟨p, congrArg Prod.fst hplan⟩
  | @refused p _ _ _ hplan hmake hflush =>
    cases h
    exact iff_of_true rfl ⟨p, congrArg Prod.fst hplan⟩
  | taken hplan hmake hflush => cases h

theorem keepsAccount_render (d : Deployment) (r : Renderer σ) (path : ServicePath) :
    r.KeepsAccount d (.render path (r.render d path).result (r.render d path).trace)
      (r.render d path).renderer := by
  have hcases := attempt_cases d (r.markInFlight path.id) path
  simp only [render]
  generalize (r.markInFlight path.id).attempt d path = o at hcases ⊢
  cases hcases with
  | unplanned hplan =>
    have hearly := Plan.followsPlan_of_error hplan
    refine ⟨rfl, ⟨rfl, ?_, fun _ h => by cases h⟩, rfl⟩
    simp only [settle, Reply.gists, hearly]
    rfl
  | unlocated hplan hmake =>
    obtain ⟨name, rfl⟩ := Compilation.stageEntries_error hmake
    exact ⟨rfl, ⟨rfl, rfl, fun _ h => by cases h⟩, rfl⟩
  | refused hplan hmake hflush => exact ⟨rfl, ⟨rfl, rfl, fun _ h => by cases h⟩, rfl⟩
  | @taken p _ c sink hplan hmake hflush =>
    have hp : p.Carries d path := Plan.make_ok hplan
    refine ⟨rfl, ⟨congrArg ([·]) (PathEvent.ofGraph_eq hp.entries), ?_, ?_⟩, ?_⟩
    · exact AuditRecord.map_gist_rendered path _ c.pending
    · rintro report hreport
      cases hreport
      exact Compilation.ascending_stageEntries .nil hmake
    · exact AuditRecord.foldl_applyTo_rendered path _ c.pending r.initialized

theorem keepsAccount_delete (d : Deployment) (r : Renderer σ) (path : ServicePath) :
    r.KeepsAccount d (.delete path (r.delete path).result (r.delete path).trace)
      (r.delete path).renderer := by
  simp only [delete]
  split
  · exact ⟨rfl, ⟨rfl, rfl, fun _ h => by cases h⟩, rfl⟩
  · next switches _ _ =>
    refine ⟨rfl, ⟨rfl, rfl, fun _ h => by cases h⟩, ?_⟩
    exact congrArg (Ordered.without r.initialized ·) (AuditRecord.nodes_deleted path.id switches)

theorem Reached.accounts {sink : σ} {log : List Reply} (h : Reached d sink log r) :
    r.Accounts d log := by
  induction h with
  | start => exact .start d sink
  | render _ path ih => exact ih.concat (keepsAccount_render d _ path)
  | delete _ path ih => exact ih.concat (keepsAccount_delete d _ path)
  | disturb _ _ ih => exact ⟨ih.stats, ih.told, ih.initialized⟩

/-- After any calls the counts are the sums over the replies, the consumer was told of every taken
call in turn, every call put on record what its reply says, and the records alone give the switches
that count as initialized. A failed render has thrown flows away exactly if it had a plan. -/
theorem Reached.accounts_agree {sink : σ} {log : List Reply} (h : Reached d sink log r) :
    ((Reply.tally log).Fits → r.stats = Reply.tally log) ∧
      log.flatMap (·.trace.events) = log.filterMap (Reply.event? d) ∧
      (∀ reply ∈ log, reply.trace.records.map AuditRecord.gist = reply.gists) ∧
      (∀ report ∈ log.filterMap Reply.report?, report.initialized.Pairwise (· < ·)) ∧
      (∀ path e, (r.render d path).result = .error e →
        (e.followsPlan ↔ ∃ p, (Plan.make d r.pool path).1 = .ok p)) ∧
      AuditRecord.replay (log.flatMap (·.trace.records)) = r.initialized := by
  have haccounts : r.Accounts d log := h.accounts
  have hevents := Reply.events_of_told haccounts.told
  refine ⟨fun hfits => ?_, hevents, fun reply hreply => ?_, fun report hreport => ?_, ?_, ?_⟩
  · rw [haccounts.stats, hfits.capped]
  · exact (haccounts.told reply hreply).records
  · obtain ⟨reply, hreply, hreported⟩ := List.mem_filterMap.mp hreport
    exact (haccounts.told reply hreply).ascending report hreported
  · exact fun path e he => followsPlan_iff he
  · exact haccounts.initialized

def strayRendered : Renderer :=
  ((((fresh strayDeployment).render strayDeployment edgePath).renderer.delete
    edgePath).renderer.render strayDeployment strayPath).renderer

theorem accounts_agree_stray :
    ∃ log, Reached strayDeployment ({} : FlowSink) log strayRendered ∧
      strayRendered.stats = Reply.tally log ∧
      (strayRendered.stats.renders, strayRendered.stats.renderFailures,
        strayRendered.stats.deletes) = (1, 1, 1) ∧
      log.flatMap (·.trace.events) =
        [.rendered 1 "edge" [⟨"edge", "firewall", 255, none⟩], .removed 1 "edge"] ∧
      (log.flatMap (·.trace.records)).map AuditRecord.gist =
        [(.forwarderInit, .success, some "openflow:1"), (.pathRender, .success, some "1"),
          (.pathDelete, .success, some "1"), (.rollback, .failure, some "9"),
          (.pathRender, .failure, some "9")] ∧
      AuditRecord.replay (log.flatMap (·.trace.records)) = [] := by
  have hreached : Reached strayDeployment ({} : FlowSink) _ strayRendered :=
    ((Reached.start.render edgePath).delete edgePath).render strayPath
  obtain ⟨hstats, hevents, hrecords, -, -, hreplay⟩ := hreached.accounts_agree
  refine ⟨_, hreached, hstats ?_, rfl, hevents.trans rfl, ?_, hreplay⟩
  · constructor <;> decide +kernel
  · rw [List.map_flatMap]
    exact (List.flatMap_congr hrecords).trans rfl

end Renderer
end ServiceChain
