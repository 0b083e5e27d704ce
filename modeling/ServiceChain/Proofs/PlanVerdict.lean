import ServiceChain.Proofs.PathChecks

/-! Which paths have a plan and can be compiled, and what is said against the others: in this order
their indices, a function on several placements, no transport, an unknown switch. -/
namespace ServiceChain

namespace HopGraph

variable {d : Deployment} {path : ServicePath}

theorem build_error_iff {e : RenderError} : build d.topology d.placements path = .error e ↔
    (∃ defect, checkHops path = .error defect ∧ e = .malformedPath path.id defect) ∨
      path.CountsDown ∧ ∃ hop, FirstWith d.Spread path.hops hop ∧
        e = .ambiguousPlacement hop.serviceFunction (d.placementsOf hop.serviceFunction) := by
  have hpair : ∀ hop e, (do
      let placement ← placementOf d.topology d.placements hop.serviceFunction
      return (hop, placement) : Except RenderError (Hop × Option Placement)) = .error e ↔
        placementOf d.topology d.placements hop.serviceFunction = .error e := by
    intro hop e
    cases placementOf d.topology d.placements hop.serviceFunction <;>
      simp [bind, Except.bind, pure, Except.pure]
  unfold build
  cases hchecked : checkHops path with
  | error defect =>
    have hnot : ¬ path.CountsDown := fun h => by simp [checkHops_ok_iff.mpr h] at hchecked
    simp [hnot, throw, throwThe, MonadExceptOf.throw, eq_comm]
  | ok =>
    have hcounts := checkHops_ok_iff.mp hchecked
    -- once the hops are checked, taking one off the last index cannot fail
    obtain ⟨_, -, -, hegress, -⟩ := exists_egressIndex hchecked
    simp only [bind_eq_error, mapM_error_iff, hpair, hegress, ← Deployment.spread_iff_error]
    simp only [hcounts, true_and, reduceCtorEq, false_and, exists_false, false_or, pure,
      Except.pure, and_false, or_false]
    exact exists_congr fun hop => and_congr_right fun hfirst =>
      Deployment.placementOf_error_iff.trans (and_iff_right hfirst.holds)

theorem exists_build_iff : (∃ g, build d.topology d.placements path = .ok g) ↔
    path.CountsDown ∧ ∀ hop ∈ path.hops, ¬ d.Spread hop := by
  cases hbuild : build d.topology d.placements path with
  | ok g =>
    obtain ⟨hchecked, -, hplaced⟩ := build_ok hbuild
    refine iff_of_true ⟨g, rfl⟩ ⟨checkHops_ok_iff.mp hchecked, fun hop hhop hspread => ?_⟩
    obtain ⟨e, he⟩ := Deployment.spread_iff_error.mp hspread
    simp [hplaced hop hhop] at he
  | error e =>
    refine iff_of_false (by simp) fun ⟨hcounts, hnone⟩ => ?_
    rcases build_error_iff.mp hbuild with ⟨defect, hchecked, -⟩ | ⟨-, hop, hfirst, -⟩
    · simp [checkHops_ok_iff.mpr hcounts] at hchecked
    · exact hnone hop hfirst.mem hfirst.holds

theorem any_chain (path : ServicePath) (egress : ServiceIndex) (origin : Departure)
    (hops : List (Hop × Option Placement)) :
    ((chain path egress origin hops).any fun e => e.dstPlacement.isSome || e.srcPlacement.isSome) =
      (origin.placement.isSome || hops.any (·.2.isSome)) := by
  induction hops generalizing origin with
  | nil => simp [chain, finalEntry]
  | cons hop rest ih =>
    simp only [chain, List.any_cons, ih, entryTo]
    cases origin.placement.isSome <;> cases hop.2.isSome <;> rfl

theorem build_ne_noEgressIndex {id : PathId} :
    build d.topology d.placements path ≠ .error (.malformedPath id .noEgressIndex) := by
  simp only [ne_eq, build_error_iff, RenderError.malformedPath.injEq, reduceCtorEq, and_false,
    exists_false, or_false]
  rintro ⟨defect, hchecked, -, rfl⟩
  exact checkHops_ne_noEgressIndex hchecked

theorem isLogical_iff {g : HopGraph} (h : build d.topology d.placements path = .ok g) :
    g.isLogical ↔ ∃ hop ∈ path.hops, d.Placed hop := by
  obtain ⟨-, rfl, -⟩ := build_ok h
  obtain ⟨-, hnone⟩ := exists_build_iff.mp ⟨_, h⟩
  simp only [isLogical, chainOf, any_chain, Option.isSome_none, Bool.false_or, List.any_map,
    List.any_eq_true, Function.comp_apply]
  exact exists_congr fun hop => and_congr_right fun hhop =>
    Deployment.placementFor_isSome_iff (hnone hop hhop)

end HopGraph

namespace Variant

/-- The declared pairs of transport and encapsulation, each with the transport that carries it. -/
def declaredPairs : List ((Transport × Encapsulation) × Variant) :=
  [((.vxlanGpe, .nsh), nshTunnel), ((.mac, .nsh), nshEthernet), ((.mpls, .transparent), mpls),
    ((.mac, .transparent), vlan), ((.mac, .macChaining), macChaining)]

theorem declared?_eq_some_iff {t : Transport} {e : Encapsulation} {v : Variant} :
    declared? t e = some v ↔ ((t, e), v) ∈ declaredPairs := by
  cases t <;> cases e <;> simp [declared?, declaredPairs, eq_comm]

end Variant

theorem Variant.forPath?_eq_some_iff {d : Deployment} {path : ServicePath} {g : HopGraph}
    (h : HopGraph.build d.topology d.placements path = .ok g) {v : Variant} :
    forPath? path g = some v ↔
      (∃ hop ∈ path.hops, d.Placed hop) ∧ v = .logicalForwarder ∨
        (∀ hop ∈ path.hops, ¬ d.Placed hop) ∧
          ((path.transport, path.encapsulation), v) ∈ declaredPairs := by
  rw [← declared?_eq_some_iff]
  unfold forPath?
  by_cases hplaced : ∃ hop ∈ path.hops, d.Placed hop
  · have hnot : ¬ ∀ hop ∈ path.hops, ¬ d.Placed hop := fun hnone =>
      let ⟨hop, hhop, hp⟩ := hplaced
      hnone hop hhop hp
    rw [if_pos ((HopGraph.isLogical_iff h).mpr hplaced)]
    simp only [hplaced, hnot, true_and, false_and, or_false, Option.some.injEq]
    exact eq_comm
  · have hnone : ∀ hop ∈ path.hops, ¬ d.Placed hop := fun hop hhop hp =>
      hplaced ⟨hop, hhop, hp⟩
    rw [if_neg fun hlogical => hplaced ((HopGraph.isLogical_iff h).mp hlogical)]
    simp only [hplaced, false_and, false_or, and_iff_right hnone]

/-- The path has service indices in order, its functions are not on several placements each, and it
is carried by this transport: logical forwarders if some function is placed, else the declared
one. -/
structure Deployment.Carries (d : Deployment) (path : ServicePath) (v : Variant) : Prop where
  countsDown : path.CountsDown
  unambiguous : ∀ hop ∈ path.hops, ¬ d.Spread hop
  variant : (∃ hop ∈ path.hops, d.Placed hop) ∧ v = .logicalForwarder ∨
    (∀ hop ∈ path.hops, ¬ d.Placed hop) ∧
      ((path.transport, path.encapsulation), v) ∈ Variant.declaredPairs

namespace Plan

variable {d : Deployment} {pool : VlanPool} {path : ServicePath}

theorem make_error_iff {e : RenderError} : (make d pool path).1 = .error e ↔
    HopGraph.build d.topology d.placements path = .error e ∨
      ∃ g, HopGraph.build d.topology d.placements path = .ok g ∧ Variant.forPath? path g = none ∧
        e = .noTransportProcessor path.transport path.encapsulation := by
  unfold make
  cases hbuild : HopGraph.build d.topology d.placements path with
  | error other => simp
  | ok g => cases hvariant : Variant.forPath? path g <;> simp [hvariant, eq_comm]

theorem exists_make_iff {v : Variant} :
    (∃ p, (make d pool path).1 = .ok p ∧ p.variant = v) ↔ d.Carries path v := by
  unfold make
  cases hbuild : HopGraph.build d.topology d.placements path with
  | error other =>
    refine iff_of_false (by simp) fun h => ?_
    obtain ⟨g, hg⟩ := HopGraph.exists_build_iff.mpr ⟨h.countsDown, h.unambiguous⟩
    simp [hbuild] at hg
  | ok g =>
    obtain ⟨hcounts, hnone⟩ := HopGraph.exists_build_iff.mp ⟨g, hbuild⟩
    have hcarried : Variant.forPath? path g = some v ↔ d.Carries path v := by
      rw [Variant.forPath?_eq_some_iff hbuild]
      exact ⟨fun h => ⟨hcounts, hnone, h⟩, fun h => h.variant⟩
    rw [← hcarried]
    cases hfound : Variant.forPath? path g <;> simp [hfound]

theorem make_ne_noEgressIndex {id : PathId} :
    (make d pool path).1 ≠ .error (.malformedPath id .noEgressIndex) := by
  simp [make_error_iff, HopGraph.build_ne_noEgressIndex]

theorem make_malformed_iff {id : PathId} :
    (∃ defect, (make d pool path).1 = .error (.malformedPath id defect)) ↔
      id = path.id ∧ ¬ path.CountsDown := by
  simp only [make_error_iff, HopGraph.build_error_iff, reduceCtorEq, and_false, exists_false,
    or_false, RenderError.malformedPath.injEq, ← HopGraph.checkHops_ok_iff]
  cases HopGraph.checkHops path <;> simp [eq_comm]

theorem make_ambiguous_iff {function : String} {several : List Placement} :
    (make d pool path).1 = .error (.ambiguousPlacement function several) ↔
      path.CountsDown ∧
        (∃ hop, FirstWith d.Spread path.hops hop ∧ function = hop.serviceFunction) ∧
        several.Pairwise (· < ·) ∧ ∀ p, p ∈ several ↔ d.PlacedOn function p := by
  simp only [make_error_iff, HopGraph.build_error_iff, reduceCtorEq, and_false, exists_false,
    or_false, false_or, RenderError.ambiguousPlacement.injEq, ← Deployment.eq_placementsOf_iff]
  refine and_congr_right fun _ => ?_
  constructor
  · rintro ⟨hop, hfirst, rfl, rfl⟩
    exact ⟨⟨hop, hfirst, rfl⟩, rfl⟩
  · rintro ⟨⟨hop, hfirst, rfl⟩, rfl⟩
    exact ⟨hop, hfirst, rfl, rfl⟩

theorem make_unprocessed_iff {t : Transport} {e : Encapsulation} :
    (make d pool path).1 = .error (.noTransportProcessor t e) ↔
      path.CountsDown ∧ (∀ hop ∈ path.hops, ¬ d.Spread hop) ∧ (∀ hop ∈ path.hops, ¬ d.Placed hop) ∧
        (∀ v, ((path.transport, path.encapsulation), v) ∉ Variant.declaredPairs) ∧
        t = path.transport ∧ e = path.encapsulation := by
  rw [make_error_iff]
  constructor
  · rintro (h | ⟨g, hbuild, hnone, h⟩)
    · rcases HopGraph.build_error h with ⟨_, h⟩ | ⟨_, _, h⟩ <;> cases h
    · cases h
      obtain ⟨hcounts, hunspread⟩ := HopGraph.exists_build_iff.mp ⟨g, hbuild⟩
      have hno : ∀ v, ¬ ((∃ hop ∈ path.hops, d.Placed hop) ∧ v = .logicalForwarder ∨
          (∀ hop ∈ path.hops, ¬ d.Placed hop) ∧
            ((path.transport, path.encapsulation), v) ∈ Variant.declaredPairs) := fun v hv => by
        simp [(Variant.forPath?_eq_some_iff hbuild).mpr hv] at hnone
      have hunplaced : ∀ hop ∈ path.hops, ¬ d.Placed hop := fun hop hhop hplaced =>
        hno _ (Or.inl ⟨⟨hop, hhop, hplaced⟩, rfl⟩)
      exact ⟨hcounts, hunspread, hunplaced, fun v hv => hno v (Or.inr ⟨hunplaced, hv⟩), rfl, rfl⟩
  · rintro ⟨hcounts, hunspread, hunplaced, hundeclared, rfl, rfl⟩
    obtain ⟨g, hbuild⟩ := HopGraph.exists_build_iff.mpr ⟨hcounts, hunspread⟩
    refine Or.inr ⟨g, hbuild, Option.eq_none_iff_forall_ne_some.mpr fun v hv => ?_, rfl⟩
    rcases (Variant.forPath?_eq_some_iff hbuild).mp hv with ⟨⟨hop, hhop, hplaced⟩, -⟩ | ⟨-, hv⟩
    · exact hunplaced hop hhop hplaced
    · exact hundeclared v hv

end Plan

namespace LocatedEntry

theorem switchOf_forwarder_error {t : Topology} {name : String} {placement : Option Placement}
    {e : RenderError} : switchOf t (.forwarder name) placement = .error e ↔
      t.switch? name placement = none ∧ e = .unresolvedForwarder name := by
  simp only [switchOf, Endpoint.name?]
  cases t.switch? name placement <;> simp [eq_comm]

theorem locate_error_iff {t : Topology} {number : Nat} {entry : HopEntry} {e : RenderError}
    {found : Option SwitchId} (hsrc : switchOf t entry.src entry.srcPlacement = .ok found) :
    locate t number entry = .error e ↔ switchOf t entry.dst entry.dstPlacement = .error e := by
  simp [locate, bind_eq_error, hsrc, pure, Except.pure]

theorem locateAll_error_iff {d : Deployment} {path : ServicePath} {origin : HopGraph.Departure}
    {hops : List Hop} {entries : List HopEntry} {number : Nat} {e : RenderError}
    {egress : ServiceIndex} {found : Option SwitchId}
    (hentries : entries.map HopEntry.bare =
      HopGraph.chain path egress origin (hops.map fun hop => (hop, d.placementFor hop)))
    (horigin : switchOf d.topology origin.point origin.placement = .ok found) :
    locateAll d.topology number entries = .error e ↔
      ∃ hop, FirstWith (fun hop => d.switchOf? hop = none) hops hop ∧
        e = .unresolvedForwarder hop.forwarder := by
  -- on the hops still to come; an entry leaves from where the one before it arrived
  induction hops generalizing origin entries number found with
  | nil =>
    obtain ⟨entry, rfl, he⟩ := List.map_eq_singleton_iff.mp hentries
    have hsrc : switchOf d.topology entry.src entry.srcPlacement = .ok found := by
      rwa [show entry.src = origin.point from congrArg HopEntry.src he,
        show entry.srcPlacement = origin.placement from congrArg HopEntry.srcPlacement he]
    have hdst : switchOf d.topology entry.dst entry.dstPlacement = .ok none := by
      rw [show entry.dst = .egress from congrArg HopEntry.dst he]
      rfl
    simp [locateAll, bind_eq_error, locate_error_iff hsrc, hdst, FirstWith.not_nil, pure,
      Except.pure]
  | cons hop rest ih =>
    obtain ⟨entry, entries, rfl, he, hrest⟩ := List.map_eq_cons_iff.mp hentries
    have hsrc : switchOf d.topology entry.src entry.srcPlacement = .ok found := by
      rwa [show entry.src = origin.point from congrArg HopEntry.src he,
        show entry.srcPlacement = origin.placement from congrArg HopEntry.srcPlacement he]
    have hhere : ∀ err, locate d.topology number entry = .error err ↔
        d.switchOf? hop = none ∧ err = .unresolvedForwarder hop.forwarder := by
      intro err
      rw [locate_error_iff hsrc, show entry.dst = .forwarder hop.forwarder from
        congrArg HopEntry.dst he, show entry.dstPlacement = d.placementFor hop from
        congrArg HopEntry.dstPlacement he, switchOf_forwarder_error]
      rfl
    have hcons : locateAll d.topology number (entry :: entries) = .error e ↔
        locate d.topology number entry = .error e ∨
          ∃ l, locate d.topology number entry = .ok l ∧
            locateAll d.topology (number + 1) entries = .error e := by
      simp [locateAll, bind_eq_error, pure, Except.pure]
    simp only [hcons, FirstWith.cons_iff]
    cases hswitch : d.switchOf? hop with
    | none =>
      have hlocate := (hhere _).mpr ⟨hswitch, rfl⟩
      simp [hlocate, eq_comm]
    | some switch =>
      obtain ⟨l, hlocate⟩ : ∃ l, locate d.topology number entry = .ok l := by
        cases hlocate : locate d.topology number entry with
        | error err => exact absurd ((hhere err).mp hlocate).1 (by simp [hswitch])
        | ok l => exact ⟨l, rfl⟩
      have hthere : switchOf d.topology (.forwarder hop.forwarder) (d.placementFor hop) =
          .ok (some switch) := by
        simp only [switchOf, Endpoint.name?]
        rw [show d.topology.switch? hop.forwarder (d.placementFor hop) = some switch from hswitch]
      simpa [hlocate] using ih hrest hthere

end LocatedEntry

theorem Compilation.stageEntries_error_iff {d : Deployment} {p : Plan}
    {initialized : List SwitchId} {c : Compilation} {number : Nat} {entries : List HopEntry}
    {e : RenderError} :
    (∃ purged, stageEntries d p initialized c number entries = .error (e, purged)) ↔
      LocatedEntry.locateAll d.topology number entries = .error e := by
  induction entries generalizing c number with
  | nil => simp [stageEntries, LocatedEntry.locateAll]
  | cons entry rest ih =>
    cases hlocate : LocatedEntry.locate d.topology number entry with
    | error err =>
      simp [stageEntries, LocatedEntry.locateAll, hlocate, bind, Except.bind]
    | ok l =>
      simp [stageEntries, LocatedEntry.locateAll, hlocate, bind_eq_error, ih, pure, Except.pure]

/-- A plan compiles unless the switch of some hop is unknown; the first such hop is named. -/
theorem Compilation.make_error_iff {d : Deployment} {path : ServicePath} {p : Plan}
    (hp : p.Carries d path) (initialized : List SwitchId) {e : RenderError} :
    (∃ purged, make d p initialized = .error (e, purged)) ↔
      ∃ hop, FirstWith d.Unresolved path.hops hop ∧ e = .unresolvedForwarder hop.forwarder := by
  have hunspread : ∀ hop ∈ path.hops, ¬ d.Spread hop := fun hop hhop hspread => by
    obtain ⟨other, hother⟩ := Deployment.spread_iff_error.mp hspread
    simp [hp.placed hop hhop] at hother
  have hstart : LocatedEntry.switchOf d.topology .ingress none = .ok none := rfl
  unfold make
  rw [stageEntries_error_iff, LocatedEntry.locateAll_error_iff hp.entries hstart]
  exact exists_congr fun hop => and_congr_left' (FirstWith.congr fun hop hhop =>
    Deployment.switchOf?_eq_none_iff (hunspread hop hhop))

end ServiceChain
