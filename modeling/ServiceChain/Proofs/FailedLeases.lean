import ServiceChain.Proofs.HopVlans

/-! What a failed render leaves of the pool. Abandoning looks at the lease as a whole: one that was
committed before stays as it is then, with the ids that the failed render has just added. -/
namespace ServiceChain
namespace Renderer

variable {σ : Type} [FlowDestination σ] {d : Deployment}

/-- A failed render takes nothing from a path and gives other paths nothing. A path without a lease
gets none; a path that has one keeps the free ids it was given for hops beyond its lease. So all
paths hold what they held exactly if the path had no lease, or enough ids, or none were free. -/
theorem Reached.held_of_failed_render {sink : σ} {log : List Reply} {r : Renderer σ}
    (h : Reached d sink log r) (path : ServicePath) (e : RenderError)
    (he : (r.render d path).result = .error e) :
    (∀ other, other ≠ path.id →
        (r.render d path).renderer.pool.held other = r.pool.held other) ∧
      (r.render d path).renderer.pool.held path.id = r.pool.held path.id ++
        (if (r.pool.lease? path.id).isSome then
          r.pool.free.take (d.vlansNeeded path - (r.pool.held path.id).length)
        else []) ∧
      ((∀ other, (r.render d path).renderer.pool.held other = r.pool.held other) ↔
        r.pool.lease? path.id = none ∨
          d.vlansNeeded path ≤ (r.pool.held path.id).length ∨ r.pool.free = []) := by
  have hothers (other : PathId) (hother : other ≠ path.id) :
      (r.render d path).renderer.pool.held other = r.pool.held other :=
    held_render_of_ne hother.symm
  have hown := h.poolAtRest.held_render_error he
  refine ⟨hothers, hown, ?_⟩
  have hkept : (∀ other, (r.render d path).renderer.pool.held other = r.pool.held other) ↔
      (r.render d path).renderer.pool.held path.id = r.pool.held path.id := by
    refine ⟨fun hall => hall path.id, fun hsame other => ?_⟩
    by_cases hother : other = path.id
    · exact hother ▸ hsame
    · exact hothers other hother
  rw [hkept, hown, List.append_right_eq_self]
  cases hlease : r.pool.lease? path.id with
  | none => simp
  | some lease => simp [List.take_eq_nil_iff, Nat.sub_eq_zero_iff_le, or_comm]

def lostPath (id : PathId) : ServicePath :=
  { linePath id with hops := [⟨"near", "firewall", none, 255⟩, ⟨"lost", "inspector", none, 254⟩] }

theorem vlansNeeded_lostPath (id : PathId) : vlanDeployment.vlansNeeded (lostPath id) = 2 := by
  with_unfolding_all rfl

theorem lostPath_fails {r : Renderer} (hfault : r.sink.fault = none) (id : PathId) :
    ∃ e, (r.render vlanDeployment (lostPath id)).result = .error e := by
  rw [← isOk_eq_false_iff, isOk_render (Plan.make_lease (vlansNeeded_lostPath id) rfl) hfault]
  with_unfolding_all rfl

theorem held_of_failed_first_render :
    ((fresh vlanDeployment).render vlanDeployment (lostPath 3)).renderer.pool.held 3 = [] := by
  have hstart : Reached vlanDeployment ({} : FlowSink) [] (fresh vlanDeployment) := .start
  obtain ⟨e, he⟩ := lostPath_fails (r := fresh vlanDeployment) rfl 3
  obtain ⟨-, -, hkept⟩ := hstart.held_of_failed_render (lostPath 3) e he
  exact hkept.mpr (Or.inl rfl) 3

def nearPath (id : PathId) : ServicePath :=
  { linePath id with hops := [⟨"near", "firewall", none, 255⟩] }

def nearRendered : Renderer := ((fresh vlanDeployment).render vlanDeployment (nearPath 3)).renderer

theorem pool_nearRendered :
    nearRendered.pool = ⟨⟨100, 103⟩, [⟨3, [lineId 0], true⟩]⟩ := by
  have hneeded : vlanDeployment.vlansNeeded (nearPath 3) = 1 := by decide +kernel
  have htaken : ∃ report,
      ((fresh vlanDeployment).render vlanDeployment (nearPath 3)).result = .ok report := by
    rw [← isOk_iff, isOk_render (Plan.make_lease hneeded rfl) rfl]
    with_unfolding_all rfl
  obtain ⟨report, hreport⟩ := htaken
  rw [nearRendered, pool_render_ok hreport, Plan.make_pool, hneeded, if_neg (by decide),
    VlanPool.lease, VlanPool.free_eq]
  decide

/-- Rendered again with a hop that fails, the path holds the id that the hop was leased. -/
theorem failed_render_keeps_ids :
    ¬ ∀ (d : Deployment) (log : List Reply) (r : Renderer), Reached d ({} : FlowSink) log r →
      ∀ path e, (r.render d path).result = .error e →
        ∀ other, (r.render d path).renderer.pool.held other = r.pool.held other := by
  intro hsame
  have hnear : Reached vlanDeployment ({} : FlowSink) _ nearRendered :=
    Reached.start.render (nearPath 3)
  have hfault : nearRendered.sink.fault = none :=
    fault_render vlanDeployment (fresh vlanDeployment) (nearPath 3)
  obtain ⟨e, he⟩ := lostPath_fails hfault 3
  have hheld := hsame vlanDeployment _ nearRendered hnear (lostPath 3) e he 3
  have hleft := hnear.poolAtRest.held_render_error he
  rw [vlansNeeded_lostPath, pool_nearRendered, VlanPool.free_eq] at hleft
  have hlost : (lostPath 3).id = 3 := rfl
  rw [hlost, hheld, pool_nearRendered] at hleft
  exact absurd hleft (by decide +kernel)

end Renderer
end ServiceChain
