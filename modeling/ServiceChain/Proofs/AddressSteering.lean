import ServiceChain.Proofs.Passages

/-! Steering by address. Of all that a path stages on a switch, no two flows contend for a packet,
if the path passes nothing twice and the ways into and out of its forwarders have addresses of their
own. -/
namespace ServiceChain

namespace Plan.Steers

variable {d : Deployment} {path : ServicePath} {p : Plan} {ctx : LegContext} {switch : SwitchId}
  {t u : FlowTemplate}

/-- By one priority next hops go from any source, or each from one that it names. -/
theorem disjoint_nextHop {src src' dst dst' : Option MacAddress}
    (hpriority : (Mpls.nextHop ctx src dst).priority = (Mpls.nextHop ctx src' dst').priority)
    (hdst : src = src' → dst = dst') :
    (Mpls.nextHop ctx src dst).actions = (Mpls.nextHop ctx src' dst').actions ∨
      (Mpls.nextHop ctx src dst).flowMatch.Disjoint (Mpls.nextHop ctx src' dst').flowMatch := by
  by_cases hsrc : src = src'
  · rw [hdst hsrc]
    exact Or.inl rfl
  · have hapart : FlowMatch.Differ src src' := by
      cases src with
      | none =>
        cases src' with
        | none => exact absurd rfl hsrc
        | some mac' =>
          exact absurd (show Priority.nextHopAnySource = Priority.nextHop from hpriority)
            (by decide)
      | some mac =>
        cases src' with
        | none =>
          exact absurd (show Priority.nextHop = Priority.nextHopAnySource from hpriority)
            (by decide)
        | some mac' => exact ⟨mac, rfl, mac', rfl, fun e => hsrc (congrArg some e)⟩
    exact Or.inr (Or.inr (Or.inr (Or.inl hapart)))

theorem pop_of_carried {tag tag' : WireTag} (h : tag.carried = tag'.carried) :
    tag.pop = tag'.pop := by
  have hlabel := congrArg FlowMatch.mplsLabel h
  cases tag <;> cases tag' <;> first | rfl | cases hlabel

/-- Of what a path stages on a switch by one priority, all does the same or is for other packets. -/
theorem apart (hswitches : d.SwitchesApart path) (honce : path.PassesOnce)
    (hapart : d.AddressesApart path p.variant.linkKind) (ht : p.Steers d path ctx switch t)
    (hu : p.Steers d path ctx switch u) (hpriority : t.priority = u.priority) :
    t.actions = u.actions ∨ t.flowMatch.Disjoint u.flowMatch ∨
      t.table = .pathMapper ∧ t.flowMatch ≠ u.flowMatch := by
  have htable : t.table = u.table := by rw [ht.table_eq, hu.table_eq, hpriority]
  cases ht with
  | ingress =>
    cases hu with
    | ingress => exact Or.inl rfl
    | _ => cases htable
  | mapper role tag =>
    cases hu with
    | mapper role' tag' =>
      by_cases hsame : tag.carried = tag'.carried
      · refine Or.inl ?_
        simp only [FlowTemplate.mapper, pop_of_carried hsame]
      · exact Or.inr (Or.inr ⟨rfl, hsame⟩)
    | _ => cases htable
  | turn h =>
    cases hu with
    | turn h' =>
      rcases disjoint_nextHop hpriority (Deployment.turn_unique hswitches honce hapart h h') with
        hsame | hother
      · exact Or.inl hsame
      · exact Or.inr (Or.inl hother)
    | _ => cases htable
  | @send dst actions role h =>
    cases hu with
    | @send dst' actions' role' h' =>
      by_cases hdst : FlowMatch.Differ dst dst'
      · exact Or.inr (Or.inl (Or.inr (Or.inr (Or.inr (Or.inl hdst)))))
      · exact Or.inl (Deployment.send_unique hswitches honce hapart h h' hdst)
    | leave =>
      exact absurd (show Priority.transportEgress = Priority.lastHopEgress from hpriority)
        (by decide)
    | _ => cases htable
  | leave h hport hmac =>
    cases hu with
    | send =>
      exact absurd (show Priority.lastHopEgress = Priority.transportEgress from hpriority)
        (by decide)
    | leave h' hport' hmac' =>
      -- there is one entry that leads out of the path
      obtain rfl := h.unique h'
      obtain rfl := Option.some.inj (hport.symm.trans hport')
      exact Or.inl rfl
    | _ => cases htable

end Plan.Steers

namespace Compilation

variable {d : Deployment} {pool : VlanPool} {path : ServicePath} {p : Plan}
  {initialized : List SwitchId} {c : Compilation} {flow other : Flow}

end Compilation

namespace Renderer

variable {σ : Type} [FlowDestination σ]

end Renderer
end ServiceChain
