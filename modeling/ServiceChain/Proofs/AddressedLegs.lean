import ServiceChain.Proofs.HandOffs
import ServiceChain.Proofs.KeyAgreement

/-! What MPLS and VLAN paths stage behind the path mapper. Labels and tags mark packets as a path's
and nothing more, so that next hops and egress flows go by addresses: of functions, and of the ends
of links. -/
namespace ServiceChain

/-- The kind of locators that links are between, of labels and of tags. -/
def Variant.linkKind : Variant → LocatorKind
  | mpls => .mpls
  | _ => .mac

/-- The end on `near` of the link to `far`. -/
def Deployment.linkEnd? (d : Deployment) (kind : LocatorKind) (near far : String) :
    Option BoundLocator :=
  (d.topology.forwarder? near).bind fun f =>
    (f.locatorTowards? kind (some far)).bind fun locator =>
      d.topology.locator? near locator.name

def HopEntry.linkNames (e : HopEntry) : Option String × Option String :=
  (e.srcEgressLocator, e.dstIngressLocator)

theorem HopEntry.linkNames_resolveLocators (t : Topology) (e : HopEntry) :
    (e.resolveLocators t).linkNames = e.linkNames := by
  unfold resolveLocators
  split
  · rfl
  · split <;> rfl

theorem HopEntry.linkNames_nameLocators {t : Topology} {kind : LocatorKind} {e : HopEntry}
    {near far : String} (hsrc : e.src = .forwarder near) (hdst : e.dst = .forwarder far) :
    (e.bare.nameLocators t kind).linkNames =
      if near = far then (none, none)
      else
        ((t.forwarder? near).bind fun f => (f.locatorTowards? kind (some far)).map (·.name),
          (t.forwarder? far).bind fun f => (f.locatorTowards? kind (some near)).map (·.name)) := by
  have hends : e.bare.src = .forwarder near ∧ e.bare.dst = .forwarder far := ⟨hsrc, hdst⟩
  have hnone : e.bare.srcEgressLocator = none ∧ e.bare.dstIngressLocator = none := ⟨rfl, rfl⟩
  by_cases hsame : near = far
  · simp [linkNames, nameLocators, isSameForwarder, hends, hnone, Endpoint.name?, hsame]
  · cases hnear : t.forwarder? near <;> cases hfar : t.forwarder? far <;>
      simp [linkNames, nameLocators, isSameForwarder, hends, hnone, Endpoint.name?, hsame, hnear,
        hfar, egressName?, ingressName?]

theorem Vlan.linkNames_tag (id : Option VlanId) (e : HopEntry) :
    (tag id e).linkNames = e.linkNames := by
  unfold tag
  split
  · split <;> rfl
  · rfl

theorem Vlan.map_linkNames_tagAll (ids : List (Option VlanId)) (entries : List HopEntry) :
    (tagAll ids entries).map (·.linkNames) = entries.map (·.linkNames) := by
  induction entries generalizing ids with
  | nil => rfl
  | cons e rest ih =>
    simp only [tagAll]
    split <;> simp [ih, linkNames_tag]

namespace Plan

variable {d : Deployment} {pool : VlanPool} {path : ServicePath} {p : Plan} {i : Nat}
  {l : LocatedEntry} {near far : String}

theorem linkNames_entries (hplan : (make d pool path).1 = .ok p)
    (hv : p.variant = .mpls ∨ p.variant = .vlan) :
    p.graph.entries.map (·.linkNames) = (HopGraph.chainOf d path).map fun e =>
      (e.nameLocators d.topology p.variant.linkKind).linkNames := by
  rcases hv with hv | hv
  · rw [entries_of_make hplan (by simp [hv]) (by simp [hv]), hv]
    simp [HopEntry.linkNames_resolveLocators, Variant.nameEntry, Variant.linkKind]
  · have hpath : d.variant? path = some .vlan := hv ▸ variant?_eq hplan
    rw [make_of_vlan pool hpath] at hplan
    cases hplan
    rw [Vlan.entries_leaseHopIds, Vlan.map_linkNames_tagAll, Deployment.untagged_eq hpath]
    simp [HopEntry.linkNames_resolveLocators, Variant.linkKind]

/-- Between two forwarders an entry has both ends of the link, within one it has none. -/
theorem Locates.links (h : p.Locates d i l) (hplan : (make d pool path).1 = .ok p)
    (hv : p.variant = .mpls ∨ p.variant = .vlan) (hsrc : l.entry.src = .forwarder near)
    (hdst : l.entry.dst = .forwarder far) :
    l.srcEgress = (if near = far then none else d.linkEnd? p.variant.linkKind near far) ∧
      l.dstIngress = if near = far then none else d.linkEnd? p.variant.linkKind far near := by
  have hp : p.Carries d path := make_ok (Prod.ext hplan rfl)
  have hnames : l.entry.linkNames =
      (l.entry.bare.nameLocators d.topology p.variant.linkKind).linkNames := by
    have hnamed := congrArg (·[i]?) (linkNames_entries hplan hv)
    rw [← hp.entries] at hnamed
    simpa [h.entry] using hnamed
  rw [HopEntry.linkNames_nameLocators hsrc hdst] at hnames
  obtain ⟨-, -, -, hingress⟩ := LocatedEntry.parts_of_locate h.located
  rw [LocatedEntry.srcEgress_of_locate h.located, hingress, hsrc, hdst]
  have hleaves := congrArg Prod.fst hnames
  have henters := congrArg Prod.snd hnames
  simp only [HopEntry.linkNames] at hleaves henters
  rw [hleaves, henters]
  by_cases hsame : near = far
  · simp [hsame]
  · simp only [hsame, if_false, Endpoint.name?, Deployment.linkEnd?, Option.bind_some,
      Option.bind_assoc, Option.bind_map, Function.comp_def, and_self]

end Plan

/-- How the path comes to each of its hops, in turn: from which other forwarder, and to which. At
its start and within a forwarder it comes over no link. -/
def ServicePath.arrivals (path : ServicePath) : List (Option String × String) :=
  List.zipWith (fun before hop => (before.filter (· ≠ hop.forwarder), hop.forwarder))
    (none :: path.hops.map fun hop => some hop.forwarder) path.hops

theorem ServicePath.arrivals_zero {path : ServicePath} {hop : Hop}
    (hhop : path.hops[0]? = some hop) : path.arrivals[0]? = some (none, hop.forwarder) := by
  simp [arrivals, List.getElem?_zipWith, hhop]

theorem ServicePath.arrivals_succ {path : ServicePath} {i : Nat} {hop next : Hop}
    (hhop : path.hops[i]? = some hop) (hnext : path.hops[i + 1]? = some next) :
    path.arrivals[i + 1]? =
      some (if hop.forwarder = next.forwarder then none else some hop.forwarder,
        next.forwarder) := by
  by_cases hsame : hop.forwarder = next.forwarder <;>
    simp [arrivals, List.getElem?_zipWith, hhop, hnext, hsame]

namespace Deployment

/-- The source address of packets that come over a link; without one, any will do. -/
def linkSource? (d : Deployment) (kind : LocatorKind) (before : Option String)
    (forwarder : String) : Option MacAddress :=
  before.bind fun near => (d.linkEnd? kind near forwarder).bind (·.mac?)

/-- Where packets go from the function of a hop: into the next function, to the other end of the
link, or out of the path. -/
def onward? (d : Deployment) (path : ServicePath) (kind : LocatorKind) (i : Nat) (hop : Hop) :
    Option MacAddress :=
  path.hops[i + 1]?.bind fun next =>
    if hop.forwarder = next.forwarder then (d.inlet? path next).bind (·.mac?)
    else (d.linkEnd? kind next.forwarder hop.forwarder).bind (·.mac?)

/-- On this switch the path has packets that come from `src` go on to `dst`. Without a source all
packets do, without a destination they keep theirs. -/
inductive Turns (d : Deployment) (path : ServicePath) (kind : LocatorKind) :
    SwitchId → Option MacAddress → Option MacAddress → Prop
  | arrive {i : Nat} {hop : Hop} {switch : SwitchId} {before : Option String} {into : Attachment}
      (hhop : path.hops[i]? = some hop)
      (harrival : path.arrivals[i]? = some (before, hop.forwarder))
      (hswitch : d.switchOf? hop = some switch) (hinto : d.inlet? path hop = some into) :
      Turns d path kind switch (d.linkSource? kind before hop.forwarder) into.mac?
  | depart {i : Nat} {hop : Hop} {switch : SwitchId} {back : Attachment}
      (hhop : path.hops[i]? = some hop) (hswitch : d.switchOf? hop = some switch)
      (hback : d.outlet? path hop = some back) :
      Turns d path kind switch back.mac? (d.onward? path kind i hop)

/-- On this switch packets for `dst` are sent out by these actions: to a function, or to the next
forwarder with the tag of the hop there. -/
inductive Sends (d : Deployment) (path : ServicePath) (kind : LocatorKind)
    (tag? : Nat → Option WireTag) : SwitchId → Option MacAddress → List FlowAction → Prop
  | toFunction {i : Nat} {hop : Hop} {switch : SwitchId} {into : Attachment}
      (hhop : path.hops[i]? = some hop) (hswitch : d.switchOf? hop = some switch)
      (hinto : d.inlet? path hop = some into) :
      Sends d path kind tag? switch into.mac?
        ((into.vlan?.map FlowAction.pushVlan).toList ++ [.outputTo into.port])
  | toForwarder {i : Nat} {hop next : Hop} {switch : SwitchId} {tag : WireTag}
      (hhop : path.hops[i]? = some hop) (hnext : path.hops[i + 1]? = some next)
      (hcross : hop.forwarder ≠ next.forwarder) (hswitch : d.switchOf? hop = some switch)
      (htag : tag? (i + 1) = some tag) :
      Sends d path kind tag? switch ((d.linkEnd? kind next.forwarder hop.forwarder).bind (·.mac?))
        ((((d.linkEnd? kind hop.forwarder next.forwarder).bind (·.mac?)).map
            FlowAction.setEthSrc).toList ++
          [tag.push, .outputTo ((d.linkEnd? kind hop.forwarder next.forwarder).bind (·.port))])

end Deployment

/-- The tag that packets carry on the way to the hop with this number. -/
def Plan.wireTag? (p : Plan) (number : Nat) : Option WireTag :=
  p.graph.entries[number]?.bind fun e => p.variant.wireTag? e.hopIngress

def Renderer.wireTag? {σ : Type} (d : Deployment) (r : Renderer σ) (path : ServicePath)
    (number : Nat) : Option WireTag :=
  match (Plan.make d r.pool path).1 with
  | .error _ => none
  | .ok p => p.wireTag? number

theorem Renderer.wireTag?_eq {σ : Type} {d : Deployment} {r : Renderer σ} {path : ServicePath}
    {p : Plan} (hplan : (Plan.make d r.pool path).1 = .ok p) : wireTag? d r path = p.wireTag? := by
  funext number
  simp [wireTag?, hplan]

theorem Variant.emit_nextHop {v : Variant} (hv : v = .mpls ∨ v = .vlan) (ctx : LegContext)
    (e : HopEntry) {leg : Leg} (htable : leg.table = .nextHop) :
    v.emit ctx e leg = Mpls.emit ctx leg := by
  rcases hv with rfl | rfl <;> cases leg <;> first | rfl | cases htable

theorem Mpls.terminal_of_mem {ctx : LegContext} {src : Option Attachment}
    {pathEgress : Option BoundLocator} {t : FlowTemplate}
    (h : t ∈ (terminal ctx src pathEgress).templates) :
    ∃ port mac, pathEgress.bind (·.port) = some port ∧ src.bind (·.mac?) = some mac ∧
      t = .egress .lastHopEgress Priority.lastHopEgress ((marked ctx).withEthSrc (some mac))
        [.output (.number port)] := by
  unfold terminal at h
  split at h
  · cases h
  · cases h
  · next port mac hport hmac => exact ⟨port, mac, hport, hmac, List.mem_singleton.mp h⟩

/-- What is staged for a path on a switch. -/
inductive Plan.Steers (p : Plan) (d : Deployment) (path : ServicePath) (ctx : LegContext)
    (switch : SwitchId) : FlowTemplate → Prop
  | ingress (role : FlowRole) (m : FlowMatch) :
      Steers p d path ctx switch (.ingress role m .pathMapper)
  | mapper (role : FlowRole) (tag : WireTag) :
      Steers p d path ctx switch (.mapper role ctx.pathId tag.carried tag.pop)
  | turn {src dst : Option MacAddress} (h : d.Turns path p.variant.linkKind switch src dst) :
      Steers p d path ctx switch (Mpls.nextHop ctx src dst)
  | send {dst : Option MacAddress} {actions : List FlowAction} (role : FlowRole)
      (h : d.Sends path p.variant.linkKind p.wireTag? switch dst actions) :
      Steers p d path ctx switch
        (.egress role Priority.transportEgress ((Mpls.marked ctx).withEthDst dst) actions)
  | leave {l : LocatedEntry} {port : UInt32} {mac : MacAddress}
      (h : p.Locates d path.hops.length l) (hport : l.entry.pathEgress.bind (·.port) = some port)
      (hmac : l.srcFunction.bind (·.mac?) = some mac) :
      Steers p d path ctx switch
        (.egress .lastHopEgress Priority.lastHopEgress ((Mpls.marked ctx).withEthSrc (some mac))
          [.output (.number port)])

theorem Plan.Steers.table_eq {p : Plan} {d : Deployment} {path : ServicePath} {ctx : LegContext}
    {switch : SwitchId} {t : FlowTemplate} (h : p.Steers d path ctx switch t) :
    t.table = TableRef.ofPriority t.priority := by
  cases h with
  | @turn src dst h => cases src <;> rfl
  | ingress | mapper | send | leave => rfl

namespace Plan.Locates

variable {d : Deployment} {pool : VlanPool} {path : ServicePath} {p : Plan} {i : Nat}
  {l : LocatedEntry} {switch : SwitchId} {leg : Leg} {ctx : LegContext} {t : FlowTemplate}

theorem onward?_of_egress (h : p.Locates d (i + 1) l) (hp : p.Carries d path)
    (hend : l.entry.dst = .egress) (kind : LocatorKind) (hop : Hop) :
    d.onward? path kind i hop = none := by
  have hlast : path.hops[i + 1]? = none :=
    List.getElem?_eq_none (Nat.le_of_eq (h.eq_length_of_egress hp hend).symm)
  rw [Deployment.onward?, hlast, Option.bind_none]

theorem steers_nextHop (h : p.Locates d i l) (hplan : (make d pool path).1 = .ok p)
    (hv : p.variant = .mpls ∨ p.variant = .vlan) (hleg : (switch, leg) ∈ l.legs p.graph)
    (htable : leg.table = .nextHop) (ht : t ∈ (p.variant.emit ctx l.entry leg).templates) :
    p.Steers d path ctx switch t := by
  have hp : p.Carries d path := make_ok (Prod.ext hplan rfl)
  rw [Variant.emit_nextHop hv ctx l.entry htable] at ht
  cases LocatedEntry.hasLeg_of_mem_legs hleg with
  | gatewayToFunction hswitch hdst hstart =>
    obtain ⟨hop, hhop, hto, harrives⟩ := h.exists_hop hp hswitch
    cases List.mem_singleton.mp ht
    cases i with
    | zero =>
      exact .turn (.arrive hhop (ServicePath.arrivals_zero hhop) hto (harrives.dstFunction ▸ hdst))
    | succ k =>
      obtain ⟨_, _, -, -, hleaves⟩ := h.exists_previous hp
      simp [hleaves.src] at hstart
  | @forwarderToFunction dst hswitch hdst hstart =>
    obtain ⟨next, hnext, hto, harrives⟩ := h.exists_hop hp hswitch
    cases List.mem_singleton.mp ht
    cases i with
    | zero => exact absurd (h.src_first hp) hstart
    | succ k =>
      obtain ⟨hop, _, hhop, -, hleaves⟩ := h.exists_previous hp
      have hlink : l.srcEgress.bind (·.mac?) = d.linkSource? p.variant.linkKind
          (if hop.forwarder = next.forwarder then none else some hop.forwarder)
          next.forwarder := by
        rw [(h.links hplan hv hleaves.src harrives.dst).1, Deployment.linkSource?]
        split <;> rfl
      rw [hlink]
      exact .turn (.arrive hnext (ServicePath.arrivals_succ hhop hnext) hto
        (harrives.dstFunction ▸ hdst))
  | functionToGateway hswitch hsrc hend =>
    obtain ⟨k, hop, rfl, hhop, hfrom, hleaves⟩ := h.exists_departure hp hswitch
    cases List.mem_singleton.mp ht
    have hturn := @Deployment.Turns.depart d path p.variant.linkKind _ _ _ _ hhop hfrom
      (hleaves.srcFunction ▸ hsrc)
    rw [h.onward?_of_egress hp hend] at hturn
    exact .turn hturn
  | functionToFunction hswitch hsrc hdst hsame =>
    obtain ⟨k, hop, rfl, hhop, hfrom, hleaves⟩ := h.exists_departure hp hswitch
    have hgo : l.entry.dst ≠ .egress := fun hend => by
      simp [LocatedEntry.isSameForwarder_of_egress hend] at hsame
    obtain ⟨next, _, hnext, -, harrives⟩ := h.exists_arrival hp hgo
    have hname := (LocatedEntry.isSameForwarder_iff harrives hleaves).mp hsame
    cases List.mem_singleton.mp ht
    have hturn := @Deployment.Turns.depart d path p.variant.linkKind _ _ _ _ hhop hfrom
      (hleaves.srcFunction ▸ hsrc)
    rw [Deployment.onward?, hnext, Option.bind_some, if_pos hname, ← harrives.dstFunction, hdst]
      at hturn
    exact .turn hturn
  | functionToForwarder hswitch hsrc hsame =>
    obtain ⟨k, hop, rfl, hhop, hfrom, hleaves⟩ := h.exists_departure hp hswitch
    cases List.mem_singleton.mp ht
    have hturn := @Deployment.Turns.depart d path p.variant.linkKind _ _ _ _ hhop hfrom
      (hleaves.srcFunction ▸ hsrc)
    by_cases hend : l.entry.dst = .egress
    · -- the edge of the path has no ingress locator
      have hnone : l.dstIngress = none := by
        simp [(LocatedEntry.parts_of_locate h.located).2.2.2, hend, Endpoint.name?]
      rw [h.onward?_of_egress hp hend] at hturn
      rw [hnone]
      exact .turn hturn
    · obtain ⟨next, _, hnext, -, harrives⟩ := h.exists_arrival hp hend
      have hname := mt (LocatedEntry.isSameForwarder_iff harrives hleaves).mpr hsame
      rw [Deployment.onward?, hnext, Option.bind_some, if_neg hname] at hturn
      rw [(h.links hplan hv hleaves.src harrives.dst).2, if_neg hname]
      exact .turn hturn
  | _ => cases htable

theorem steers_egress (h : p.Locates d i l) (hplan : (make d pool path).1 = .ok p)
    (hv : p.variant = .mpls ∨ p.variant = .vlan) (hleg : (switch, leg) ∈ l.legs p.graph)
    (htable : leg.table = .transportEgress)
    (ht : t ∈ (p.variant.emit ctx l.entry leg).templates) : p.Steers d path ctx switch t := by
  have hp : p.Carries d path := make_ok (Prod.ext hplan rfl)
  have hplain : p.graph.isLogical = false :=
    hp.isLogical_eq_false (Variant.ne_logicalForwarder hv)
  cases LocatedEntry.hasLeg_of_mem_legs hleg with
  | @functionEgress dst hswitch hdst hgo =>
    obtain ⟨hop, hhop, hto, harrives⟩ := h.exists_hop hp hswitch
    rw [(Variant.emit_nextHops hv ctx l.entry dst dst none none).2.2] at ht
    cases List.mem_singleton.mp ht
    exact .send _ (.toFunction hhop hto (harrives.dstFunction ▸ hdst))
  | forwarderEgress hswitch hgo =>
    obtain ⟨k, hop, rfl, hhop, hfrom, hleaves⟩ := h.exists_departure hp hswitch
    obtain ⟨next, _, hnext, -, harrives⟩ := h.exists_arrival hp hgo
    have hname : hop.forwarder ≠ next.forwarder := by
      rcases LocatedEntry.crosses_of_mem_legs hleg with hsame | hcross
      · exact mt (LocatedEntry.isSameForwarder_iff harrives hleaves).mpr (by simp [hsame])
      · simp [HopGraph.isCrossPlacement, HopGraph.isIntraLogical, hplain] at hcross
    obtain ⟨hegress, hingress⟩ := h.links hplan hv hleaves.src harrives.dst
    cases htag : p.variant.wireTag? l.entry.hopIngress with
    | none => simp [Variant.emit_of_no_wireTag hv htag] at ht
    | some tag =>
      rw [(Variant.emit_of_wireTag htag ctx _ _).1, hegress, hingress, if_neg hname,
        if_neg hname] at ht
      have hplanned : p.wireTag? (k + 1) = some tag := by simp [wireTag?, h.entry, htag]
      cases List.mem_singleton.mp ht
      exact .send _ (.toForwarder hhop hnext hname hfrom hplanned)
  | terminalEgress hswitch hend =>
    obtain rfl := h.eq_length_of_egress hp hend
    have hterminal : p.variant.emit ctx l.entry (.terminalEgress l.srcFunction
        l.entry.pathEgress) = Mpls.terminal ctx l.srcFunction l.entry.pathEgress := by
      rcases hv with hv | hv <;> rw [hv] <;> rfl
    rw [hterminal] at ht
    obtain ⟨port, mac, hport, hmac, rfl⟩ := Mpls.terminal_of_mem ht
    exact .leave h hport hmac
  | _ => cases htable

theorem steers_front (hv : p.variant = .mpls ∨ p.variant = .vlan) (e : HopEntry)
    (htable : leg.table = .transportIngress ∨ leg.table = .pathMapper)
    (ht : t ∈ (p.variant.emit ctx e leg).templates) : p.Steers d path ctx switch t := by
  have hfunction (dst : Attachment) (hleg : leg = .functionIngress dst ∨ leg = .functionMapper dst)
      (ht : t ∈ (Mpls.emit ctx leg).templates) : p.Steers d path ctx switch t := by
    rcases hleg with rfl | rfl <;> simp only [Mpls.emit] at ht <;> split at ht
    · cases List.mem_singleton.mp ht
      exact .ingress _ _
    · cases ht
    · next vlan _ =>
      cases List.mem_singleton.mp ht
      exact .mapper _ (.vlan vlan)
    · cases ht
  rcases hv with hv | hv <;> rw [hv] at ht
  · cases leg with
    | forwarderIngress =>
      cases List.mem_singleton.mp ht
      exact .ingress _ _
    | functionIngress dst => exact hfunction dst (Or.inl rfl) ht
    | forwarderMapper hopIngress =>
      simp only [Variant.emit, Mpls.emit] at ht
      split at ht
      · next label _ =>
        cases List.mem_singleton.mp ht
        exact .mapper _ (.label label)
      · cases ht
    | functionMapper dst => exact hfunction dst (Or.inr rfl) ht
    | _ => simp [Leg.table] at htable
  · cases leg with
    | forwarderIngress =>
      simp only [Variant.emit, Vlan.emit] at ht
      split at ht
      · cases List.mem_singleton.mp ht
        exact .ingress _ _
      · cases ht
    | functionIngress dst => exact hfunction dst (Or.inl rfl) ht
    | forwarderMapper hopIngress =>
      simp only [Variant.emit, Vlan.emit] at ht
      split at ht
      · next vlan _ =>
        cases List.mem_singleton.mp ht
        exact .mapper _ (.vlan vlan)
      · cases ht
    | functionMapper dst => exact hfunction dst (Or.inr rfl) ht
    | _ => simp [Leg.table] at htable

/-- Every leg stages what `Plan.Steers` lists, and nothing else. -/
theorem steers (h : p.Locates d i l) (hplan : (make d pool path).1 = .ok p)
    (hv : p.variant = .mpls ∨ p.variant = .vlan) (hleg : (switch, leg) ∈ l.legs p.graph)
    (ht : t ∈ (p.variant.emit ctx l.entry leg).templates) : p.Steers d path ctx switch t := by
  cases htable : leg.table with
  | transportIngress => exact steers_front hv l.entry (Or.inl htable) ht
  | pathMapper => exact steers_front hv l.entry (Or.inr htable) ht
  | nextHop => exact h.steers_nextHop hplan hv hleg htable ht
  | transportEgress => exact h.steers_egress hplan hv hleg htable ht
  | classifier | pathMapperAcl | raw => cases leg <;> cases htable

end Plan.Locates

end ServiceChain
