import ServiceChain.Proofs.Rerender
import ServiceChain.Proofs.TunnelChains

/-! Flows that name the service index. Of a transport that writes the index into its matches, two
flows of a path with one key come from one entry, and there the legs that share a switch and a table
either do the same or match other packets. -/
namespace ServiceChain

def TableRef.ofPriority (priority : UInt16) : TableRef :=
  if priority ≤ Priority.transportIngress then .transportIngress
  else if priority ≤ Priority.pathMapper then .pathMapper
  else if priority ≤ Priority.nextHop then .nextHop
  else .transportEgress

namespace Leg

def table : Leg → TableRef
  | forwarderIngress | functionIngress _ => .transportIngress
  | forwarderMapper _ | functionMapper _ => .pathMapper
  | gatewayToFunction _ | forwarderToFunction _ _ | functionToGateway _ | functionToFunction _ _
  | functionToForwarder _ _ => .nextHop
  | functionEgress _ | forwarderEgress _ _ _ | terminalEgress _ _ => .transportEgress

theorem ofPriority_eq {leg : Leg} {priority : UInt16} (h : priority ∈ leg.priorities) :
    TableRef.ofPriority priority = leg.table := by
  have hall : leg.priorities.all (fun other => decide (TableRef.ofPriority other = leg.table)) =
      true := by
    cases leg <;> rfl
  exact of_decide_eq_true (List.all_eq_true.mp hall priority h)

end Leg

/-- The service index that a match names: that of the service header, or that of the synthetic
address. What goes out to a function comes from the address of the index after it. -/
def FlowMatch.index? (m : FlowMatch) (priority : UInt16) : Option ServiceIndex :=
  match m.nsi with
  | some index => some index
  | none =>
    if priority = Priority.transportEgress ∧ m.ethSrc.isSome then m.ethSrc.map (·.o6 + 1)
    else (m.ethSrc <|> m.ethDst).map (·.o6)

/-- The flow admits packets to the next hops, or stands behind the path mapper and names the
index of its entry. -/
def FlowTemplate.Indexed (template : FlowTemplate) (e : HopEntry) : Prop :=
  template.priority = Priority.transportIngress ∧ template.actions = [.goto .nextHop] ∨
    (TableRef.ofPriority template.priority = .nextHop ∨
        TableRef.ofPriority template.priority = .transportEgress) ∧
      template.flowMatch.index? template.priority = some e.index

/-- All flows of the outcome are so, and have priorities of their own. -/
structure LegOutcome.Indexed (o : LegOutcome) (e : HopEntry) : Prop where
  templates : ∀ template ∈ o.templates, template.Indexed e
  distinct : (o.templates.map (·.priority)).Nodup

theorem FlowTemplate.Indexed.ingress (role : FlowRole) (m : FlowMatch) (e : HopEntry) :
    (ingress role m .nextHop).Indexed e :=
  Or.inl ⟨rfl, rfl⟩

namespace LegOutcome

variable {e : HopEntry}

theorem indexed_one {template : FlowTemplate} (h : template.Indexed e) :
    (one template).Indexed e := by
  refine ⟨fun other hother => ?_, List.nodup_singleton _⟩
  cases List.mem_singleton.mp hother
  exact h

theorem indexed_skipped (reason : SkipCause) : (skipped reason).Indexed e :=
  ⟨fun _ hnone => absurd hnone List.not_mem_nil, List.nodup_nil⟩

end LegOutcome

open LegOutcome (indexed_one indexed_skipped)

namespace NshEthernet

theorem indexed_nextHop {ctx : LegContext} {e : HopEntry} (actions : List FlowAction) :
    (FlowTemplate.nextHop (nsh ctx e) actions).Indexed e :=
  Or.inr ⟨Or.inl rfl, rfl⟩

theorem indexed_deliver (ctx : LegContext) (e : HopEntry) (srcMac : Option MacAddress)
    (dst : Attachment) : (deliver ctx e srcMac dst).Indexed e := by
  unfold deliver
  split
  · exact indexed_one (indexed_nextHop _)
  · exact indexed_skipped _

theorem indexed_emit (ctx : LegContext) (e : HopEntry) (leg : Leg) :
    (emit ctx e leg).Indexed e := by
  cases leg with
  | forwarderIngress => exact indexed_one (.ingress _ _ _)
  | functionIngress dst =>
    simp only [emit]
    split
    · exact indexed_one (.ingress _ _ _)
    · exact indexed_skipped _
  | gatewayToFunction dst => exact indexed_deliver ctx e none dst
  | forwarderToFunction srcEgress dst => exact indexed_deliver ctx e _ dst
  | functionToGateway src => exact indexed_one (indexed_nextHop _)
  | functionToFunction src dst => exact indexed_deliver ctx e none dst
  | functionToForwarder src dstIngress =>
    simp only [emit]
    split <;> exact indexed_skipped _
  | functionEgress dst => exact indexed_one (Or.inr ⟨Or.inr rfl, rfl⟩)
  | terminalEgress src pathEgress => exact indexed_one (Or.inr ⟨Or.inr rfl, rfl⟩)
  | forwarderMapper | functionMapper | forwarderEgress => exact indexed_skipped _

end NshEthernet

namespace NshTunnel

theorem indexed_deliver (ctx : LegContext) (e : HopEntry) (srcMac : Option MacAddress)
    (dst : Attachment) : (deliver ctx e srcMac dst).Indexed e := by
  unfold deliver
  split
  · exact NshEthernet.indexed_deliver ctx e srcMac dst
  · split
    · exact indexed_one (NshEthernet.indexed_nextHop _)
    · exact indexed_skipped _

theorem indexed_emit (ctx : LegContext) (e : HopEntry) (leg : Leg) :
    (emit ctx e leg).Indexed e := by
  cases leg with
  | forwarderIngress => exact indexed_one (.ingress _ _ _)
  | functionIngress dst =>
    simp only [emit]
    split
    · exact NshEthernet.indexed_emit ctx e _
    · split
      · exact indexed_one (.ingress _ _ _)
      · exact indexed_skipped _
  | gatewayToFunction dst => exact indexed_deliver ctx e none dst
  | forwarderToFunction srcEgress dst => exact indexed_deliver ctx e _ dst
  | functionToGateway src =>
    simp only [emit]
    split
    · exact NshEthernet.indexed_emit ctx e _
    · exact indexed_skipped _
  | functionToFunction src dst => exact indexed_deliver ctx e none dst
  | functionToForwarder src dstIngress =>
    simp only [emit]
    split
    · exact indexed_skipped _
    · split
      · exact indexed_one (NshEthernet.indexed_nextHop _)
      · exact indexed_skipped _
  | functionEgress dst =>
    simp only [emit]
    split
    · exact NshEthernet.indexed_emit ctx e _
    · split <;> exact indexed_one (Or.inr ⟨Or.inr rfl, rfl⟩)
  | forwarderEgress srcEgress dstIngress hopIngress =>
    simp only [emit]
    split
    · exact indexed_one (Or.inr ⟨Or.inr rfl, rfl⟩)
    · exact indexed_skipped _
  | terminalEgress src pathEgress =>
    refine ⟨fun template htemplate => ?_, ?_⟩
    · simp only [emit, LegOutcome.templates, terminal, List.mem_cons, List.not_mem_nil,
        or_false] at htemplate
      rcases htemplate with rfl | rfl | rfl <;> exact Or.inr ⟨Or.inr rfl, rfl⟩
    · show [Priority.lastHopEgress, Priority.nshContextEgress, Priority.appCoexistenceEgress].Nodup
      decide
  | forwarderMapper | functionMapper => exact indexed_skipped _

end NshTunnel

namespace LogicalForwarder

theorem indexed_sendOut (ctx : LegContext) (e : HopEntry) (role : FlowRole)
    (interface : Option String) (part : MissingPart) :
    (sendOut ctx e role interface part).Indexed e := by
  unfold sendOut
  split
  · exact indexed_one (Or.inr ⟨Or.inr rfl, rfl⟩)
  · exact indexed_skipped _

theorem indexed_emit (ctx : LegContext) (e : HopEntry) (leg : Leg) :
    (emit ctx e leg).Indexed e := by
  cases leg with
  | forwarderIngress => exact indexed_one (.ingress _ _ _)
  | gatewayToFunction | forwarderToFunction | functionToFunction =>
    exact indexed_one (NshEthernet.indexed_nextHop _)
  | functionEgress dst => exact indexed_sendOut ctx e _ _ _
  | forwarderEgress srcEgress dstIngress hopIngress => exact indexed_sendOut ctx e _ _ _
  | terminalEgress src pathEgress => exact indexed_one (Or.inr ⟨Or.inr rfl, rfl⟩)
  | functionIngress | forwarderMapper | functionMapper | functionToGateway | functionToForwarder =>
    exact indexed_skipped _

end LogicalForwarder

namespace MacChaining

@[simp] theorem o6_address (ctx : LegContext) (e : HopEntry) : (address ctx e).o6 = e.index := rfl

theorem o6_reply (ctx : LegContext) {e : HopEntry} (hpos : 0 < e.index.toNat) :
    (reply ctx e).o6 + 1 = e.index := by
  apply UInt8.toNat_inj.mp
  have hlt := e.index.toNat_lt
  simp only [reply, MacAddress.synthetic, UInt8.toNat_add, UInt8.toNat_ofNat', UInt8.toNat_one]
  omega

theorem indexed_toAddress (ctx : LegContext) (e : HopEntry) (priority : UInt16) :
    (toAddress (address ctx e)).index? priority = some e.index := by
  simp [FlowMatch.index?, toAddress, FlowMatch.withEthDst, FlowMatch.any]

theorem indexed_between (ctx : LegContext) (e : HopEntry) (mac : MacAddress) :
    (between (address ctx e) mac).index? Priority.nextHop = some e.index := by
  simp [FlowMatch.index?, between, FlowMatch.withEthDst, FlowMatch.withEthSrc, FlowMatch.any,
    Priority.nextHop, Priority.transportEgress]

theorem indexed_deliver (ctx : LegContext) (e : HopEntry) {m : FlowMatch} (dst : Attachment)
    (hm : m.index? Priority.nextHop = some e.index) : (deliver ctx e m dst).Indexed e := by
  unfold deliver
  split
  · exact indexed_one (Or.inr ⟨Or.inl rfl, hm⟩)
  · exact indexed_skipped _

theorem indexed_sendOut {e : HopEntry} (role : FlowRole) {m : FlowMatch} (port : Option UInt32)
    (part : MissingPart) (hm : m.index? Priority.transportEgress = some e.index) :
    (sendOut role m port part).Indexed e := by
  unfold sendOut
  split
  · exact indexed_one (Or.inr ⟨Or.inr rfl, hm⟩)
  · exact indexed_skipped _

theorem indexed_functionToForwarder (ctx : LegContext) (e : HopEntry) (src : Attachment) :
    (functionToForwarder ctx e src).Indexed e := by
  unfold functionToForwarder
  split
  · split
    · exact indexed_one (Or.inr ⟨Or.inl rfl, indexed_between ctx e _⟩)
    · exact indexed_skipped _
  · exact indexed_one (Or.inr ⟨Or.inl rfl, indexed_toAddress ctx e _⟩)

theorem indexed_emit (ctx : LegContext) {e : HopEntry} {leg : Leg}
    (hpos : ∀ dst, leg = .functionEgress dst → 0 < e.index.toNat) : (emit ctx e leg).Indexed e := by
  cases leg with
  | forwarderIngress => exact indexed_one (.ingress _ _ _)
  | functionIngress dst =>
    simp only [emit, functionIngress]
    split
    · split
      · exact indexed_one (.ingress _ _ _)
      · exact indexed_skipped _
    · exact indexed_one (.ingress _ _ _)
  | gatewayToFunction dst => exact indexed_deliver ctx e dst (indexed_toAddress ctx e _)
  | forwarderToFunction srcEgress dst => exact indexed_deliver ctx e dst (indexed_toAddress ctx e _)
  | functionToGateway src => exact indexed_functionToForwarder ctx e src
  | functionToFunction src dst =>
    simp only [emit, functionToFunction]
    split
    · split
      · exact indexed_deliver ctx e dst (indexed_between ctx e _)
      · exact indexed_skipped _
    · exact indexed_skipped _
  | functionToForwarder src dstIngress => exact indexed_functionToForwarder ctx e src
  | functionEgress dst =>
    refine indexed_sendOut _ _ _ ?_
    simp [FlowMatch.index?, FlowMatch.withEthDst, FlowMatch.withEthSrc, FlowMatch.any,
      o6_reply ctx (hpos dst rfl)]
  | forwarderEgress srcEgress dstIngress hopIngress =>
    exact indexed_sendOut _ _ _ (indexed_toAddress ctx e _)
  | terminalEgress src pathEgress => exact indexed_sendOut _ _ _ (indexed_toAddress ctx e _)
  | forwarderMapper | functionMapper => exact indexed_skipped _

end MacChaining

/-- Transports that name the path in every match name the index as well. -/
theorem Variant.indexed_emit {v : Variant} (hv : v.carriesId = true) (ctx : LegContext)
    {e : HopEntry} {leg : Leg} (hpos : ∀ dst, leg = .functionEgress dst → 0 < e.index.toNat) :
    (v.emit ctx e leg).Indexed e := by
  cases v with
  | nshTunnel => exact NshTunnel.indexed_emit ctx e leg
  | nshEthernet => exact NshEthernet.indexed_emit ctx e leg
  | macChaining => exact MacChaining.indexed_emit ctx hpos
  | logicalForwarder => exact LogicalForwarder.indexed_emit ctx e leg
  | mpls | vlan => cases hv

namespace LegOutcome

def Agrees (o other : LegOutcome) : Prop :=
  ∀ t ∈ o.templates, ∀ u ∈ other.templates,
    t.priority = u.priority → t.flowMatch = u.flowMatch → t.actions = u.actions

variable {o other : LegOutcome}

theorem Agrees.symm (h : o.Agrees other) : other.Agrees o :=
  fun t ht u hu hpriority hmatch => (h u hu t ht hpriority.symm hmatch.symm).symm

theorem agrees_skipped (reason : SkipCause) : o.Agrees (skipped reason) :=
  fun _ _ _ hnone => absurd hnone List.not_mem_nil

theorem agrees_of_match (h : ∀ t ∈ o.templates, ∀ u ∈ other.templates, t.flowMatch ≠ u.flowMatch) :
    o.Agrees other :=
  fun t ht u hu _ hmatch => absurd hmatch (h t ht u hu)

theorem Indexed.agrees {e : HopEntry} (h : o.Indexed e) : o.Agrees o := by
  intro t ht u hu hpriority _
  rw [List.inj_on_of_nodup_map h.distinct ht hu hpriority]

end LegOutcome

open LegOutcome (agrees_skipped agrees_of_match)

theorem MacChaining.flowMatch_deliver {ctx : LegContext} {e : HopEntry} {m : FlowMatch}
    {dst : Attachment} {t : FlowTemplate} (h : t ∈ (deliver ctx e m dst).templates) :
    t.flowMatch = m := by
  unfold deliver at h
  split at h
  · cases List.mem_singleton.mp h
    rfl
  · cases h

namespace Variant

variable {v : Variant} (ctx : LegContext) (e : HopEntry)

theorem agrees_inner (hv : v.carriesId = true) (src dst : Attachment) :
    (v.emit ctx e (.forwarderToFunction none dst)).Agrees
      (v.emit ctx e (.functionToFunction src dst)) := by
  cases v with
  | nshTunnel => exact (NshTunnel.indexed_emit ctx e (.functionToFunction src dst)).agrees
  | nshEthernet => exact (NshEthernet.indexed_emit ctx e (.functionToFunction src dst)).agrees
  | logicalForwarder =>
    exact (LogicalForwarder.indexed_emit ctx e (.functionToFunction src dst)).agrees
  | macChaining =>
    -- what a transparent function sends is told by its own address as well
    refine agrees_of_match fun t ht u hu hmatch => ?_
    rw [MacChaining.flowMatch_deliver ht] at hmatch
    simp only [emit, MacChaining.emit, MacChaining.functionToFunction] at hu
    split at hu
    · split at hu
      · rw [MacChaining.flowMatch_deliver hu] at hmatch
        exact absurd (congrArg FlowMatch.ethSrc hmatch) (by
          simp [MacChaining.toAddress, MacChaining.between, FlowMatch.withEthDst,
            FlowMatch.withEthSrc, FlowMatch.any])
      · cases hu
    · cases hu
  | mpls | vlan => cases hv

theorem agrees_exit (hv : v.carriesId = true) (src : Attachment)
    (dstIngress : Option BoundLocator) (hend : e.dst = .egress) :
    (v.emit ctx e (.functionToGateway src)).Agrees
      (v.emit ctx e (.functionToForwarder src dstIngress)) := by
  cases v with
  | nshTunnel =>
    simp only [emit, NshTunnel.emit, hend, if_true]
    exact agrees_skipped _
  | nshEthernet =>
    simp only [emit, NshEthernet.emit, hend, if_true]
    exact agrees_skipped _
  | macChaining => exact (MacChaining.indexed_functionToForwarder ctx e src).agrees
  | logicalForwarder => exact agrees_skipped _
  | mpls | vlan => cases hv

end Variant

namespace LocatedEntry

/-- Two legs of an entry that can have flows in one table of one switch. -/
inductive Overlap (g : HopGraph) (l : LocatedEntry) : Leg → Leg → Prop
  | same (leg : Leg) : Overlap g l leg leg
  | inner {src dst : Attachment} (hsame : l.entry.isSameForwarder = true) :
      Overlap g l (.forwarderToFunction l.srcEgress dst) (.functionToFunction src dst)
  | exit {src : Attachment} (hend : l.entry.dst = .egress) :
      Overlap g l (.functionToGateway src) (.functionToForwarder src l.dstIngress)
  | crossing {dst : Attachment} (hcross : g.isCrossPlacement l.number = true) :
      Overlap g l (.functionEgress dst)
        (.forwarderEgress l.srcEgress l.dstIngress l.entry.hopIngress)

/-- The ends of an entry are on switches of their own unless they are one forwarder. -/
structure EndsApart (l : LocatedEntry) : Prop where
  start : l.entry.src = .ingress → l.srcSwitch = none
  finish : l.entry.dst = .egress → l.dstSwitch = none
  apart : ∀ switch, l.entry.isSameForwarder = false → l.dstSwitch = some switch →
    l.srcSwitch ≠ some switch

variable {g : HopGraph} {l : LocatedEntry} {switch : SwitchId} {a b : Leg}

theorem isSameForwarder_of_egress (hend : l.entry.dst = .egress) :
    l.entry.isSameForwarder = false := by
  cases hsrc : l.entry.src <;> simp [HopEntry.isSameForwarder, hend, hsrc, Endpoint.name?]

theorem crosses_of_mem_legs {srcEgress dstIngress hopIngress : Option BoundLocator}
    (h : (switch, .forwarderEgress srcEgress dstIngress hopIngress) ∈ l.legs g) :
    l.entry.isSameForwarder = false ∨ g.isCrossPlacement l.number = true := by
  have hadmission :
      (switch, Leg.forwarderEgress srcEgress dstIngress hopIngress) ∉ l.admission := by
    cases hdst : l.dstSwitch <;> simp [admission, hdst]
  have hdelivery : (switch, Leg.forwarderEgress srcEgress dstIngress hopIngress) ∉ l.delivery := by
    unfold delivery
    split
    · split <;> simp
    · simp
  have hhandBack : (switch, Leg.forwarderEgress srcEgress dstIngress hopIngress) ∉ l.handBack := by
    unfold handBack
    split
    · split <;> simp
    · simp
  have honward : (switch, Leg.forwarderEgress srcEgress dstIngress hopIngress) ∉ l.onward := by
    unfold onward
    split
    · split <;> simp
    · simp
  have hdeparture : (switch, Leg.forwarderEgress srcEgress dstIngress hopIngress) ∈
      l.departure g := by
    simp only [legs, List.mem_append] at h
    rcases h with (((h | h) | h) | h) | h
    · exact absurd h hadmission
    · exact absurd h hdelivery
    · exact absurd h hhandBack
    · split at h
      · cases h
      · exact absurd h honward
    · exact h
  simp only [departure] at hdeparture
  split at hdeparture
  · simp at hdeparture
  · rcases List.mem_append.mp hdeparture with h | h
    · split at h <;> simp at h
    · split at h
      · split at h
        · next hcross => simpa using hcross
        · cases h
      · cases h

theorem HasLeg.nextHop_cases (h : l.HasLeg switch a) (htable : a.table = .nextHop) :
    (∃ dst, l.dstSwitch = some switch ∧ l.dstFunction = some dst ∧
        a = if l.entry.src = .ingress then .gatewayToFunction dst
          else .forwarderToFunction l.srcEgress dst) ∨
      ∃ src, l.srcSwitch = some switch ∧ l.srcFunction = some src ∧
        (l.entry.dst = .egress ∧ a = .functionToGateway src ∨
          (l.entry.isSameForwarder = true ∧
            ∃ dst, l.dstFunction = some dst ∧ a = .functionToFunction src dst) ∨
          l.entry.isSameForwarder = false ∧ a = .functionToForwarder src l.dstIngress) := by
  cases h with
  | gatewayToFunction hswitch hdst hstart =>
    exact Or.inl ⟨_, hswitch, hdst, (if_pos hstart).symm⟩
  | forwarderToFunction hswitch hdst hstart =>
    exact Or.inl ⟨_, hswitch, hdst, (if_neg hstart).symm⟩
  | functionToGateway hswitch hsrc hend => exact Or.inr ⟨_, hswitch, hsrc, Or.inl ⟨hend, rfl⟩⟩
  | functionToFunction hswitch hsrc hdst hsame =>
    exact Or.inr ⟨_, hswitch, hsrc, Or.inr (Or.inl ⟨hsame, _, hdst, rfl⟩)⟩
  | functionToForwarder hswitch hsrc hsame =>
    exact Or.inr ⟨_, hswitch, hsrc, Or.inr (Or.inr ⟨Bool.eq_false_iff.mpr hsame, rfl⟩)⟩
  | _ => cases htable

theorem EndsApart.inner (hl : l.EndsApart) {src dst : Attachment} (hdst : l.dstSwitch = some switch)
    (hinto : l.dstFunction = some dst) (hsrc : l.srcSwitch = some switch)
    (hb : l.entry.dst = .egress ∧ b = .functionToGateway src ∨
      (l.entry.isSameForwarder = true ∧
        ∃ dst, l.dstFunction = some dst ∧ b = .functionToFunction src dst) ∨
      l.entry.isSameForwarder = false ∧ b = .functionToForwarder src l.dstIngress) :
    Overlap g l (if l.entry.src = .ingress then .gatewayToFunction dst
      else .forwarderToFunction l.srcEgress dst) b := by
  rcases hb with ⟨hend, -⟩ | ⟨hsame, other, hother, rfl⟩ | ⟨hsame, -⟩
  · simp [hl.finish hend] at hdst
  · cases hinto.symm.trans hother
    have hstart : l.entry.src ≠ .ingress := fun hstart => by simp [hl.start hstart] at hsrc
    rw [if_neg hstart]
    exact .inner hsame
  · exact absurd hsrc (hl.apart switch hsame hdst)

theorem EndsApart.overlap_nextHop (hl : l.EndsApart) (ha : l.HasLeg switch a)
    (hb : l.HasLeg switch b) (hta : a.table = .nextHop) (htb : b.table = .nextHop) :
    Overlap g l a b ∨ Overlap g l b a := by
  rcases ha.nextHop_cases hta with ⟨dst, hdst, hinto, rfl⟩ | ⟨src, hsrc, hback, ha⟩ <;>
    rcases hb.nextHop_cases htb with ⟨dst', hdst', hinto', rfl⟩ | ⟨src', hsrc', hback', hb⟩
  · cases hinto.symm.trans hinto'
    exact Or.inl (.same _)
  · exact Or.inl (hl.inner hdst hinto hsrc' hb)
  · exact Or.inr (hl.inner hdst' hinto' hsrc ha)
  · cases hback.symm.trans hback'
    rcases ha with ⟨hend, rfl⟩ | ⟨hsame, dst, hinto, rfl⟩ | ⟨hsame, rfl⟩ <;>
      rcases hb with ⟨hend', rfl⟩ | ⟨hsame', dst', hinto', rfl⟩ | ⟨hsame', rfl⟩
    · exact Or.inl (.same _)
    · simp [isSameForwarder_of_egress hend] at hsame'
    · exact Or.inl (.exit hend)
    · simp [isSameForwarder_of_egress hend'] at hsame
    · cases hinto.symm.trans hinto'
      exact Or.inl (.same _)
    · simp [hsame] at hsame'
    · exact Or.inr (.exit hend')
    · simp [hsame] at hsame'
    · exact Or.inl (.same _)

theorem egress_cases (h : (switch, a) ∈ l.legs g) (htable : a.table = .transportEgress) :
    (l.dstSwitch = some switch ∧ l.entry.dst ≠ .egress ∧
        ∃ dst, l.dstFunction = some dst ∧ a = .functionEgress dst) ∨
      l.srcSwitch = some switch ∧
        (l.entry.dst ≠ .egress ∧
            (l.entry.isSameForwarder = false ∨ g.isCrossPlacement l.number = true) ∧
            a = .forwarderEgress l.srcEgress l.dstIngress l.entry.hopIngress ∨
          l.entry.dst = .egress ∧ a = .terminalEgress l.srcFunction l.entry.pathEgress) := by
  cases hasLeg_of_mem_legs h with
  | functionEgress hswitch hdst hend => exact Or.inl ⟨hswitch, hend, _, hdst, rfl⟩
  | forwarderEgress hswitch hend =>
    exact Or.inr ⟨hswitch, Or.inl ⟨hend, crosses_of_mem_legs h, rfl⟩⟩
  | terminalEgress hswitch hend => exact Or.inr ⟨hswitch, Or.inr ⟨hend, rfl⟩⟩
  | _ => cases htable

theorem EndsApart.overlap_egress (hl : l.EndsApart) (ha : (switch, a) ∈ l.legs g)
    (hb : (switch, b) ∈ l.legs g) (hta : a.table = .transportEgress)
    (htb : b.table = .transportEgress) : Overlap g l a b ∨ Overlap g l b a := by
  -- traffic to the function and traffic to the next forwarder leave by different switches
  have hcrossing {leg : Leg} {dst : Attachment} (hdst : l.dstSwitch = some switch)
      (hgo : l.entry.dst ≠ .egress) (hsrc : l.srcSwitch = some switch)
      (hleg : l.entry.dst ≠ .egress ∧
          (l.entry.isSameForwarder = false ∨ g.isCrossPlacement l.number = true) ∧
          leg = .forwarderEgress l.srcEgress l.dstIngress l.entry.hopIngress ∨
        l.entry.dst = .egress ∧ leg = .terminalEgress l.srcFunction l.entry.pathEgress) :
      Overlap g l (.functionEgress dst) leg := by
    rcases hleg with ⟨-, hsame | hcross, rfl⟩ | ⟨hend, -⟩
    · exact absurd hsrc (hl.apart switch hsame hdst)
    · exact .crossing hcross
    · exact absurd hend hgo
  rcases egress_cases ha hta with ⟨hdst, hgo, dst, hinto, rfl⟩ | ⟨hsrc, ha⟩ <;>
    rcases egress_cases hb htb with ⟨hdst', hgo', dst', hinto', rfl⟩ | ⟨hsrc', hb⟩
  · cases hinto.symm.trans hinto'
    exact Or.inl (.same _)
  · exact Or.inl (hcrossing hdst hgo hsrc' hb)
  · exact Or.inr (hcrossing hdst' hgo' hsrc ha)
  · rcases ha with ⟨hgo, -, rfl⟩ | ⟨hend, rfl⟩ <;> rcases hb with ⟨hgo', -, rfl⟩ | ⟨hend', rfl⟩
    · exact Or.inl (.same _)
    · exact absurd hend' hgo
    · exact absurd hend hgo'
    · exact Or.inl (.same _)

end LocatedEntry
end ServiceChain
