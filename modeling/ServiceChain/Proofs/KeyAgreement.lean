import ServiceChain.Proofs.IndexedFlows

/-! Flows of one key. Where the index is part of every match and neighbouring forwarders have
switches of their own, a path stages flows of one key only if they do the same, so that it makes no
difference which of them stays. -/
namespace ServiceChain

theorem Placement.switch_inj {a b : Placement} (h : a.switch = b.switch) : a = b := by
  have htext : a.text.toList = b.text.toList :=
    congrArg String.toList ((String.append_right_inj _).mp h)
  have hdigits : Nat.toDigits 10 a.number.toNat = Nat.toDigits 10 b.number.toNat := by
    simpa [Placement.text] using htext
  have hnumber : a.number.toNat = b.number.toNat := by
    rw [← @Nat.ofDigitChars_ten_toDigits a.number.toNat, hdigits, Nat.ofDigitChars_ten_toDigits]
  cases a
  cases b
  exact congrArg Placement.mk (UInt64.toNat_inj.mp hnumber)

namespace LogicalForwarder

theorem srcEgressLocator_resolveTunnel (p : Placements) (e : HopEntry) :
    (resolveTunnel p e).srcEgressLocator = e.srcEgressLocator := by
  unfold resolveTunnel
  split
  · split
    · rfl
    · split <;> rfl
  · rfl

theorem placements_of_hopIngress {p : Placements} {e : HopEntry} (hbare : e.bare = e)
    (h : (resolveTunnel p e).hopIngress ≠ none) :
    ∃ src dst, e.srcPlacement = some src ∧ e.dstPlacement = some dst ∧ src ≠ dst := by
  have hnone : e.hopIngress = none := hbare ▸ rfl
  unfold resolveTunnel at h
  split at h
  · next src dst hsrc hdst =>
    split at h
    · exact absurd hnone h
    · next hne => exact ⟨src, dst, hsrc, hdst, hne⟩
  · exact absurd hnone h

end LogicalForwarder

theorem Variant.nameEntry_of_same (v : Variant) (t : Topology) {e : HopEntry}
    (hsame : e.isSameForwarder = true) : v.nameEntry t e = e := by
  have hlocators (kind : LocatorKind) : e.nameLocators t kind = e := if_pos hsame
  have hlink : MacChaining.nameLink t e = e := by
    unfold MacChaining.nameLink
    split
    · next src dst hsrc hdst =>
      exact if_pos (by simpa [HopEntry.isSameForwarder, hsrc, hdst] using hsame)
    · rfl
  cases v <;> simp [nameEntry, hlocators, hlink]

theorem LocatedEntry.srcEgress_of_locate {t : Topology} {number : Nat} {e : HopEntry}
    {l : LocatedEntry} (h : locate t number e = .ok l) :
    l.srcEgress = e.src.name?.bind fun name => e.srcEgressLocator.bind (t.locator? name) := by
  obtain ⟨_, -, h⟩ := bind_eq_ok.mp h
  obtain ⟨_, -, h⟩ := bind_eq_ok.mp h
  cases h
  rfl

theorem LocatedEntry.eq_of_switchOf_placed {t : Topology} {point : Endpoint} {placement : Placement}
    {switch : SwitchId} (h : switchOf t point (some placement) = .ok (some switch)) :
    placement.switch = switch := by
  simp only [switchOf] at h
  split at h
  · cases h
  · simpa [Topology.switch?] using h

theorem HopGraph.bare_of_mem_chainOf {d : Deployment} {path : ServicePath} {e : HopEntry}
    (h : e ∈ chainOf d path) : e.bare = e :=
  List.map_inj_left.mp ((map_bare_chain path _ _ _).trans (List.map_id _).symm) e h

/-- Where the path goes from one forwarder to another, it goes from one switch to another. -/
def Deployment.NeighboursApart (d : Deployment) (path : ServicePath) : Prop :=
  ∀ i hop next, path.hops[i]? = some hop → path.hops[i + 1]? = some next →
    hop.forwarder ≠ next.forwarder → d.switchOf? hop ≠ d.switchOf? next

namespace Plan

variable {d : Deployment} {pool : VlanPool} {path : ServicePath} {p : Plan} {i j : Nat}
  {l other : LocatedEntry} {switch : SwitchId} {leg a b : Leg}

theorem entries_of_logical (hplan : (make d pool path).1 = .ok p)
    (hlogical : p.variant = .logicalForwarder) :
    p.graph.entries =
      (HopGraph.chainOf d path).map (LogicalForwarder.resolveTunnel d.placements) := by
  simp only [make] at hplan
  split at hplan
  · cases hplan
  · next g hbuild =>
    obtain ⟨-, rfl, -⟩ := HopGraph.build_ok hbuild
    split at hplan
    · cases hplan
    · next v _ =>
      cases hplan
      cases hlogical
      simp [Variant.resolveLocators, Variant.nameLocators, Variant.nameEntry, HopGraph.mapEntries]

namespace Locates

theorem srcEgress_of_same (h : p.Locates d i l) (hplan : (make d pool path).1 = .ok p)
    (hvlan : p.variant ≠ .vlan) (hsame : l.entry.isSameForwarder = true) : l.srcEgress = none := by
  have hnone : l.entry.srcEgressLocator = none := by
    have hmem := List.mem_of_getElem? h.entry
    by_cases hlogical : p.variant = .logicalForwarder
    · rw [entries_of_logical hplan hlogical] at hmem
      obtain ⟨built, hbuilt, hentry⟩ := List.mem_map.mp hmem
      rw [← hentry, LogicalForwarder.srcEgressLocator_resolveTunnel,
        ← HopGraph.bare_of_mem_chainOf hbuilt]
      rfl
    · rw [entries_of_make hplan hvlan hlogical] at hmem
      obtain ⟨built, hbuilt, hentry⟩ := List.mem_map.mp hmem
      have hbare : built.bare = l.entry.bare := by
        rw [← hentry, HopEntry.bare_resolveLocators, Variant.bare_nameEntry]
      have hsame : built.isSameForwarder = true :=
        (congrArg HopEntry.isSameForwarder hbare).trans hsame
      rw [← hentry, Variant.nameEntry_of_same _ _ hsame, HopEntry.resolveLocators, if_pos hsame,
        ← HopGraph.bare_of_mem_chainOf hbuilt]
      rfl
  simp [LocatedEntry.srcEgress_of_locate h.located, hnone]

theorem hopIngress_of_switch (h : p.Locates d i l) (hplan : (make d pool path).1 = .ok p)
    (hlogical : p.variant = .logicalForwarder) (hdst : l.dstSwitch = some switch)
    (hsrc : l.srcSwitch = some switch) : l.entry.hopIngress = none := by
  by_contra hingress
  have hmem := List.mem_of_getElem? h.entry
  rw [entries_of_logical hplan hlogical] at hmem
  obtain ⟨built, hbuilt, hentry⟩ := List.mem_map.mp hmem
  rw [← hentry] at hingress
  obtain ⟨src, dst, hfrom, hto, hne⟩ :=
    LogicalForwarder.placements_of_hopIngress (HopGraph.bare_of_mem_chainOf hbuilt) hingress
  have hbare : l.entry.bare = built.bare := by
    rw [← hentry, LogicalForwarder.bare_resolveTunnel]
  obtain ⟨-, hleads, hleaves⟩ := LocatedEntry.locate_ok h.located
  rw [hdst, show l.entry.dstPlacement = some dst from
    (congrArg HopEntry.dstPlacement hbare).trans hto] at hleads
  rw [hsrc, show l.entry.srcPlacement = some src from
    (congrArg HopEntry.srcPlacement hbare).trans hfrom] at hleaves
  have hto : dst.switch = switch := LocatedEntry.eq_of_switchOf_placed hleads
  have hfrom : src.switch = switch := LocatedEntry.eq_of_switchOf_placed hleaves
  exact hne (Placement.switch_inj (hfrom.trans hto.symm))

theorem endsApart (h : p.Locates d i l) (hp : p.Carries d path) (hapart : d.NeighboursApart path) :
    l.EndsApart := by
  obtain ⟨-, hleads, hleaves⟩ := LocatedEntry.locate_ok h.located
  refine ⟨fun hstart => ?_, fun hend => ?_, fun switch hsame hdst hsrc => ?_⟩
  · rw [hstart] at hleaves
    exact (Except.ok.inj hleaves).symm
  · rw [hend] at hleads
    exact (Except.ok.inj hleads).symm
  obtain ⟨next, hnext, hto, harrives⟩ := h.exists_hop hp hdst
  obtain ⟨k, hop, rfl, hhop, hfrom, hleaves⟩ := h.exists_departure hp hsrc
  refine hapart k hop next hhop hnext (fun hname => ?_) (hfrom.trans hto.symm)
  rw [(LocatedEntry.isSameForwarder_iff harrives hleaves).mpr hname] at hsame
  cases hsame

theorem index_add (h : p.Locates d i l) (hp : p.Carries d path) :
    l.entry.index.toNat + i = path.startingIndex.toNat := by
  cases i with
  | zero =>
    obtain ⟨hop, hhop⟩ : ∃ hop, path.hops[0]? = some hop :=
      ⟨_, List.getElem?_eq_getElem (List.length_pos_iff.mpr hp.hops_ne_nil)⟩
    obtain ⟨_, -, harrives⟩ := h.arrivesAt hp hhop
    rw [harrives.index]
    exact (HopGraph.index_of_checkHops hp.checked hhop).1
  | succ i =>
    obtain ⟨hop, _, hhop, -, hleaves⟩ := h.exists_previous hp
    obtain ⟨hsum, hpos⟩ := HopGraph.index_of_checkHops hp.checked hhop
    rw [hleaves.index, HopGraph.toNat_pred hpos]
    omega

theorem unique (h : p.Locates d i l) (hother : p.Locates d i other) : l = other := by
  have hentry : l.entry = other.entry := Option.some.inj (h.entry.symm.trans hother.entry)
  exact Except.ok.inj (h.located.symm.trans (hentry ▸ hother.located))

theorem eq_of_index (h : p.Locates d i l) (hother : p.Locates d j other) (hp : p.Carries d path)
    (hindex : l.entry.index = other.entry.index) : l = other := by
  have hsum := h.index_add hp
  have hsame := hother.index_add hp
  obtain rfl : i = j := by
    rw [hindex] at hsum
    omega
  exact h.unique hother

theorem indexed (h : p.Locates d i l) (hp : p.Carries d path) (hv : p.variant.carriesId = true)
    (hleg : (switch, leg) ∈ l.legs p.graph) (ctx : LegContext) :
    (p.variant.emit ctx l.entry leg).Indexed l.entry := by
  refine Variant.indexed_emit hv ctx fun dst hfunction => ?_
  subst hfunction
  cases LocatedEntry.hasLeg_of_mem_legs hleg with
  | functionEgress hswitch =>
    obtain ⟨hop, hhop, -, harrives⟩ := h.exists_hop hp hswitch
    rw [harrives.index]
    exact (HopGraph.index_of_checkHops hp.checked hhop).2

theorem agrees_of_overlap (h : p.Locates d i l) (hplan : (make d pool path).1 = .ok p)
    (hv : p.variant.carriesId = true) (ctx : LegContext) (ha : (switch, a) ∈ l.legs p.graph)
    (hb : (switch, b) ∈ l.legs p.graph)
    (hover : LocatedEntry.Overlap p.graph l a b) :
    (p.variant.emit ctx l.entry a).Agrees (p.variant.emit ctx l.entry b) := by
  have hp : p.Carries d path := make_ok (Prod.ext hplan rfl)
  have hvlan : p.variant ≠ .vlan := fun hvlan => by simp [hvlan, Variant.carriesId] at hv
  cases hover with
  | same leg => exact (h.indexed hp hv ha ctx).agrees
  | inner hsame =>
    rw [h.srcEgress_of_same hplan hvlan hsame]
    exact Variant.agrees_inner ctx l.entry hv _ _
  | exit hend => exact Variant.agrees_exit ctx l.entry hv _ _ hend
  | crossing hcross =>
    have hlogical : p.variant = .logicalForwarder := by
      by_contra hplain
      simp [HopGraph.isCrossPlacement, HopGraph.isIntraLogical, hp.isLogical_eq_false hplain]
        at hcross
    rw [hlogical]
    cases LocatedEntry.hasLeg_of_mem_legs ha with
    | functionEgress hdst =>
      cases LocatedEntry.hasLeg_of_mem_legs hb with
      | forwarderEgress hsrc =>
        rw [h.hopIngress_of_switch hplan hlogical hdst hsrc]
        exact LegOutcome.agrees_skipped _

/-- Behind the path mapper, legs that share a switch and a table agree. -/
theorem agrees (h : p.Locates d i l) (hplan : (make d pool path).1 = .ok p)
    (hv : p.variant.carriesId = true) (hapart : d.NeighboursApart path) (ctx : LegContext)
    (ha : (switch, a) ∈ l.legs p.graph) (hb : (switch, b) ∈ l.legs p.graph)
    (hsame : a.table = b.table) (htable : a.table = .nextHop ∨ a.table = .transportEgress) :
    (p.variant.emit ctx l.entry a).Agrees (p.variant.emit ctx l.entry b) := by
  have hends := h.endsApart (make_ok (Prod.ext hplan rfl)) hapart
  have hover : LocatedEntry.Overlap p.graph l a b ∨ LocatedEntry.Overlap p.graph l b a := by
    rcases htable with htable | htable
    · exact hends.overlap_nextHop (LocatedEntry.hasLeg_of_mem_legs ha)
        (LocatedEntry.hasLeg_of_mem_legs hb) htable (hsame.symm.trans htable)
    · exact hends.overlap_egress ha hb htable (hsame.symm.trans htable)
  rcases hover with hover | hover
  · exact h.agrees_of_overlap hplan hv ctx ha hb hover
  · exact (h.agrees_of_overlap hplan hv ctx hb ha hover).symm

end Locates
end Plan

namespace FlowTemplate

variable {t u : FlowTemplate} {e other : HopEntry}

/-- Of two flows that cannot be told apart both admit packets to the next hops, or both stand behind
the path mapper and come from entries of one index. -/
theorem Indexed.cases (ht : t.Indexed e) (hu : u.Indexed other)
    (hpriority : t.priority = u.priority) (hmatch : t.flowMatch = u.flowMatch) :
    t.actions = u.actions ∨ e.index = other.index ∧
      (TableRef.ofPriority t.priority = .nextHop ∨
        TableRef.ofPriority t.priority = .transportEgress) := by
  rcases ht with ⟨ht, hadmits⟩ | ⟨htable, ht⟩ <;> rcases hu with ⟨hu, hadmits'⟩ | ⟨htable', hu⟩
  · exact Or.inl (hadmits.trans hadmits'.symm)
  · rw [← hpriority, ht] at htable'
    exact absurd htable' (by decide)
  · rw [hpriority, hu] at htable
    exact absurd htable (by decide)
  · rw [hpriority, hmatch, hu] at ht
    exact Or.inr ⟨(Option.some.inj ht).symm, htable⟩

end FlowTemplate

namespace Compilation

variable {d : Deployment} {pool : VlanPool} {path : ServicePath} {p : Plan}
  {initialized : List SwitchId} {c : Compilation} {flow other : Flow}

theorem exists_leg_of_mem_own (hmake : make d p initialized = .ok c) (hflow : flow ∈ c.batch.flows)
    (hown : flow.owner ≠ .unowned) :
    ∃ i l leg t, p.Locates d i l ∧ (flow.switch, leg) ∈ l.legs p.graph ∧
      t ∈ (p.variant.emit (d.legContext p.graph.pathId) l.entry leg).templates ∧
      TableRef.ofPriority t.priority = leg.table ∧
      flow = t.on (p.tables d.config) (.path p.graph.pathId) flow.switch := by
  obtain ⟨i, e, l, hentry, hlocate, hmem⟩ := exists_of_mem_own hmake hflow hown
  obtain ⟨rfl, -⟩ := LocatedEntry.locate_ok hlocate
  obtain ⟨leg, t, hleg, ht, hon, hfits⟩ := exists_leg_of_mem_ownFlows hmem
  exact ⟨i, l, leg, t, ⟨hentry, hlocate⟩, hleg, ht, Leg.ofPriority_eq hfits.priority, hon⟩

theorem actions_of_key (hplan : (Plan.make d pool path).1 = .ok p)
    (hmake : make d p initialized = .ok c) (hv : p.variant.carriesId = true)
    (hapart : d.NeighboursApart path) (hflow : flow ∈ c.batch.flows)
    (hown : flow.owner ≠ .unowned) (hother : other ∈ c.batch.flows)
    (hown' : other.owner ≠ .unowned) (hkey : flow.key = other.key) :
    flow.actions = other.actions := by
  have hp : p.Carries d path := Plan.make_ok (Prod.ext hplan rfl)
  obtain ⟨i, l, a, t, hl, ha, ht, hta, hon⟩ := exists_leg_of_mem_own hmake hflow hown
  obtain ⟨j, l', b, u, hl', hb, hu, hub, hon'⟩ := exists_leg_of_mem_own hmake hother hown'
  have hswitch : flow.switch = other.switch := congrArg FlowKey.switch hkey
  rw [← hswitch] at hb
  rw [hon, hon'] at hkey
  have hpriority : t.priority = u.priority := congrArg FlowKey.priority hkey
  have hmatch : t.flowMatch = u.flowMatch := congrArg FlowKey.flowMatch hkey
  have hsame : t.actions = u.actions := by
    rcases ((hl.indexed hp hv ha _).templates t ht).cases ((hl'.indexed hp hv hb _).templates u hu)
      hpriority hmatch with hsame | ⟨hindex, htable⟩
    · exact hsame
    · obtain rfl : l = l' := hl.eq_of_index hl' hp hindex
      have hab : a.table = b.table := by rw [← hta, ← hub, hpriority]
      exact hl.agrees hplan hv hapart _ ha hb hab (hta ▸ htable) t ht u hu hpriority hmatch
  rw [hon, hon']
  simp only [FlowTemplate.on, hsame]

/-- Default flows have priorities of their own, so that no key is shared with them. -/
theorem owner_of_key (hp : p.Carries d path) (hmake : make d p initialized = .ok c)
    (hflow : flow ∈ c.batch.flows) (hown : flow.owner = .path path.id) :
    ∀ other ∈ c.batch.flows, other.key = flow.key → other.owner = .path path.id := by
  intro other hother hkey
  have hpriority : other.priority = flow.priority := congrArg FlowKey.priority hkey
  rcases owner_of_mem hp hmake hother with ⟨-, hdefault⟩ | ⟨howner, -⟩
  · rcases owner_of_mem hp hmake hflow with ⟨hnobody, -⟩ | ⟨-, hpath⟩
    · simp [hown] at hnobody
    · exact absurd (hpriority ▸ hdefault) hpath
  · exact howner

end Compilation

/-- Of a key whose flows in a batch belong to one owner and do the same, the version that is
installed does what each of them does. -/
theorem FlowStore.exists_installed (store : FlowStore) {batch : List Flow} {owner : FlowOwner}
    {flow : Flow} (hflow : flow ∈ batch) (hown : flow.owner = owner)
    (halone : ∀ other ∈ batch, other.key = flow.key → other.owner = owner)
    (hagree : ∀ other ∈ batch, other.owner = owner → other.key = flow.key →
      other.actions = flow.actions) :
    ∃ installed, ((store.commit batch).versions flow.key).getLast? = some installed ∧
      installed.owner = owner ∧ installed.actions = flow.actions := by
  rw [versions_commit store halone]
  cases hlast : Flow.last? owner flow.key batch with
  | none => exact absurd hown (Flow.last?_none.mp hlast flow hflow rfl)
  | some last =>
    obtain ⟨hmem, howner, hkey⟩ := Flow.last?_some hlast
    exact ⟨last, List.getLast?_concat, howner, hagree last hmem howner hkey⟩

namespace Renderer

variable {σ : Type} [FlowDestination σ]

theorem exists_installed_render {d : Deployment} {r : Renderer σ} {path : ServicePath}
    {report : RenderReport} (h : (r.render d path).result = .ok report) (store : FlowStore)
    {flow : Flow} (hflow : flow ∈ (r.render d path).trace.offered)
    (hown : flow.owner = .path path.id)
    (hagree : ∀ other ∈ (r.render d path).trace.offered, other.owner = .path path.id →
      flow.key = other.key → flow.actions = other.actions) :
    ∃ installed,
      ((store.commit (r.render d path).trace.offered).versions flow.key).getLast? =
          some installed ∧
        installed.owner = .path path.id ∧ installed.actions = flow.actions := by
  obtain ⟨p, c, hplan, hmake, -, -, -, hoffered⟩ := render_taken h
  have hp : p.Carries d path := Plan.make_ok (Prod.ext hplan rfl)
  rw [hoffered] at hflow hagree ⊢
  exact store.exists_installed hflow hown (Compilation.owner_of_key hp hmake hflow hown)
    fun other hother hown' hkey => (hagree other hother hown' hkey.symm).symm

/-- Transports that name the index lose no flow. Where neighbouring forwarders of the path have
switches of their own, its flows of one key do the same; so in whatever store the batch is
committed, the version that is installed does what every flow staged for its key does. -/
theorem index_keys_agree (d : Deployment) (r : Renderer σ) (path : ServicePath)
    (report : RenderReport) (h : (r.render d path).result = .ok report)
    (hvariant : report.variant ∈ [.nshTunnel, .nshEthernet, .macChaining, .logicalForwarder])
    (hapart : d.NeighboursApart path) :
    ((r.render d path).trace.offered ≠ [] →
        FlowDestination.commit r.sink (r.render d path).trace.offered =
          .ok (r.render d path).renderer.sink) ∧
      (∀ flow ∈ (r.render d path).trace.offered, ∀ other ∈ (r.render d path).trace.offered,
        flow.owner = .path path.id → other.owner = .path path.id → flow.key = other.key →
          flow.actions = other.actions) ∧
      ∀ (store : FlowStore), ∀ flow ∈ (r.render d path).trace.offered,
        flow.owner = .path path.id →
          ∃ installed,
            ((store.commit (r.render d path).trace.offered).versions flow.key).getLast? =
                some installed ∧
              installed.owner = .path path.id ∧ installed.actions = flow.actions := by
  have hkeys : ∀ flow ∈ (r.render d path).trace.offered,
      ∀ other ∈ (r.render d path).trace.offered, flow.owner = .path path.id →
        other.owner = .path path.id → flow.key = other.key → flow.actions = other.actions := by
    obtain ⟨p, c, hplan, hmake, -, rfl, -, hoffered⟩ := render_taken h
    have hv : p.variant.carriesId = true :=
      (by decide : ∀ v ∈ [Variant.nshTunnel, .nshEthernet, .macChaining, .logicalForwarder],
        v.carriesId = true) p.variant hvariant
    rw [hoffered]
    intro flow hflow other hother hown hown' hkey
    exact Compilation.actions_of_key hplan hmake hv hapart hflow (by simp [hown]) hother
      (by simp [hown']) hkey
  refine ⟨commit_of_offered h, hkeys, fun store flow hflow hown => ?_⟩
  exact exists_installed_render h store hflow hown fun other hother hown' =>
    hkeys flow hflow other hother hown hown'

def returningPath : ServicePath :=
  { shortPath with
    hops :=
      [⟨"edge", "firewall", none, 255⟩, ⟨"edge", "firewall", none, 254⟩,
        ⟨"core", "inspector", none, 253⟩, ⟨"edge", "firewall", none, 252⟩] }

theorem neighboursApart_returningPath : chainDeployment.NeighboursApart returningPath := by
  intro i hop next hhop hnext hcross
  match i, hhop, hnext with
  | 0, rfl, rfl => exact absurd rfl hcross
  | 1, rfl, rfl => decide
  | 2, rfl, rfl => decide

theorem index_keys_agree_returning :
    ¬ (((fresh chainDeployment).render chainDeployment returningPath).trace.offered.map
        (·.key)).Nodup ∧
      ∀ flow ∈ ((fresh chainDeployment).render chainDeployment returningPath).trace.offered,
        flow.owner = .path 1 →
          ∃ installed,
            ((FlowStore.empty.commit ((fresh chainDeployment).render chainDeployment
                returningPath).trace.offered).versions flow.key).getLast? = some installed ∧
              installed.owner = .path 1 ∧ installed.actions = flow.actions := by
  obtain ⟨-, -, hinstalled⟩ := index_keys_agree chainDeployment (fresh chainDeployment)
    returningPath _ rfl (by decide) neighboursApart_returningPath
  exact ⟨by decide +kernel, hinstalled FlowStore.empty⟩

end Renderer
end ServiceChain
