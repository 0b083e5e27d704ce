import ServiceChain.Proofs.TunnelExits

/-! Which flow is applied to a packet at the end of a tunnelled path: first the one for packets that
are tunnelled to the forwarder itself, which takes all packets if the forwarder has no address. -/
namespace ServiceChain

namespace FlowStore

variable {store : FlowStore} {switch : SwitchId} {tableId : UInt8} {packet : Packet} {flow : Flow}

/-- The installed flows that cover a packet in a table of a switch. -/
def candidates (store : FlowStore) (switch : SwitchId) (tableId : UInt8) (packet : Packet) :
    List Flow :=
  store.flows.filter fun flow =>
    flow.switch = switch ∧ flow.tableId = tableId ∧ flow.flowMatch.covers packet = true

theorem mem_candidates : flow ∈ store.candidates switch tableId packet ↔
    flow ∈ store.flows ∧ flow.switch = switch ∧ flow.tableId = tableId ∧
      flow.flowMatch.covers packet = true := by
  simp [candidates]

/-- Of the flows that cover the packet it is the one with the highest priority. -/
structure Applies (store : FlowStore) (switch : SwitchId) (tableId : UInt8) (packet : Packet)
    (flow : Flow) : Prop where
  candidate : flow ∈ store.candidates switch tableId packet
  highest : ∀ other ∈ store.candidates switch tableId packet, other ≠ flow →
    other.priority < flow.priority

end FlowStore

/-- At the end of a tunnelled path a store has the three flows for the last index on the switch of
the last hop; above the usual flows the path has no others for this index. -/
structure FlowStore.EndsAt (store : FlowStore) (d : Deployment) (path : ServicePath) (last : Hop)
    (switch : SwitchId) (e : HopEntry) : Prop where
  located : d.switchOf? last = some switch
  index : e.index = last.index - 1
  address : ∀ ip, NshTunnel.localIp? (d.legContext path.id) e e.pathEgress = some ip →
    ∃ f, d.topology.forwarder? last.forwarder = some f ∧ ip ∈ f.tunnelIps
  known : (NshTunnel.localIp? (d.legContext path.id) e e.pathEgress).isSome ↔
    ((d.topology.forwarder? last.forwarder).bind (·.tunnelIp?)).isSome
  flows : ∀ flow, flow.owner = .path path.id → Priority.transportEgress < flow.priority →
    (∀ index, flow.flowMatch.nsi = some index → index = e.index) →
      (flow ∈ store.flows ↔
        ∃ t ∈ NshTunnel.terminal (d.legContext path.id) e e.pathEgress,
          flow = t.on d.config.standardTables (.path path.id) switch)

namespace FlowStore.EndsAt

variable {store : FlowStore} {d : Deployment} {path : ServicePath} {last : Hop}
  {switch : SwitchId} {e : HopEntry} {t : FlowTemplate} {flow : Flow} {packet : Packet}

theorem mem_candidates (h : store.EndsAt d path last switch e)
    (ht : t ∈ NshTunnel.terminal (d.legContext path.id) e e.pathEgress)
    (hcovers : t.flowMatch.covers packet = true) :
    t.on d.config.standardTables (.path path.id) switch ∈
      store.candidates switch d.config.standardTables.transportEgress packet := by
  obtain ⟨htable, hlt, hnsi, -⟩ := NshTunnel.marks_of_mem_terminal ht
  refine FlowStore.mem_candidates.mpr ⟨?_, rfl, ?_, hcovers⟩
  · exact (h.flows _ rfl hlt fun index hindex =>
      Option.some.inj (hindex.symm.trans hnsi)).mpr ⟨t, ht, rfl⟩
  · simp only [FlowTemplate.on, htable, TableNumbers.resolve]

theorem exists_of_covers (h : store.EndsAt d path last switch e) (hflow : flow ∈ store.flows)
    (howner : flow.owner = .path path.id) (hcovers : flow.flowMatch.covers packet = true)
    (hlt : Priority.transportEgress < flow.priority) (hnsi : packet.nsi = some e.index) :
    ∃ t ∈ NshTunnel.terminal (d.legContext path.id) e e.pathEgress,
      flow = t.on d.config.standardTables (.path path.id) switch :=
  (h.flows flow howner hlt fun _ hindex =>
    Option.some.inj ((FlowMatch.nsi_of_covers hcovers hindex).symm.trans hnsi)).mp hflow

/-- Where the forwarder has no address, the flow for the other application covers every packet that
leaves the path, above the flow that is meant for it. -/
theorem isSome_of_applies (h : store.EndsAt d path last switch e)
    (ht : t ∈ NshTunnel.terminal (d.legContext path.id) e e.pathEgress)
    (hrole : t.role = packet.exitRole)
    (happlies : store.Applies switch d.config.standardTables.transportEgress packet
      (t.on d.config.standardTables (.path path.id) switch)) :
    (NshTunnel.localIp? (d.legContext path.id) e e.pathEgress).isSome := by
  obtain ⟨hcovers, hpriority⟩ := NshTunnel.exit_spec ht hrole
  have hnsh := hcovers.mp (FlowStore.mem_candidates.mp happlies.candidate).2.2.2
  cases hlocal : NshTunnel.localIp? (d.legContext path.id) e e.pathEgress with
  | some ip => rfl
  | none =>
    obtain ⟨u, hu, happ, habove, hmatch⟩ :=
      NshTunnel.exists_coexistence (d.legContext path.id) e e.pathEgress
    have hall : u.flowMatch.covers packet = true := by
      rw [hmatch, hlocal, FlowMatch.covers_withTunDst rfl, NshEthernet.nsh,
        FlowMatch.covers_withNsh]
      exact ⟨hnsh, fun _ hnone => by cases hnone⟩
    have hbelow : u.priority < t.priority := by
      refine happlies.highest _ (h.mem_candidates hu hall) fun hsame => ?_
      have hroles : u.role = t.role := congrArg Flow.role hsame
      rw [happ, hrole, Packet.exitRole] at hroles
      split at hroles <;> cases hroles
    rw [habove, hpriority] at hbelow
    split at hbelow <;> exact absurd hbelow (by decide)

theorem applies (h : store.EndsAt d path last switch e)
    (ht : t ∈ NshTunnel.terminal (d.legContext path.id) e e.pathEgress)
    (hrole : t.role = packet.exitRole) (hnsh : packet.HasNsh path.id e.index)
    (hlocal : ∃ ip, NshTunnel.localIp? (d.legContext path.id) e e.pathEgress = some ip ∧
      packet.tunDst ≠ some ip)
    (hothers : ∀ other ∈ store.candidates switch d.config.standardTables.transportEgress packet,
      Priority.transportEgress < other.priority → other.owner = .path path.id) :
    store.Applies switch d.config.standardTables.transportEgress packet
      (t.on d.config.standardTables (.path path.id) switch) := by
  obtain ⟨-, hlt, -⟩ := NshTunnel.marks_of_mem_terminal ht
  refine ⟨h.mem_candidates ht ((NshTunnel.exit_spec ht hrole).1.mpr hnsh),
    fun other hother hne => UInt16.not_le.mp fun hle => ?_⟩
  have habove : Priority.transportEgress < other.priority := UInt16.lt_of_lt_of_le hlt hle
  obtain ⟨hmem, -, -, hcovers⟩ := FlowStore.mem_candidates.mp hother
  obtain ⟨u, hu, rfl⟩ :=
    h.exists_of_covers hmem (hothers other hother habove) hcovers habove hnsh.nsi
  have happ : u.role ≠ .appCoexistenceEgress := by
    intro happ
    obtain ⟨ip, hip, helsewhere⟩ := hlocal
    rcases NshTunnel.cases_of_mem_terminal hu with ⟨hrole, -⟩ | ⟨hrole, -⟩ | ⟨-, -, hmatch⟩
    · cases happ.symm.trans hrole
    · cases happ.symm.trans hrole
    · have hcovers : u.flowMatch.covers packet = true := hcovers
      rw [hmatch, FlowMatch.covers_withTunDst rfl] at hcovers
      exact helsewhere (hcovers.2 ip hip)
  rcases NshTunnel.eq_or_lt_of_covers ht hrole hu hcovers happ with rfl | hbelow
  · exact hne rfl
  · exact UInt16.not_le.mpr hbelow hle

end FlowStore.EndsAt

namespace Renderer

variable {d : Deployment} {log : List Reply} {r : Renderer} {path : ServicePath}
  {report : RenderReport} {flow : Flow}

theorem Reached.exists_endsAt (h : Reached d ({} : FlowSink) log r)
    (hreport : (r.render d path).result = .ok report) (hvariant : report.variant = .nshTunnel)
    (hlacks : r.sink.store.Lacks (.path path.id)) {last : Hop}
    (hlast : path.hops.getLast? = some last) :
    ∃ switch e, (r.render d path).renderer.sink.store.EndsAt d path last switch e := by
  obtain ⟨p, c, hplan, hmake, -, rfl, -, hoffered⟩ := render_taken hreport
  have hv : p.variant = .nshTunnel := hvariant
  have hp : p.Carries d path := Plan.make_ok (Prod.ext hplan rfl)
  obtain ⟨l, switch, hl, hswitch, hleaves⟩ := Plan.exists_final hp hmake hlast
  refine ⟨switch, l.entry, hswitch, hleaves.index,
    fun ip hip => hl.mem_tunnelIps_of_localIp? hplan hv hleaves.src hip,
    hl.isSome_localIp? hplan hv hleaves.src, fun flow howner hlt hnsi => ?_⟩
  -- what the store shows under the key is one of the three, whichever flow has the key
  have hterminal {g : Flow} (hlast : Flow.last? (.path path.id) flow.key
      (r.render d path).trace.offered = some g) :
      g.key = flow.key ∧ ∃ t ∈ NshTunnel.terminal (d.legContext path.id) l.entry l.entry.pathEgress,
        g = t.on d.config.standardTables (.path path.id) switch := by
    obtain ⟨hg, hpath, hkey⟩ := Flow.last?_some hlast
    have hpriority : g.priority = flow.priority := congrArg FlowKey.priority hkey
    have hmatch : g.flowMatch = flow.flowMatch := congrArg FlowKey.flowMatch hkey
    rw [hoffered] at hg
    obtain ⟨hfound, hon⟩ := hl.terminal_of_mem hp hmake hv hg (by simp [hpath]) (hpriority ▸ hlt)
      (hmatch ▸ hnsi)
    obtain rfl : switch = g.switch := Option.some.inj (hleaves.srcSwitch.symm.trans hfound)
    exact ⟨hkey, hon⟩
  rw [(Shows.of_render hreport hlacks).mem_flows (h.render path).store_wellFormed howner]
  constructor
  · intro hlast
    exact (hterminal hlast).2
  · rintro ⟨t, ht, rfl⟩
    have hstaged : t.on d.config.standardTables (.path path.id) switch ∈
        (r.render d path).trace.offered := by
      rw [hoffered]
      exact hl.mem_of_terminal hp hmake hv hleaves.srcSwitch ht
    cases hlast : Flow.last? (.path path.id)
        (t.on d.config.standardTables (.path path.id) switch).key
        (r.render d path).trace.offered with
    | none => exact absurd rfl (Flow.last?_none.mp hlast _ hstaged rfl)
    | some g =>
      obtain ⟨hkey, u, hu, rfl⟩ := hterminal hlast
      rw [NshTunnel.eq_of_priority ht hu (congrArg FlowKey.priority hkey)]

/-- Above the usual egress flows, an installed flow of another path or of nobody that covers a
packet with a service header of the path does not look at the header. -/
theorem Reached.ignoresHeader_of_mem (h : Reached d ({} : FlowSink) log r)
    (hflow : flow ∈ r.sink.store.flows) {id : PathId} (hother : flow.owner ≠ .path id)
    {packet : Packet} (hnsp : packet.nsp = some id)
    (hcovers : flow.flowMatch.covers packet = true)
    (hlt : Priority.transportEgress < flow.priority) : flow.IgnoresHeader := by
  have hlast := (h.store_wellFormed.mem_flows flow).mp hflow
  obtain ⟨-, other, hstages⟩ := h.stages_of_mem_versions (List.mem_of_getLast? hlast)
  exact hstages.ignoresHeader hother hnsp hcovers hlt

/-- At the end of a tunnelled path, a packet that is not tunnelled to the last hop's forwarder has a
flow by which it leaves or goes on where its context says. That is the flow that is applied exactly
if the forwarder has an address, so that the flow for packets that are tunnelled to it does not
cover all others, and no flow that does not look at the service header covers the packet. -/
theorem Reached.exit_applies_iff (h : Reached d ({} : FlowSink) log r) (path : ServicePath)
    (report : RenderReport) (hreport : (r.render d path).result = .ok report)
    (hvariant : report.variant = .nshTunnel) (hlacks : r.sink.store.Lacks (.path path.id))
    (last : Hop) (hlast : path.hops.getLast? = some last) (packet : Packet)
    (hnsh : packet.HasNsh path.id (last.index - 1))
    (helsewhere : ∀ f, d.topology.forwarder? last.forwarder = some f →
      ∀ ip ∈ f.tunnelIps, packet.tunDst ≠ some ip) :
    ∃ switch flow, d.switchOf? last = some switch ∧
      flow ∈ (r.render d path).renderer.sink.store.candidates switch
        d.config.standardTables.transportEgress packet ∧
      flow.owner = .path path.id ∧ flow.table = .transportEgress ∧ flow.role = packet.exitRole ∧
      ((r.render d path).renderer.sink.store.Applies switch
          d.config.standardTables.transportEgress packet flow ↔
        ((d.topology.forwarder? last.forwarder).bind (·.tunnelIp?)).isSome ∧
          ∀ other ∈ (r.render d path).renderer.sink.store.candidates switch
            d.config.standardTables.transportEgress packet, ¬ other.IgnoresHeader) := by
  obtain ⟨switch, e, hend⟩ := h.exists_endsAt hreport hvariant hlacks hlast
  rw [← hend.index] at hnsh
  obtain ⟨t, ht, hrole⟩ := NshTunnel.exists_exit (d.legContext path.id) e e.pathEgress packet
  obtain ⟨hcovers, hpriority⟩ := NshTunnel.exit_spec ht hrole
  obtain ⟨htable, -⟩ := NshTunnel.marks_of_mem_terminal ht
  refine ⟨switch, _, hend.located, hend.mem_candidates ht (hcovers.mpr hnsh), rfl, htable, hrole,
    fun happlies => ⟨hend.known.mp (hend.isSome_of_applies ht hrole happlies),
      fun other hother hignores => ?_⟩, fun ⟨hknown, hheader⟩ => ?_⟩
  · have hbelow : other.priority < t.priority := by
      refine happlies.highest other hother ?_
      rintro rfl
      exact NshTunnel.not_ignoresHeader ht _ _ _ hignores
    have hmost : t.priority ≤ Priority.lastHopEgress := by
      rw [hpriority]
      split <;> decide
    exact UInt16.not_le.mpr hbelow (UInt16.le_trans hmost hignores.le_priority)
  · obtain ⟨ip, hip⟩ := Option.isSome_iff_exists.mp (hend.known.mpr hknown)
    obtain ⟨f, hf, hmem⟩ := hend.address ip hip
    refine hend.applies ht hrole hnsh ⟨ip, hip, helsewhere f hf ip hmem⟩
      fun other hother habove => ?_
    by_contra hforeign
    obtain ⟨hinstalled, -, -, hcovered⟩ := FlowStore.mem_candidates.mp hother
    exact hheader other hother
      ((h.render path).ignoresHeader_of_mem hinstalled hforeign hnsh.nsp hcovered habove)

theorem exit_applies_short :
    ∃ flow, shortRendered.sink.store.Applies "openflow:1" 10
      { Packet.withNsh 1 254 with nshC1 := some 0 } flow ∧ flow.role = .lastHopEgress := by
  have helsewhere : ∀ f, chainDeployment.topology.forwarder? "edge" = some f →
      ∀ ip ∈ f.tunnelIps, (none : Option IpAddress) ≠ some ip := by simp
  have hlacks : (fresh chainDeployment).sink.store.Lacks (.path 1) := fun s hs => by cases hs
  obtain ⟨switch, flow, hswitch, -, -, -, hrole, hiff⟩ := Reached.start.exit_applies_iff
    (d := chainDeployment) shortPath _ rfl rfl hlacks _ rfl
    { Packet.withNsh 1 254 with nshC1 := some 0 } ⟨rfl, rfl, rfl⟩ helsewhere
  cases hswitch
  exact ⟨flow, hiff.mpr ⟨by decide +kernel, by decide +kernel⟩, hrole⟩

def uplinkDeployment : Deployment where
  topology :=
    { forwarders :=
        [⟨"edge", some "openflow:1",
            [⟨"uplink", .mac ⟨2, 0, 0, 0, 10, 0⟩ none, some 10, none, none⟩],
            [⟨"firewall", "inside", none, some 1, none⟩], none, some "uplink", none⟩]
      serviceFunctions :=
        [⟨"firewall", "firewall", [⟨"inside", .mac ⟨0, 0, 0, 0, 241, 1⟩ none⟩], false⟩] }

/-- The forwarder has no address of its own. So behind the firewall packets without context do not
leave the short path: the flow for the other application covers them too. -/
theorem exit_not_applied :
    ¬ ∀ (d : Deployment) (log : List Reply) (r : Renderer), Reached d ({} : FlowSink) log r →
      ∀ path report, (r.render d path).result = .ok report → report.variant = .nshTunnel →
        r.sink.store.Lacks (.path path.id) → ∀ last, path.hops.getLast? = some last →
          ∀ packet : Packet, packet.HasNsh path.id (last.index - 1) →
            (∀ f, d.topology.forwarder? last.forwarder = some f →
              ∀ ip ∈ f.tunnelIps, packet.tunDst ≠ some ip) →
            ∀ switch, d.switchOf? last = some switch →
              ∃ flow, (r.render d path).renderer.sink.store.Applies switch
                d.config.standardTables.transportEgress packet flow ∧
                  flow.role = packet.exitRole := by
  intro hexits
  obtain ⟨flow, happlies, hrole⟩ := hexits uplinkDeployment [] (fresh _) .start shortPath _ rfl rfl
    (fun s hs => by cases hs) _ rfl { Packet.withNsh 1 254 with nshC1 := some 0 } ⟨rfl, rfl, rfl⟩
    (by simp [Packet.withNsh]) "openflow:1" rfl
  have hbeaten : ∀ exit ∈ ((fresh uplinkDeployment).render uplinkDeployment
      shortPath).renderer.sink.store.candidates "openflow:1" 10
        { Packet.withNsh 1 254 with nshC1 := some 0 }, exit.role = .lastHopEgress →
      ∃ other ∈ ((fresh uplinkDeployment).render uplinkDeployment
        shortPath).renderer.sink.store.candidates "openflow:1" 10
          { Packet.withNsh 1 254 with nshC1 := some 0 },
        other ≠ exit ∧ ¬ other.priority < exit.priority := by
    decide +kernel
  obtain ⟨other, hother, hne, hnot⟩ := hbeaten flow happlies.candidate hrole
  exact hnot (happlies.highest other hother hne)

end Renderer
end ServiceChain
