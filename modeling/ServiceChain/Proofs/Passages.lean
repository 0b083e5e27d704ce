import ServiceChain.Flow.Packet
import ServiceChain.Proofs.AddressedLegs

/-! The ways of a path into and out of its forwarders. Behind the path mapper only addresses tell
where packets of the path go. They do on a path that passes no function and no link twice, if at
each forwarder what packets come from and what they go to have addresses of their own. -/
namespace ServiceChain

/-- No function is passed twice and no link in the same direction, and to a forwarder the path comes
without a link once at most. -/
structure ServicePath.PassesOnce (path : ServicePath) : Prop where
  functions : (path.hops.map fun hop => (hop.forwarder, hop.serviceFunction)).Nodup
  arrivals : path.arrivals.Nodup

namespace ServicePath.PassesOnce

variable {path : ServicePath} {i j : Nat} {hop other : Hop}

theorem eq_of_function (h : path.PassesOnce) (hhop : path.hops[i]? = some hop)
    (hother : path.hops[j]? = some other) (hforwarder : hop.forwarder = other.forwarder)
    (hfunction : hop.serviceFunction = other.serviceFunction) : i = j := by
  have hlt : i < (path.hops.map fun hop => (hop.forwarder, hop.serviceFunction)).length := by
    simpa using (List.getElem?_eq_some_iff.mp hhop).1
  apply (List.getElem?_inj hlt h.functions).mp
  simp [List.getElem?_map, hhop, hother, hforwarder, hfunction]

theorem eq_of_arrival (h : path.PassesOnce) {arrival : Option String × String}
    (hi : path.arrivals[i]? = some arrival) (hj : path.arrivals[j]? = some arrival) : i = j :=
  (List.getElem?_inj (List.getElem?_eq_some_iff.mp hi).1 h.arrivals).mp (hi.trans hj.symm)

end ServicePath.PassesOnce

/-- What packets of a path come from or go to at a forwarder: one of its functions, or another
forwarder; none if they come over no link. -/
inductive Neighbour where
  | function (name : String)
  | forwarder (name : Option String)
  deriving DecidableEq

/-- A way into or out of a forwarder, and the address by which packets are told to take it. -/
structure Passage where
  forwarder : String
  neighbour : Neighbour
  mac? : Option MacAddress

namespace Deployment

/-- Where packets of the path come from, at each forwarder, with their source addresses. -/
def passagesIn (d : Deployment) (path : ServicePath) (kind : LocatorKind) : List Passage :=
  (path.arrivals.map fun arrival =>
      ⟨arrival.2, .forwarder arrival.1, d.linkSource? kind arrival.1 arrival.2⟩) ++
    path.hops.filterMap fun hop => (d.outlet? path hop).map fun back =>
      ⟨hop.forwarder, .function hop.serviceFunction, back.mac?⟩

/-- Where packets of the path go to, at each forwarder, with their destination addresses. -/
def passagesOut (d : Deployment) (path : ServicePath) (kind : LocatorKind) : List Passage :=
  (path.arrivals.filterMap fun arrival => arrival.1.map fun near =>
      ⟨near, .forwarder (some arrival.2), (d.linkEnd? kind arrival.2 near).bind (·.mac?)⟩) ++
    path.hops.filterMap fun hop => (d.inlet? path hop).map fun into =>
      ⟨hop.forwarder, .function hop.serviceFunction, into.mac?⟩

/-- At each forwarder what packets come from is told apart by their source addresses, where to have
none counts as one, and what they go to by their destination addresses. -/
structure AddressesApart (d : Deployment) (path : ServicePath) (kind : LocatorKind) : Prop where
  sources : ∀ a ∈ d.passagesIn path kind, ∀ b ∈ d.passagesIn path kind,
    a.forwarder = b.forwarder → a.neighbour ≠ b.neighbour → a.mac? ≠ b.mac?
  destinations : ∀ a ∈ d.passagesOut path kind, ∀ b ∈ d.passagesOut path kind,
    a.forwarder = b.forwarder → a.neighbour ≠ b.neighbour → FlowMatch.Differ a.mac? b.mac?

/-- Forwarders of the path that differ in name are different switches. -/
def SwitchesApart (d : Deployment) (path : ServicePath) : Prop :=
  ∀ hop ∈ path.hops, ∀ other ∈ path.hops, hop.forwarder ≠ other.forwarder →
    d.switchOf? hop ≠ d.switchOf? other

variable {d : Deployment} {path : ServicePath} {kind : LocatorKind} {i j : Nat} {hop other : Hop}
  {switch : SwitchId}

theorem SwitchesApart.forwarder_eq (h : d.SwitchesApart path) (hhop : path.hops[i]? = some hop)
    (hother : path.hops[j]? = some other) (hswitch : d.switchOf? hop = some switch)
    (hswitch' : d.switchOf? other = some switch) : hop.forwarder = other.forwarder := by
  by_contra hne
  exact h hop (List.mem_of_getElem? hhop) other (List.mem_of_getElem? hother) hne
    (hswitch.trans hswitch'.symm)

/-- What packets come from is known by their source address. -/
theorem AddressesApart.neighbour_of_source (h : d.AddressesApart path kind) {a b : Passage}
    (ha : a ∈ d.passagesIn path kind) (hb : b ∈ d.passagesIn path kind)
    (hforwarder : a.forwarder = b.forwarder) (hmac : a.mac? = b.mac?) :
    a.neighbour = b.neighbour := by
  by_contra hne
  exact h.sources a ha b hb hforwarder hne hmac

/-- What packets go to is known by their destination address. -/
theorem AddressesApart.neighbour_of_destination (h : d.AddressesApart path kind) {a b : Passage}
    (ha : a ∈ d.passagesOut path kind) (hb : b ∈ d.passagesOut path kind)
    (hforwarder : a.forwarder = b.forwarder) (hmac : ¬ FlowMatch.Differ a.mac? b.mac?) :
    a.neighbour = b.neighbour := by
  by_contra hne
  exact hmac (h.destinations a ha b hb hforwarder hne)

theorem arrival_mem_passagesIn {before : Option String} {forwarder : String}
    (h : path.arrivals[i]? = some (before, forwarder)) :
    ⟨forwarder, .forwarder before, d.linkSource? kind before forwarder⟩ ∈ d.passagesIn path kind :=
  List.mem_append_left _ (List.mem_map.mpr ⟨_, List.mem_of_getElem? h, rfl⟩)

theorem outlet_mem_passagesIn {back : Attachment} (hhop : path.hops[i]? = some hop)
    (hback : d.outlet? path hop = some back) :
    ⟨hop.forwarder, .function hop.serviceFunction, back.mac?⟩ ∈ d.passagesIn path kind :=
  List.mem_append_right _
    (List.mem_filterMap.mpr ⟨hop, List.mem_of_getElem? hhop, by rw [hback, Option.map_some]⟩)

theorem link_mem_passagesOut {next : Hop} (hhop : path.hops[i]? = some hop)
    (hnext : path.hops[i + 1]? = some next) (hcross : hop.forwarder ≠ next.forwarder) :
    ⟨hop.forwarder, .forwarder (some next.forwarder),
        (d.linkEnd? kind next.forwarder hop.forwarder).bind (·.mac?)⟩ ∈
      d.passagesOut path kind := by
  have harrival := ServicePath.arrivals_succ hhop hnext
  rw [if_neg hcross] at harrival
  exact List.mem_append_left _ (List.mem_filterMap.mpr ⟨_, List.mem_of_getElem? harrival, rfl⟩)

theorem inlet_mem_passagesOut {into : Attachment} (hhop : path.hops[i]? = some hop)
    (hinto : d.inlet? path hop = some into) :
    ⟨hop.forwarder, .function hop.serviceFunction, into.mac?⟩ ∈ d.passagesOut path kind :=
  List.mem_append_right _
    (List.mem_filterMap.mpr ⟨hop, List.mem_of_getElem? hhop, by rw [hinto, Option.map_some]⟩)

/-- Packets that come to a switch by one source address go on to one destination. -/
theorem turn_unique (hswitches : d.SwitchesApart path) (honce : path.PassesOnce)
    (hapart : d.AddressesApart path kind) {src src' dst dst' : Option MacAddress}
    (h : d.Turns path kind switch src dst) (h' : d.Turns path kind switch src' dst')
    (hsrc : src = src') : dst = dst' := by
  cases h with
  | @arrive i hop _ before into hhop harrival hswitch hinto =>
    cases h' with
    | @arrive j other _ before' into' hother harrival' hswitch' hinto' =>
      have hforwarder := hswitches.forwarder_eq hhop hother hswitch hswitch'
      have hsame := hapart.neighbour_of_source (arrival_mem_passagesIn harrival)
        (arrival_mem_passagesIn harrival') hforwarder hsrc
      rw [Neighbour.forwarder.inj hsame, hforwarder] at harrival
      obtain rfl := honce.eq_of_arrival harrival harrival'
      obtain rfl := Option.some.inj (hhop.symm.trans hother)
      rw [Option.some.inj (hinto.symm.trans hinto')]
    | depart hother hswitch' hback =>
      cases hapart.neighbour_of_source (arrival_mem_passagesIn harrival)
        (outlet_mem_passagesIn hother hback)
        (hswitches.forwarder_eq hhop hother hswitch hswitch') hsrc
  | @depart i hop _ back hhop hswitch hback =>
    cases h' with
    | arrive hother harrival hswitch' hinto =>
      cases hapart.neighbour_of_source (outlet_mem_passagesIn hhop hback)
        (arrival_mem_passagesIn harrival)
        (hswitches.forwarder_eq hhop hother hswitch hswitch') hsrc
    | @depart j other _ back' hother hswitch' hback' =>
      have hforwarder := hswitches.forwarder_eq hhop hother hswitch hswitch'
      have hsame := hapart.neighbour_of_source (outlet_mem_passagesIn hhop hback)
        (outlet_mem_passagesIn hother hback') hforwarder hsrc
      obtain rfl := honce.eq_of_function hhop hother hforwarder (Neighbour.function.inj hsame)
      rw [Option.some.inj (hhop.symm.trans hother)]

/-- Packets that one destination address is not told apart from leave a switch by one way. -/
theorem send_unique (hswitches : d.SwitchesApart path) (honce : path.PassesOnce)
    (hapart : d.AddressesApart path kind) {tag? : Nat → Option WireTag}
    {dst dst' : Option MacAddress} {actions actions' : List FlowAction}
    (h : d.Sends path kind tag? switch dst actions)
    (h' : d.Sends path kind tag? switch dst' actions') (hdst : ¬ FlowMatch.Differ dst dst') :
    actions = actions' := by
  cases h with
  | @toFunction i hop _ into hhop hswitch hinto =>
    cases h' with
    | @toFunction j other _ into' hother hswitch' hinto' =>
      have hforwarder := hswitches.forwarder_eq hhop hother hswitch hswitch'
      have hsame := hapart.neighbour_of_destination (inlet_mem_passagesOut hhop hinto)
        (inlet_mem_passagesOut hother hinto') hforwarder hdst
      obtain rfl := honce.eq_of_function hhop hother hforwarder (Neighbour.function.inj hsame)
      obtain rfl := Option.some.inj (hhop.symm.trans hother)
      rw [Option.some.inj (hinto.symm.trans hinto')]
    | toForwarder hother hnext hcross hswitch' =>
      cases hapart.neighbour_of_destination (inlet_mem_passagesOut hhop hinto)
        (link_mem_passagesOut hother hnext hcross)
        (hswitches.forwarder_eq hhop hother hswitch hswitch') hdst
  | @toForwarder i hop next _ tag hhop hnext hcross hswitch htag =>
    cases h' with
    | toFunction hother hswitch' hinto =>
      cases hapart.neighbour_of_destination (link_mem_passagesOut hhop hnext hcross)
        (inlet_mem_passagesOut hother hinto)
        (hswitches.forwarder_eq hhop hother hswitch hswitch') hdst
    | @toForwarder j other onward _ tag' hother honward hcross' hswitch' htag' =>
      have hforwarder := hswitches.forwarder_eq hhop hother hswitch hswitch'
      have hsame := hapart.neighbour_of_destination (link_mem_passagesOut hhop hnext hcross)
        (link_mem_passagesOut hother honward hcross') hforwarder hdst
      have hover := Option.some.inj (Neighbour.forwarder.inj hsame)
      -- a link that is crossed in one direction is crossed on the way to one hop
      have harrival := ServicePath.arrivals_succ hhop hnext
      have harrival' := ServicePath.arrivals_succ hother honward
      rw [if_neg hcross, hforwarder, hover] at harrival
      rw [if_neg hcross'] at harrival'
      obtain rfl : i = j := Nat.succ.inj (honce.eq_of_arrival harrival harrival')
      obtain rfl := Option.some.inj (hhop.symm.trans hother)
      obtain rfl := Option.some.inj (hnext.symm.trans honward)
      rw [Option.some.inj (htag.symm.trans htag')]

end Deployment

end ServiceChain
