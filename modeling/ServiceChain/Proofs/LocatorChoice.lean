import Mathlib.Data.List.Nodup
import ServiceChain.Proofs.GraphFidelity
import ServiceChain.Proofs.KeyAgreement

/-! The locators that a hop graph gets. A transport first names a locator of its kind at both ends
of every entry, and looks the names up afterwards. Where no forwarder has two locators of one name,
what is found is what was meant: at the edge of a path the declared locator or one without a peer,
between two forwarders the one that leads to the other. -/
namespace ServiceChain

namespace Forwarder

/-- What is used towards a forwarder: the first locator of the kind with this peer, else the first
of the kind without a peer, else the first of the kind. -/
inductive Towards (f : Forwarder) (kind : LocatorKind) (peer : String) :
    Option ForwarderLocator → Prop
  | facing {l : ForwarderLocator}
      (h : FirstWith (fun l => l.locator.kind = kind ∧ l.peer = some peer) f.locators l) :
      Towards f kind peer (some l)
  | peerless {l : ForwarderLocator}
      (hfacing : ∀ l ∈ f.locators, l.locator.kind = kind → l.peer ≠ some peer)
      (h : FirstWith (fun l => l.locator.kind = kind ∧ l.peer = none) f.locators l) :
      Towards f kind peer (some l)
  | other {l : ForwarderLocator}
      (hfacing : ∀ l ∈ f.locators, l.locator.kind = kind → l.peer ≠ some peer)
      (hpeerless : ∀ l ∈ f.locators, l.locator.kind = kind → l.peer ≠ none)
      (h : FirstWith (fun l => l.locator.kind = kind) f.locators l) :
      Towards f kind peer (some l)
  | absent (h : ∀ l ∈ f.locators, l.locator.kind ≠ kind) : Towards f kind peer none

/-- What is used at the edge of a path: the locator of the declared name, and if none is declared
the first of the kind without a peer. -/
inductive AtEdge (f : Forwarder) (kind : LocatorKind) (declared : Option String) :
    Option ForwarderLocator → Prop
  | named {l : ForwarderLocator} (hdeclared : declared = some l.name) (h : l ∈ f.locators) :
      AtEdge f kind declared (some l)
  | unknown {name : String} (hdeclared : declared = some name)
      (h : ∀ l ∈ f.locators, l.name ≠ name) : AtEdge f kind declared none
  | peerless {l : ForwarderLocator} (hdeclared : declared = none)
      (h : FirstWith (fun l => l.locator.kind = kind ∧ l.peer = none) f.locators l) :
      AtEdge f kind declared (some l)
  | absent (hdeclared : declared = none)
      (h : ∀ l ∈ f.locators, l.locator.kind = kind → l.peer ≠ none) :
      AtEdge f kind declared none

variable {f : Forwarder} {kind : LocatorKind} {peer : String} {declared : Option String}
  {l : ForwarderLocator}

theorem Towards.mem (h : f.Towards kind peer (some l)) : l ∈ f.locators := by
  cases h with
  | facing h | peerless _ h | other _ _ h => exact h.mem

theorem AtEdge.mem (h : f.AtEdge kind declared (some l)) : l ∈ f.locators := by
  cases h with
  | named _ h => exact h
  | peerless _ h => exact h.mem

theorem AtEdge.peer_eq_none (h : f.AtEdge kind none (some l)) : l.peer = none := by
  cases h with
  | named hdeclared _ => cases hdeclared
  | peerless _ h => exact h.holds.2

/-- The choice towards a peer as three searches of one list. -/
theorem locatorTowards?_eq (f : Forwarder) (kind : LocatorKind) (peer : String) :
    f.locatorTowards? kind (some peer) =
      (f.locators.find? (fun l => l.locator.kind = kind ∧ l.peer = some peer) <|>
        f.locators.find? (fun l => l.locator.kind = kind ∧ l.peer = none) <|>
        f.locators.find? fun l => l.locator.kind = kind) := by
  simp [locatorTowards?, locatorsOf, List.find?_filter, List.head?_filter]

theorem towards_locatorTowards? (f : Forwarder) (kind : LocatorKind) (peer : String) :
    f.Towards kind peer (f.locatorTowards? kind (some peer)) := by
  rw [locatorTowards?_eq]
  cases hfacing : f.locators.find? (fun l => l.locator.kind = kind ∧ l.peer = some peer) with
  | some l => exact .facing (FirstWith.find?_iff.mp hfacing)
  | none =>
    have hnone : ∀ l ∈ f.locators, l.locator.kind = kind → l.peer ≠ some peer := by
      simpa using hfacing
    cases hpeerless : f.locators.find? (fun l => l.locator.kind = kind ∧ l.peer = none) with
    | some l => exact .peerless hnone (FirstWith.find?_iff.mp hpeerless)
    | none =>
      cases hkind : f.locators.find? (fun l => l.locator.kind = kind) with
      | some l => exact .other hnone (by simpa using hpeerless) (FirstWith.find?_iff.mp hkind)
      | none => exact .absent (by simpa using hkind)

theorem atEdge_edgeLocator? (f : Forwarder) (kind : LocatorKind) (declared : Option String) :
    f.AtEdge kind declared (f.edgeLocator? kind declared) := by
  cases declared with
  | some name =>
    cases hfound : f.locator? name with
    | some l =>
      have hname : l.name = name := by simpa using List.find?_some hfound
      have hedge : f.edgeLocator? kind (some name) = some l := hfound
      rw [hedge]
      exact .named (congrArg some hname.symm) (List.mem_of_find?_eq_some hfound)
    | none =>
      have hedge : f.edgeLocator? kind (some name) = none := hfound
      rw [hedge]
      exact .unknown rfl (by simpa [locator?] using hfound)
  | none =>
    have hedge : f.edgeLocator? kind none =
        f.locators.find? (fun l => l.locator.kind = kind ∧ l.peer = none) := by
      simp [edgeLocator?, locatorsOf, List.find?_filter]
    rw [hedge]
    cases hfound : f.locators.find? (fun l => l.locator.kind = kind ∧ l.peer = none) with
    | some l => exact .peerless rfl (FirstWith.find?_iff.mp hfound)
    | none => exact .absent rfl (by simpa using hfound)

end Forwarder

namespace Topology

/-- No forwarder has two locators of one name. -/
def NamesApart (t : Topology) : Prop :=
  ∀ name f, t.forwarder? name = some f → (f.locators.map (·.name)).Nodup

/-- What a rule chooses on the forwarder of this name; nothing where there is no such forwarder. -/
inductive Chosen (t : Topology) (name : String)
    (rule : Forwarder → Option ForwarderLocator → Prop) : Option ForwarderLocator → Prop
  | known {f : Forwarder} {chosen : Option ForwarderLocator} (hf : t.forwarder? name = some f)
      (hrule : rule f chosen) : Chosen t name rule chosen
  | unknown (hf : t.forwarder? name = none) : Chosen t name rule none

variable {t : Topology} {name : String} {f : Forwarder} {l other : ForwarderLocator}

theorem NamesApart.eq_of_name (h : t.NamesApart) (hf : t.forwarder? name = some f)
    (hl : l ∈ f.locators) (hother : other ∈ f.locators) (hname : l.name = other.name) :
    l = other :=
  List.inj_on_of_nodup_map (h name f hf) hl hother hname

theorem NamesApart.locator?_name (h : t.NamesApart) (hf : t.forwarder? name = some f)
    (hl : l ∈ f.locators) : t.locator? name l.name = some l.bound := by
  have hfound : f.locator? l.name = some l := by
    cases hsearch : f.locator? l.name with
    | none =>
      have hnone : ∀ other ∈ f.locators, other.name ≠ l.name := by
        simpa [Forwarder.locator?] using hsearch
      exact absurd rfl (hnone l hl)
    | some found =>
      have hname : found.name = l.name := by simpa using List.find?_some hsearch
      rw [h.eq_of_name hf (List.mem_of_find?_eq_some hsearch) hl hname]
  simp [locator?, hf, Forwarder.bound?, hfound]

theorem NamesApart.resolve_chosen (h : t.NamesApart)
    {rule : Forwarder → Option ForwarderLocator → Prop}
    (hmem : ∀ f l, rule f (some l) → l ∈ f.locators) {chosen : Option ForwarderLocator}
    (hchosen : t.Chosen name rule chosen) :
    (chosen.map (·.name)).bind (t.locator? name) = chosen.map (·.bound) := by
  cases hchosen with
  | unknown _ => rfl
  | known hf hrule =>
    cases chosen with
    | none => rfl
    | some l => exact h.locator?_name hf (hmem _ l hrule)

theorem chosen_bind {rule : Forwarder → Option ForwarderLocator → Prop}
    {choose : Forwarder → Option ForwarderLocator} (hrule : ∀ f, rule f (choose f))
    (t : Topology) (name : String) : t.Chosen name rule ((t.forwarder? name).bind choose) := by
  cases hf : t.forwarder? name with
  | none => exact .unknown hf
  | some f => exact .known hf (hrule f)

end Topology

namespace HopEntry

def locate (t : Topology) (kind : LocatorKind) (e : HopEntry) : HopEntry :=
  (e.nameLocators t kind).resolveLocators t

/-- What an entry has of its two ends: the names of the locators there, and what they lead to. -/
structure Holds (e : HopEntry) (leaving entering : Option String)
    (hopIngress pathEgress : Option BoundLocator) : Prop where
  srcEgressLocator : e.srcEgressLocator = leaving
  dstIngressLocator : e.dstIngressLocator = entering
  hopIngress : e.hopIngress = hopIngress
  pathEgress : e.pathEgress = pathEgress

/-- The entry has the locators that its ends call for, and no others. -/
inductive Located (t : Topology) (kind : LocatorKind) (e : HopEntry) : Prop
  | inside {name : String} (hsrc : e.src = .forwarder name) (hdst : e.dst = .forwarder name)
      (hholds : e.Holds none none none none)
  | enter {name : String} {entering : Option ForwarderLocator} (hsrc : e.src = .ingress)
      (hdst : e.dst = .forwarder name)
      (hentering : t.Chosen name (fun f => f.AtEdge kind f.ingressLocator) entering)
      (hholds : e.Holds none (entering.map (·.name)) (entering.map (·.bound)) none)
  | cross {near far : String} {leaving entering : Option ForwarderLocator}
      (hsrc : e.src = .forwarder near) (hdst : e.dst = .forwarder far) (hcross : near ≠ far)
      (hleaving : t.Chosen near (fun f => f.Towards kind far) leaving)
      (hentering : t.Chosen far (fun f => f.Towards kind near) entering)
      (hholds : e.Holds (leaving.map (·.name)) (entering.map (·.name)) (entering.map (·.bound))
        none)
  | exit {name : String} {leaving : Option ForwarderLocator} (hsrc : e.src = .forwarder name)
      (hdst : e.dst = .egress)
      (hleaving : t.Chosen name (fun f => f.AtEdge kind f.egressLocator) leaving)
      (hholds : e.Holds (leaving.map (·.name)) none none (leaving.map (·.bound)))

/-- Where the path enters or leaves a forwarder that declares no locator for it, no link to another
forwarder is used. -/
def EdgesFree (t : Topology) (e : HopEntry) : Prop :=
  ∀ name f, t.forwarder? name = some f → ∀ l ∈ f.locators,
    (e.src = .ingress → e.dst = .forwarder name → f.ingressLocator = none →
      e.hopIngress = some l.bound → l.peer = none) ∧
    (e.src = .forwarder name → e.dst = .egress → f.egressLocator = none →
      e.pathEgress = some l.bound → l.peer = none)

variable {t : Topology} {kind : LocatorKind} {e : HopEntry} {name near far : String}

theorem bare_locate (t : Topology) (kind : LocatorKind) (e : HopEntry) :
    (e.locate t kind).bare = e.bare := by
  rw [locate, bare_resolveLocators, bare_nameLocators]

@[simp] theorem src_nameLocators (t : Topology) (kind : LocatorKind) (e : HopEntry) :
    (e.nameLocators t kind).src = e.src :=
  (congrArg src (e.bare_nameLocators t kind) :)

@[simp] theorem dst_nameLocators (t : Topology) (kind : LocatorKind) (e : HopEntry) :
    (e.nameLocators t kind).dst = e.dst :=
  (congrArg dst (e.bare_nameLocators t kind) :)

@[simp] theorem isSameForwarder_nameLocators (t : Topology) (kind : LocatorKind) (e : HopEntry) :
    (e.nameLocators t kind).isSameForwarder = e.isSameForwarder :=
  (congrArg isSameForwarder (e.bare_nameLocators t kind) :)

@[simp] theorem src_locate (t : Topology) (kind : LocatorKind) (e : HopEntry) :
    (e.locate t kind).src = e.src :=
  (congrArg src (e.bare_locate t kind) :)

@[simp] theorem dst_locate (t : Topology) (kind : LocatorKind) (e : HopEntry) :
    (e.locate t kind).dst = e.dst :=
  (congrArg dst (e.bare_locate t kind) :)

theorem holds_of_bare (h : e.bare = e) : e.Holds none none none none := by
  rw [← h]
  exact ⟨rfl, rfl, rfl, rfl⟩

theorem holds_nameLocators (t : Topology) (kind : LocatorKind) (hbare : e.bare = e)
    (hapart : e.isSameForwarder = false) :
    (e.nameLocators t kind).Holds
      ((e.src.name?.bind t.forwarder?).bind fun f => egressName? f kind e.dst)
      ((e.dst.name?.bind t.forwarder?).bind fun f => ingressName? f kind e.src) none none := by
  obtain ⟨hleaving, hentering, hingress, hegress⟩ := holds_of_bare hbare
  cases hsrc : e.src.name?.bind t.forwarder? <;> cases hdst : e.dst.name?.bind t.forwarder? <;>
    constructor <;> simp [nameLocators, hapart, hsrc, hdst, hleaving, hentering, hingress, hegress]

variable {leaving entering : Option String}

theorem Holds.resolveLocators_forwarder (h : e.Holds leaving entering none none)
    (hapart : e.isSameForwarder = false) (hdst : e.dst = .forwarder name) :
    (e.resolveLocators t).Holds leaving entering (entering.bind (t.locator? name)) none := by
  have hresolved : e.resolveLocators t =
      { e with hopIngress := e.dstIngressLocator.bind (t.locator? name) } := by
    simp [resolveLocators, hapart, hdst]
  rw [hresolved]
  exact ⟨h.srcEgressLocator, h.dstIngressLocator, by rw [h.dstIngressLocator], h.pathEgress⟩

theorem Holds.resolveLocators_egress (h : e.Holds leaving entering none none)
    (hsrc : e.src = .forwarder name) (hdst : e.dst = .egress) :
    (e.resolveLocators t).Holds leaving entering none (leaving.bind (t.locator? name)) := by
  have hresolved : e.resolveLocators t =
      { e with pathEgress := e.srcEgressLocator.bind (t.locator? name) } := by
    simp [resolveLocators, isSameForwarder, hsrc, hdst, Endpoint.name?]
  rw [hresolved]
  exact ⟨h.srcEgressLocator, h.dstIngressLocator, h.hopIngress, by rw [h.srcEgressLocator]⟩

theorem located_inside (hbare : e.bare = e) (hsrc : e.src = .forwarder name)
    (hdst : e.dst = .forwarder name) : (e.locate t kind).Located t kind := by
  have hsame : e.isSameForwarder = true := by simp [isSameForwarder, hsrc, hdst, Endpoint.name?]
  have hkept : e.locate t kind = e := by simp [locate, nameLocators, resolveLocators, hsame]
  rw [hkept]
  exact .inside hsrc hdst (holds_of_bare hbare)

theorem located_enter (hnames : t.NamesApart) (hbare : e.bare = e) (hsrc : e.src = .ingress)
    (hdst : e.dst = .forwarder name) : (e.locate t kind).Located t kind := by
  have hapart : e.isSameForwarder = false := by simp [isSameForwarder, hsrc, Endpoint.name?]
  have hentering : t.Chosen name (fun f => f.AtEdge kind f.ingressLocator)
      ((t.forwarder? name).bind fun f => f.edgeLocator? kind f.ingressLocator) :=
    t.chosen_bind (fun f => f.atEdge_edgeLocator? kind f.ingressLocator) name
  have hnamed := holds_nameLocators t kind hbare hapart
  rw [hsrc, hdst] at hnamed
  refine .enter (by simp [hsrc]) (by simp [hdst]) hentering ?_
  rw [← hnames.resolve_chosen (fun _ _ => Forwarder.AtEdge.mem) hentering, Option.map_bind]
  exact hnamed.resolveLocators_forwarder (by simp [hapart]) (by simp [hdst])

theorem located_cross (hnames : t.NamesApart) (hbare : e.bare = e) (hsrc : e.src = .forwarder near)
    (hdst : e.dst = .forwarder far) (hcross : near ≠ far) : (e.locate t kind).Located t kind := by
  have hapart : e.isSameForwarder = false := by
    simp [isSameForwarder, hsrc, hdst, Endpoint.name?, hcross]
  have hchosen : ∀ one other, t.Chosen one (fun f => f.Towards kind other)
      ((t.forwarder? one).bind fun f => f.locatorTowards? kind (some other)) :=
    fun one other => t.chosen_bind (fun f => f.towards_locatorTowards? kind other) one
  have hnamed := holds_nameLocators t kind hbare hapart
  rw [hsrc, hdst] at hnamed
  refine .cross (by simp [hsrc]) (by simp [hdst]) hcross (hchosen near far) (hchosen far near) ?_
  rw [← hnames.resolve_chosen (fun _ _ => Forwarder.Towards.mem) (hchosen far near),
    Option.map_bind, Option.map_bind]
  exact hnamed.resolveLocators_forwarder (by simp [hapart]) (by simp [hdst])

theorem located_exit (hnames : t.NamesApart) (hbare : e.bare = e) (hsrc : e.src = .forwarder name)
    (hdst : e.dst = .egress) : (e.locate t kind).Located t kind := by
  have hapart : e.isSameForwarder = false := by simp [isSameForwarder, hsrc, hdst, Endpoint.name?]
  have hleaving : t.Chosen name (fun f => f.AtEdge kind f.egressLocator)
      ((t.forwarder? name).bind fun f => f.edgeLocator? kind f.egressLocator) :=
    t.chosen_bind (fun f => f.atEdge_edgeLocator? kind f.egressLocator) name
  have hnamed := holds_nameLocators t kind hbare hapart
  rw [hsrc, hdst] at hnamed
  refine .exit (by simp [hsrc]) (by simp [hdst]) hleaving ?_
  rw [← hnames.resolve_chosen (fun _ _ => Forwarder.AtEdge.mem) hleaving, Option.map_bind]
  exact hnamed.resolveLocators_egress (by simp [hsrc]) (by simp [hdst])

theorem located_locate (hnames : t.NamesApart) (hbare : e.bare = e) (hsrc : e.src ≠ .egress)
    (hdst : e.dst ≠ .ingress) (hinside : e.src.name?.isSome ∨ e.dst.name?.isSome) :
    (e.locate t kind).Located t kind := by
  cases hfrom : e.src with
  | egress => exact absurd hfrom hsrc
  | ingress =>
    cases hto : e.dst with
    | ingress => exact absurd hto hdst
    | egress => simp [hfrom, hto, Endpoint.name?] at hinside
    | forwarder name => exact located_enter hnames hbare hfrom hto
  | forwarder near =>
    cases hto : e.dst with
    | ingress => exact absurd hto hdst
    | egress => exact located_exit hnames hbare hfrom hto
    | forwarder far =>
      by_cases hcross : near = far
      · exact located_inside hbare (hcross ▸ hfrom) hto
      · exact located_cross hnames hbare hfrom hto hcross

/-- What is chosen where nothing is declared is not a link. -/
theorem free_of_chosen (hnames : t.NamesApart) {f : Forwarder}
    {declared : Forwarder → Option String} {chosen : Option ForwarderLocator}
    {l : ForwarderLocator} (hf : t.forwarder? name = some f)
    (hchosen : t.Chosen name (fun f => f.AtEdge kind (declared f)) chosen)
    (hnone : declared f = none) (hl : l ∈ f.locators)
    (hbound : chosen.map (·.bound) = some l.bound) : l.peer = none := by
  obtain ⟨found, rfl, hsame⟩ := Option.map_eq_some_iff.mp hbound
  cases hchosen with
  | known hknown hrule =>
    obtain rfl := Option.some.inj (hf.symm.trans hknown)
    rw [hnone] at hrule
    have hname : found.name = l.name := Option.some.inj (congrArg BoundLocator.name hsame)
    rw [← hnames.eq_of_name hf hrule.mem hl hname]
    exact hrule.peer_eq_none

theorem Located.edgesFree (hnames : t.NamesApart) (h : e.Located t kind) : e.EdgesFree t := by
  intro name f hf l hl
  constructor
  · intro hsrc hdst hnone hingress
    cases h with
    | inside hfrom _ _ | cross hfrom _ _ _ _ _ | exit hfrom _ _ _ => simp [hfrom] at hsrc
    | enter _ hto hentering hholds =>
      obtain rfl : _ = name := Endpoint.forwarder.inj (hto.symm.trans hdst)
      exact free_of_chosen hnames hf hentering hnone hl (hholds.hopIngress.symm.trans hingress)
  · intro hsrc hdst hnone hegress
    cases h with
    | inside _ hto _ | cross _ hto _ _ _ _ | enter _ hto _ _ => simp [hto] at hdst
    | exit hfrom _ hleaving hholds =>
      obtain rfl : _ = name := Endpoint.forwarder.inj (hfrom.symm.trans hsrc)
      exact free_of_chosen hnames hf hleaving hnone hl (hholds.pathEgress.symm.trans hegress)

theorem Located.pathEgress_eq_none (h : e.Located t kind) (hdst : e.dst ≠ .egress) :
    e.pathEgress = none := by
  cases h with
  | inside _ _ hholds | cross _ _ _ _ _ hholds | enter _ _ _ hholds => exact hholds.pathEgress
  | exit _ hto _ _ => exact absurd hto hdst

theorem Located.hopIngress_eq_none (h : e.Located t kind) (hdst : e.dst = .egress) :
    e.hopIngress = none := by
  cases h with
  | inside _ hto _ | cross _ hto _ _ _ _ | enter _ hto _ _ => simp [hto] at hdst
  | exit _ _ _ hholds => exact hholds.hopIngress

end HopEntry

def HopGraph.locate (t : Topology) (kind : LocatorKind) (g : HopGraph) : HopGraph :=
  (g.mapEntries (·.nameLocators t kind)).mapEntries (·.resolveLocators t)

theorem Variant.resolveLocators_nameLocators (t : Topology) (p : Placements) (pool : VlanPool)
    (path : PathId) (g : HopGraph) :
    nshTunnel.resolveLocators t p pool path (nshTunnel.nameLocators t g) =
        (g.locate t .ip, pool) ∧
      nshEthernet.resolveLocators t p pool path (nshEthernet.nameLocators t g) =
        (g.locate t .mac, pool) ∧
      mpls.resolveLocators t p pool path (mpls.nameLocators t g) = (g.locate t .mpls, pool) ∧
      vlan.resolveLocators t p pool path (vlan.nameLocators t g) =
        Vlan.leaseHopIds pool path (g.locate t .mac) :=
  ⟨rfl, rfl, rfl, rfl⟩

namespace HopGraph

theorem entries_locate (t : Topology) (kind : LocatorKind) (g : HopGraph) :
    (g.locate t kind).entries = g.entries.map (·.locate t kind) := by
  simp only [locate, mapEntries, List.map_map]
  rfl

variable {g : HopGraph} {path : ServicePath} {i : Nat} {e : HopEntry}

theorem Follows.src_cases (h : g.Follows path) (he : g.entries[i]? = some e) :
    e.src = .ingress ∨ ∃ name, e.src = .forwarder name := by
  cases i with
  | zero =>
    obtain ⟨first, hfirst, hsrc, -⟩ := h.first
    obtain rfl := Option.some.inj (he.symm.trans hfirst)
    exact Or.inl hsrc
  | succ i =>
    have hlt := (List.getElem?_eq_some_iff.mp he).1
    rw [h.length] at hlt
    have hhop : path.hops[i]? = some path.hops[i] := List.getElem?_eq_getElem (by omega)
    obtain ⟨before, hbefore, hdst, -⟩ := h.hop i _ hhop
    exact Or.inr ⟨_, (h.onward i before e hbefore he).1.trans hdst⟩

theorem Follows.dst_cases (h : g.Follows path) (he : g.entries[i]? = some e) :
    (i ≠ path.hops.length ∧ ∃ name, e.dst = .forwarder name) ∨
      i = path.hops.length ∧ e.dst = .egress := by
  have hlt := (List.getElem?_eq_some_iff.mp he).1
  rw [h.length] at hlt
  rcases Nat.lt_or_eq_of_le (Nat.le_of_lt_succ hlt) with hlt | rfl
  · have hhop : path.hops[i]? = some path.hops[i] := List.getElem?_eq_getElem hlt
    obtain ⟨entry, hentry, hdst, -⟩ := h.hop i _ hhop
    obtain rfl := Option.some.inj (he.symm.trans hentry)
    exact Or.inl ⟨Nat.ne_of_lt hlt, _, hdst⟩
  · obtain ⟨last, hlast, hdst, -⟩ := h.last
    obtain rfl := Option.some.inj (he.symm.trans hlast)
    exact Or.inr ⟨rfl, hdst⟩

/-- The locators of a graph are those that the topology calls for. Nothing else of its entries is
changed; between functions on one forwarder there are none, between two forwarders each uses the
locator towards the other, and where the path enters or leaves, the locator at the edge, which is
no link unless it is declared. Only the last entry leads out of the path, and into no forwarder. -/
theorem located_of_build (d : Deployment) (path : ServicePath) (g : HopGraph)
    (hbuild : build d.topology d.placements path = .ok g) (t : Topology) (kind : LocatorKind)
    (hnames : t.NamesApart) :
    g.Follows path ∧ (g.locate t kind).entries.map HopEntry.bare = g.entries ∧
      (∀ e ∈ (g.locate t kind).entries, e.Located t kind ∧ e.EdgesFree t) ∧
      ∀ (i : Nat) (e : HopEntry), (g.locate t kind).entries[i]? = some e →
        (e.pathEgress.isSome → i = path.hops.length) ∧
          (i = path.hops.length → e.hopIngress = none) := by
  obtain ⟨hchecked, rfl, -⟩ := build_ok hbuild
  have hfollows : Follows ⟨path.id, chainOf d path⟩ path := follows_chainOf hchecked
  have hbare : ∀ e ∈ chainOf d path, e.bare = e := fun e he => bare_of_mem_chainOf he
  have hlocated : ∀ (i : Nat) (plain : HopEntry), (chainOf d path)[i]? = some plain →
      (plain.locate t kind).Located t kind := by
    intro i plain hplain
    have hmem := List.mem_of_getElem? hplain
    refine HopEntry.located_locate hnames (hbare plain hmem) ?_ ?_ (hfollows.inside plain hmem)
    · rcases hfollows.src_cases hplain with h | ⟨_, h⟩ <;> simp [h]
    · rcases hfollows.dst_cases hplain with ⟨-, _, h⟩ | ⟨-, h⟩ <;> simp [h]
  refine ⟨hfollows, ?_, ?_, ?_⟩
  · rw [entries_locate, List.map_map]
    exact (List.map_congr_left fun e he => (e.bare_locate t kind).trans (hbare e he)).trans
      (List.map_id _)
  · intro e he
    rw [entries_locate] at he
    obtain ⟨plain, hmem, rfl⟩ := List.mem_map.mp he
    obtain ⟨i, hplain⟩ := List.getElem?_of_mem hmem
    exact ⟨hlocated i plain hplain, (hlocated i plain hplain).edgesFree hnames⟩
  · intro i e he
    rw [entries_locate, List.getElem?_map] at he
    obtain ⟨plain, hplain, rfl⟩ := Option.map_eq_some_iff.mp he
    have hentry := hlocated i plain hplain
    rcases hfollows.dst_cases hplain with ⟨hinner, name, hdst⟩ | ⟨hlast, hdst⟩
    · have hnone := hentry.pathEgress_eq_none (by simp [hdst])
      exact ⟨fun hsome => by simp [hnone] at hsome, fun hlast => absurd hlast hinner⟩
    · exact ⟨fun _ => hlast, fun _ => hentry.hopIngress_eq_none (by simp [hdst])⟩

def borderDeployment : Deployment where
  topology :=
    { forwarders :=
        [{ name := "near"
           switch := none
           locators :=
            [⟨"tunnel", .ip (.v4 10 0 0 1) none, none, none, some "far"⟩,
              ⟨"side", .mac ⟨2, 0, 0, 0, 0, 1⟩ none, none, none, none⟩,
              ⟨"uplink", .mac ⟨2, 0, 0, 0, 0, 2⟩ none, none, none, some "far"⟩,
              ⟨"front", .mac ⟨2, 0, 0, 0, 0, 3⟩ none, none, none, none⟩]
           dictionary := []
           ingressLocator := some "front"
           egressLocator := none
           acceleratedPort := none },
          { name := "far"
            switch := none
            locators :=
              [⟨"downlink", .mac ⟨2, 0, 0, 0, 0, 4⟩ none, none, none, some "near"⟩,
                ⟨"back", .mac ⟨2, 0, 0, 0, 0, 5⟩ none, none, none, none⟩]
            dictionary := []
            ingressLocator := none
            egressLocator := none
            acceleratedPort := none }]
      serviceFunctions := [] }

def borderPath : ServicePath where
  name := "border"
  id := 8
  hops :=
    [⟨"near", "firewall", none, 3⟩, ⟨"near", "cache", none, 2⟩, ⟨"far", "inspector", none, 1⟩]
  transport := .mac
  encapsulation := .nsh
  startingIndex := 3
  direction := .forward

theorem located_of_build_border :
    ∃ g, build borderDeployment.topology borderDeployment.placements borderPath = .ok g ∧
      borderDeployment.topology.NamesApart ∧ g.Follows borderPath ∧
      (∀ e ∈ (g.locate borderDeployment.topology .mac).entries,
        e.Located borderDeployment.topology .mac ∧ e.EdgesFree borderDeployment.topology) ∧
      (g.locate borderDeployment.topology .mac).entries.map (fun e =>
          (e.srcEgressLocator, e.dstIngressLocator, e.hopIngress.bind (·.name),
            e.pathEgress.bind (·.name))) =
        [(none, some "front", some "front", none), (none, none, none, none),
          (some "uplink", some "downlink", some "downlink", none),
          (some "back", none, none, some "back")] := by
  obtain ⟨g, hbuild⟩ : ∃ g,
      build borderDeployment.topology borderDeployment.placements borderPath = .ok g := ⟨_, rfl⟩
  have hnames : borderDeployment.topology.NamesApart := by
    have hall : ∀ f ∈ borderDeployment.topology.forwarders,
        (f.locators.map (·.name)).Nodup := by decide
    exact fun name f hf => hall f (List.mem_reverse.mp (List.mem_of_find?_eq_some hf))
  obtain ⟨hfollows, -, hlocated, -⟩ := located_of_build borderDeployment borderPath g hbuild
    borderDeployment.topology .mac hnames
  refine ⟨g, hbuild, hnames, hfollows, hlocated, ?_⟩
  cases hbuild
  rfl

end HopGraph

end ServiceChain
