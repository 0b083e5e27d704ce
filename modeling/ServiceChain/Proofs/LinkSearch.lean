import ServiceChain.Proofs.PathChecks

/-! The search for a link between two forwarders. Two locators of one kind that have each other's
forwarders for peers make a link. The search takes the first locator with the right peer and looks
for its counterpart only; it does not come back for another, so that it can miss a link, and from
one side only. -/
namespace ServiceChain.Topology

/-- A locator of one forwarder and one of the other make a link: they are of one kind, and each has
the other's forwarder for its peer. -/
structure Joins (t : Topology) (src dst : String) (near far : ForwarderLocator) : Prop where
  near_mem : ∃ f, t.forwarder? src = some f ∧ near ∈ f.locators
  far_mem : ∃ f, t.forwarder? dst = some f ∧ far ∈ f.locators
  near_peer : near.peer = some dst
  far_peer : far.peer = some src
  kind : far.locator.kind = near.locator.kind

/-- There is a link between the two forwarders. -/
def Linked (t : Topology) (src dst : String) : Prop := ∃ near far, t.Joins src dst near far

/-- The first locator of `src` with `dst` for its peer. -/
def Leads (t : Topology) (src dst : String) (near : ForwarderLocator) : Prop :=
  ∃ f, t.forwarder? src = some f ∧ FirstWith (fun l => l.peer = some dst) f.locators near

/-- The first locator of `dst` with `src` for its peer that is of this kind. -/
def Answers (t : Topology) (src dst : String) (kind : LocatorKind) (far : ForwarderLocator) :
    Prop :=
  ∃ f, t.forwarder? dst = some f ∧
    FirstWith (fun l => l.peer = some src ∧ l.locator.kind = kind) f.locators far

/-- The first locator of `src` with `dst` for its peer makes no link. -/
def Misleads (t : Topology) (src dst : String) : Prop :=
  ∃ near, t.Leads src dst near ∧ ∀ far, ¬ t.Joins src dst near far

variable {t : Topology} {src dst : String} {near far other : ForwarderLocator} {link : Link}

theorem Joins.symm (h : t.Joins src dst near far) : t.Joins dst src far near :=
  ⟨h.far_mem, h.near_mem, h.far_peer, h.near_peer, h.kind.symm⟩

theorem linked_comm : t.Linked src dst ↔ t.Linked dst src := by
  constructor <;> rintro ⟨near, far, h⟩ <;> exact ⟨far, near, h.symm⟩

theorem Leads.unique (h : t.Leads src dst near) (hother : t.Leads src dst other) :
    near = other := by
  obtain ⟨f, hf, hfirst⟩ := h
  obtain ⟨g, hg, hsecond⟩ := hother
  obtain rfl := Option.some.inj (hf.symm.trans hg)
  exact Option.some.inj ((FirstWith.find?_iff.mpr hfirst).symm.trans
    (FirstWith.find?_iff.mpr hsecond))

theorem Joins.exists_leads (h : t.Joins src dst near far) : ∃ first, t.Leads src dst first := by
  obtain ⟨f, hf, hmem⟩ := h.near_mem
  have hsome : ∃ l ∈ f.locators, l.peer = some dst := ⟨near, hmem, h.near_peer⟩
  obtain ⟨first, hfirst⟩ := FirstWith.exists_iff.mpr hsome
  exact ⟨first, f, hf, hfirst⟩

theorem Leads.joins (hnear : t.Leads src dst near)
    (hfar : t.Answers src dst near.locator.kind far) : t.Joins src dst near far := by
  obtain ⟨sender, hsender, hfirst⟩ := hnear
  obtain ⟨receiver, hreceiver, hanswer⟩ := hfar
  exact ⟨⟨sender, hsender, hfirst.mem⟩, ⟨receiver, hreceiver, hanswer.mem⟩, hfirst.holds,
    hanswer.holds.1, hanswer.holds.2⟩

theorem Joins.exists_answers (h : t.Joins src dst near far) :
    ∃ answer, t.Answers src dst near.locator.kind answer := by
  obtain ⟨f, hf, hmem⟩ := h.far_mem
  have hsome : ∃ l ∈ f.locators, l.peer = some src ∧ l.locator.kind = near.locator.kind :=
    ⟨far, hmem, h.far_peer, h.kind⟩
  obtain ⟨answer, hanswer⟩ := FirstWith.exists_iff.mpr hsome
  exact ⟨answer, f, hf, hanswer⟩

theorem link?_eq_some_iff : t.link? src dst = some link ↔
    ∃ near far, t.Leads src dst near ∧ t.Answers src dst near.locator.kind far ∧
      link = ⟨near.bound, far.bound⟩ := by
  constructor
  · intro h
    obtain ⟨sender, hsender, h⟩ := Option.bind_eq_some_iff.mp h
    obtain ⟨receiver, hreceiver, h⟩ := Option.bind_eq_some_iff.mp h
    obtain ⟨near, hnear, h⟩ := Option.bind_eq_some_iff.mp h
    obtain ⟨far, hfar, h⟩ := Option.bind_eq_some_iff.mp h
    exact ⟨near, far, ⟨sender, hsender, FirstWith.find?_iff.mp hnear⟩,
      ⟨receiver, hreceiver, FirstWith.find?_iff.mp hfar⟩, (Option.some.inj h).symm⟩
  · rintro ⟨near, far, ⟨sender, hsender, hnear⟩, ⟨receiver, hreceiver, hfar⟩, rfl⟩
    simp only [link?, hsender, hreceiver, Option.bind_eq_bind, Option.bind_some,
      FirstWith.find?_iff.mpr hnear, FirstWith.find?_iff.mpr hfar]
    rfl

/-- A link is found if there is one, unless the search goes astray at its start. -/
theorem isSome_link?_iff :
    (t.link? src dst).isSome ↔ t.Linked src dst ∧ ¬ t.Misleads src dst := by
  rw [Option.isSome_iff_exists]
  constructor
  · rintro ⟨link, h⟩
    obtain ⟨near, far, hnear, hfar, -⟩ := link?_eq_some_iff.mp h
    have hjoins := hnear.joins hfar
    refine ⟨⟨near, far, hjoins⟩, ?_⟩
    rintro ⟨first, hfirst, hnone⟩
    exact hnone far (hfirst.unique hnear ▸ hjoins)
  · rintro ⟨⟨near, far, hjoins⟩, hstraight⟩
    obtain ⟨first, hfirst⟩ := hjoins.exists_leads
    have hsome : ∃ far, t.Joins src dst first far := by
      by_contra hnone
      exact hstraight ⟨first, hfirst, not_exists.mp hnone⟩
    obtain ⟨far, hfar⟩ := hsome
    obtain ⟨answer, hanswer⟩ := hfar.exists_answers
    exact ⟨_, link?_eq_some_iff.mpr ⟨first, answer, hfirst, hanswer, rfl⟩⟩

/-- What is found is a link. One is found exactly if there is one and the first locator with the
right peer belongs to one; so it is found from both sides or from neither exactly if, where there is
one, this holds on both sides or on neither. -/
theorem link_found_iff (t : Topology) (src dst : String) :
    (∀ link, t.link? src dst = some link →
        ∃ near far, t.Joins src dst near far ∧ link = ⟨near.bound, far.bound⟩) ∧
      ((t.link? src dst).isSome ↔ t.Linked src dst ∧ ¬ t.Misleads src dst) ∧
      (((t.link? src dst).isSome ↔ (t.link? dst src).isSome) ↔
        (t.Linked src dst → (t.Misleads src dst ↔ t.Misleads dst src))) := by
  refine ⟨?_, isSome_link?_iff, ?_⟩
  · intro link h
    obtain ⟨near, far, hnear, hfar, rfl⟩ := link?_eq_some_iff.mp h
    exact ⟨near, far, hnear.joins hfar, rfl⟩
  · have hcomm : t.Linked dst src ↔ t.Linked src dst := linked_comm
    rw [isSome_link?_iff, isSome_link?_iff, hcomm]
    by_cases hlinked : t.Linked src dst
    · simp only [hlinked, true_and, true_imp_iff, not_iff_not]
    · simp only [hlinked, false_and, false_imp_iff]

/-- Two forwarders with a MAC link. The first locator of one of them is the end of a tunnel, of
which the other knows nothing. -/
def halfTunneled : Topology where
  forwarders :=
    [{ name := "near"
       switch := none
       locators :=
        [⟨"tunnel", .ip (.v4 10 0 0 1) none, none, none, some "far"⟩,
          ⟨"uplink", .mac ⟨2, 0, 0, 0, 0, 1⟩ none, none, none, some "far"⟩]
       dictionary := []
       ingressLocator := none
       egressLocator := none
       acceleratedPort := none },
      { name := "far"
        switch := none
        locators := [⟨"downlink", .mac ⟨2, 0, 0, 0, 0, 2⟩ none, none, none, some "near"⟩]
        dictionary := []
        ingressLocator := none
        egressLocator := none
        acceleratedPort := none }]
  serviceFunctions := []

/-- The link is there, and is found from one side only. -/
theorem link_missed :
    halfTunneled.Linked "near" "far" ∧ halfTunneled.link? "near" "far" = none ∧
      (halfTunneled.link? "far" "near").isSome := by
  refine ⟨⟨⟨"uplink", .mac ⟨2, 0, 0, 0, 0, 1⟩ none, none, none, some "far"⟩,
    ⟨"downlink", .mac ⟨2, 0, 0, 0, 0, 2⟩ none, none, none, some "near"⟩, ?_⟩, by decide, by decide⟩
  exact ⟨⟨_, rfl, by decide⟩, ⟨_, rfl, by decide⟩, rfl, rfl, rfl⟩

theorem isSome_link?_of_one_kind {f : Forwarder} (hf : t.forwarder? src = some f)
    {kind : LocatorKind}
    (hkind : ∀ l ∈ f.locators, l.peer = some dst → l.locator.kind = kind) :
    (t.link? src dst).isSome ↔ t.Linked src dst := by
  rw [isSome_link?_iff, and_iff_left_iff_imp]
  rintro ⟨near, far, h⟩ ⟨first, ⟨g, hg, hfirst⟩, hnone⟩
  obtain rfl := Option.some.inj (hf.symm.trans hg)
  obtain ⟨g, hg, hmem⟩ := h.near_mem
  obtain rfl := Option.some.inj (hf.symm.trans hg)
  -- the counterpart of any of them is one of the first
  have hsame : near.locator.kind = first.locator.kind :=
    (hkind near hmem h.near_peer).trans (hkind first hfirst.mem hfirst.holds).symm
  exact hnone far ⟨⟨_, hf, hfirst.mem⟩, h.far_mem, hfirst.holds, h.far_peer, h.kind.trans hsame⟩

end ServiceChain.Topology
