import Mathlib.Data.List.Sort
import ServiceChain.Proofs.HopEntries

/-! What is checked of a path before anything is planned: that its service indices count down and
leave one for the way out, and that each function is on one placement at most. A failed check is
put down to the first hop that fails it. -/
namespace ServiceChain

/-- `x` is the first element of the list with this property. -/
def FirstWith {α : Type} (P : α → Prop) (l : List α) (x : α) : Prop :=
  ∃ before after, l = before ++ x :: after ∧ P x ∧ ∀ y ∈ before, ¬ P y

namespace FirstWith

variable {α : Type} {P Q : α → Prop} {l : List α} {x y : α}

theorem not_nil : ¬ FirstWith P [] x := by
  rintro ⟨before, after, h, -⟩
  simp at h

theorem cons_iff : FirstWith P (y :: l) x ↔ P y ∧ x = y ∨ ¬ P y ∧ FirstWith P l x := by
  constructor
  · rintro ⟨before, after, h, hx, hbefore⟩
    cases before with
    | nil =>
      obtain ⟨rfl, rfl⟩ := List.cons.inj h
      exact Or.inl ⟨hx, rfl⟩
    | cons z before =>
      obtain ⟨rfl, rfl⟩ := List.cons.inj h
      exact Or.inr ⟨hbefore _ (by simp), before, after, rfl, hx,
        fun z hz => hbefore z (by simp [hz])⟩
  · rintro (⟨hy, rfl⟩ | ⟨hy, before, after, rfl, hx, hbefore⟩)
    · exact ⟨[], l, rfl, hy, by simp⟩
    · refine ⟨y :: before, after, rfl, hx, fun z hz => ?_⟩
      rcases List.mem_cons.mp hz with rfl | hz
      · exact hy
      · exact hbefore z hz

theorem mem (h : FirstWith P l x) : x ∈ l := by
  obtain ⟨before, after, rfl, -⟩ := h
  simp

theorem holds (h : FirstWith P l x) : P x := by
  obtain ⟨-, -, -, hx, -⟩ := h
  exact hx

theorem exists_iff : (∃ x, FirstWith P l x) ↔ ∃ x ∈ l, P x := by
  constructor
  · rintro ⟨x, hx⟩
    exact ⟨x, hx.mem, hx.holds⟩
  · induction l with
    | nil => simp
    | cons y rest ih =>
      rintro ⟨x, hmem, hx⟩
      by_cases hy : P y
      · exact ⟨y, cons_iff.mpr (Or.inl ⟨hy, rfl⟩)⟩
      · have hne : x ≠ y := fun h => hy (h ▸ hx)
        obtain ⟨z, hz⟩ := ih ⟨x, (List.mem_cons.mp hmem).resolve_left hne, hx⟩
        exact ⟨z, cons_iff.mpr (Or.inr ⟨hy, hz⟩)⟩

theorem find?_iff [DecidablePred P] : l.find? (fun y => P y) = some x ↔ FirstWith P l x := by
  rw [List.find?_eq_some_iff_append]
  constructor
  · rintro ⟨hx, before, after, rfl, hbefore⟩
    exact ⟨before, after, rfl, by simpa using hx, fun y hy => by simpa using hbefore y hy⟩
  · rintro ⟨before, after, rfl, hx, hbefore⟩
    exact ⟨by simpa using hx, before, after, rfl, fun y hy => by simpa using hbefore y hy⟩

theorem congr (h : ∀ y ∈ l, P y ↔ Q y) : FirstWith P l x ↔ FirstWith Q l x := by
  induction l with
  | nil => simp only [not_nil]
  | cons y rest ih =>
    rw [cons_iff, cons_iff, h y (by simp), ih fun z hz => h z (by simp [hz])]

end FirstWith

/-- A list is worked through up to the first element that fails. -/
theorem mapM_error_iff {ε α β : Type} {f : α → Except ε β} {l : List α} {e : ε} :
    l.mapM f = .error e ↔ ∃ x, FirstWith (fun x => ∃ e, f x = .error e) l x ∧ f x = .error e := by
  induction l with
  | nil => simp [FirstWith.not_nil, pure, Except.pure]
  | cons x rest ih =>
    rw [List.mapM_cons, bind_eq_error]
    constructor
    · rintro (hx | ⟨y, hy, h⟩)
      · exact ⟨x, FirstWith.cons_iff.mpr (Or.inl ⟨⟨e, hx⟩, rfl⟩), hx⟩
      · rcases bind_eq_error.mp h with hrest | ⟨_, -, h⟩
        · obtain ⟨z, hz, hfz⟩ := ih.mp hrest
          exact ⟨z, FirstWith.cons_iff.mpr (Or.inr ⟨by simp [hy], hz⟩), hfz⟩
        · cases h
    · rintro ⟨z, hz, hfz⟩
      rcases FirstWith.cons_iff.mp hz with ⟨-, rfl⟩ | ⟨hx, hz⟩
      · exact Or.inl hfz
      · cases hy : f x with
        | error other => exact absurd ⟨other, hy⟩ hx
        | ok y => exact Or.inr ⟨y, rfl, bind_eq_error.mpr (Or.inl (ih.mpr ⟨z, hz, hfz⟩))⟩

/-- There is a hop at least, and the service indices count down from the start of the path, with
one left for its end. -/
def ServicePath.CountsDown (path : ServicePath) : Prop :=
  1 ≤ path.hops.length ∧ path.hops.length ≤ path.startingIndex.toNat ∧
    ∀ i hop, path.hops[i]? = some hop → hop.index.toNat = path.startingIndex.toNat - i

namespace HopGraph

theorem checkIndices_ok_iff {i : Nat} {expected : ServiceIndex} {hops : List Hop} :
    checkIndices i expected hops = .ok () ↔ hops.length ≤ expected.toNat ∧
      ∀ k hop, hops[k]? = some hop → hop.index.toNat = expected.toNat - k := by
  induction hops generalizing i expected with
  | nil => simp [checkIndices]
  | cons first rest ih =>
    simp only [checkIndices]
    by_cases hindex : first.index = expected
    · by_cases hzero : expected = 0
      · simp [hindex, hzero]
      · have hpos : 0 < expected.toNat :=
          Nat.pos_of_ne_zero fun hnone => hzero (UInt8.toNat_inj.mp hnone)
        have hless := toNat_pred hpos
        rw [if_neg (by simpa using hindex), if_neg hzero, ih, hless]
        constructor
        · rintro ⟨hlength, hrest⟩
          refine ⟨by simp; omega, fun k hop hhop => ?_⟩
          cases k with
          | zero =>
            obtain rfl : first = hop := by simpa using hhop
            simp [hindex]
          | succ k =>
            have := hrest k hop (by simpa using hhop)
            omega
        · rintro ⟨hlength, hall⟩
          refine ⟨by simp at hlength; omega, fun k hop hhop => ?_⟩
          have := hall (k + 1) hop (by simpa using hhop)
          omega
    · rw [if_pos hindex]
      refine iff_of_false (by simp) ?_
      rintro ⟨-, hall⟩
      have hfirst : first.index.toNat = expected.toNat := by simpa using hall 0 first rfl
      exact hindex (UInt8.toNat_inj.mp hfirst)

theorem checkHops_ok_iff {path : ServicePath} : checkHops path = .ok () ↔ path.CountsDown := by
  simp only [checkHops, ServicePath.CountsDown]
  split
  · next hnone => simp [List.isEmpty_iff.mp hnone]
  · next hsome =>
    have hlength : 1 ≤ path.hops.length :=
      List.length_pos_iff.mpr fun hnone => hsome (by simp [hnone])
    rw [checkIndices_ok_iff]
    exact (and_iff_right hlength).symm

theorem checkIndices_ne_noEgressIndex {i : Nat} {expected : ServiceIndex} {hops : List Hop} :
    checkIndices i expected hops ≠ .error .noEgressIndex := by
  induction hops generalizing i expected with
  | nil => simp [checkIndices]
  | cons first rest ih =>
    simp only [checkIndices]
    split
    · simp
    · split
      · simp
      · exact ih

/-- The checks of the hops find other defects first. -/
theorem checkHops_ne_noEgressIndex {path : ServicePath} :
    checkHops path ≠ .error .noEgressIndex := by
  unfold checkHops
  split
  · simp
  · exact checkIndices_ne_noEgressIndex

end HopGraph

namespace Ordered

variable {α : Type} [DecidableEq α] [LT α] [DecidableLT α]

theorem ascending_insert (htrans : ∀ a b c : α, a < b → b < c → a < c)
    (htotal : ∀ a b : α, a ≠ b → ¬ a < b → b < a) (a : α) {l : List α}
    (h : l.Pairwise (· < ·)) : (insert a l).Pairwise (· < ·) := by
  induction l with
  | nil => simp [insert]
  | cons b rest ih =>
    obtain ⟨hb, hrest⟩ := List.pairwise_cons.mp h
    simp only [insert]
    split
    · exact h
    · next hne =>
      split
      · next hlt =>
        refine List.pairwise_cons.mpr ⟨fun c hc => ?_, h⟩
        rcases List.mem_cons.mp hc with rfl | hc
        · exact hlt
        · exact htrans a b c hlt (hb c hc)
      · next hge =>
        refine List.pairwise_cons.mpr ⟨fun c hc => ?_, ih hrest⟩
        rcases mem_insert.mp hc with rfl | hc
        · exact htotal c b hne hge
        · exact hb c hc

theorem ascending_ofList (htrans : ∀ a b c : α, a < b → b < c → a < c)
    (htotal : ∀ a b : α, a ≠ b → ¬ a < b → b < a) (as : List α) :
    (ofList as).Pairwise (· < ·) := by
  have hall : ∀ l : List α, l.Pairwise (· < ·) → (insertAll as l).Pairwise (· < ·) := by
    induction as with
    | nil => exact fun l h => h
    | cons a rest ih => exact fun l h => ih _ (ascending_insert htrans htotal a h)
  exact hall [] .nil

end Ordered

namespace Placement

theorem lt_trans (p q s : Placement) (hpq : p < q) (hqs : q < s) : p < s :=
  UInt64.lt_trans hpq hqs

theorem lt_of_not_lt (p q : Placement) (hne : p ≠ q) (h : ¬ p < q) : q < p := by
  refine UInt64.lt_of_le_of_ne (UInt64.not_lt.mp h) fun heq => hne ?_
  cases p
  cases q
  exact congrArg mk heq.symm

theorem lt_irrefl (p : Placement) : ¬ p < p := UInt64.lt_irrefl p.number

end Placement

theorem Locator.kind_eq_logicalInterface {l : Locator} :
    l.kind = .logicalInterface ↔ l.interface?.isSome := by
  cases l <;> simp [kind, interface?]

theorem ServiceFunction.logicalInterfaces?_eq_some {sf : ServiceFunction} {names : List String} :
    sf.logicalInterfaces? = some names ↔
      (∀ l ∈ sf.locators, l.locator.kind = .logicalInterface) ∧
        names = sf.locators.filterMap (·.locator.interface?) := by
  unfold logicalInterfaces?
  induction sf.locators generalizing names with
  | nil => simp [eq_comm]
  | cons l rest ih =>
    rw [List.mapM_cons, List.forall_mem_cons]
    cases hname : l.locator.interface? with
    | none =>
      refine iff_of_false (by simp) fun ⟨⟨hkind, _⟩, _⟩ => ?_
      simp [Locator.kind_eq_logicalInterface, hname] at hkind
    | some name =>
      have hkind : l.locator.kind = .logicalInterface := by
        simp [Locator.kind_eq_logicalInterface, hname]
      simp only [List.filterMap_cons, hname]
      simp only [Option.bind_eq_bind, Option.bind_some, Option.bind_eq_some_iff, ih, hkind,
        true_and]
      constructor
      · rintro ⟨others, ⟨hrest, rfl⟩, h⟩
        exact ⟨hrest, (Option.some.inj h).symm⟩
      · rintro ⟨hrest, rfl⟩
        exact ⟨_, ⟨hrest, rfl⟩, rfl⟩

namespace Deployment

/-- The function has logical interfaces alone, and one of them is on this placement. -/
def PlacedOn (d : Deployment) (function : String) (p : Placement) : Prop :=
  ∃ sf, d.topology.serviceFunction? function = some sf ∧
    (∀ l ∈ sf.locators, l.locator.kind = .logicalInterface) ∧
    ∃ l ∈ sf.locators, ∃ name, l.locator.interface? = some name ∧
      d.placements.placement name = .ok p

def Placed (d : Deployment) (hop : Hop) : Prop := ∃ p, d.PlacedOn hop.serviceFunction p

/-- The interfaces of the hop's function are on several placements. -/
def Spread (d : Deployment) (hop : Hop) : Prop :=
  ∃ p q, p ≠ q ∧ d.PlacedOn hop.serviceFunction p ∧ d.PlacedOn hop.serviceFunction q

/-- The placements of a function, in ascending order; none unless all its locators are logical
interfaces. -/
def placementsOf (d : Deployment) (function : String) : List Placement :=
  match (d.topology.serviceFunction? function).bind (·.logicalInterfaces?) with
  | none => []
  | some interfaces =>
    Ordered.ofList (interfaces.filterMap fun i => (d.placements.placement i).toOption)

variable {d : Deployment} {function : String} {path : ServicePath} {hop : Hop}

theorem mem_placementsOf {p : Placement} : p ∈ d.placementsOf function ↔ d.PlacedOn function p := by
  have hfound : ∀ name, (d.placements.placement name).toOption = some p ↔
      d.placements.placement name = .ok p := by
    intro name
    cases d.placements.placement name <;> simp [Except.toOption]
  unfold placementsOf PlacedOn
  cases hsf : d.topology.serviceFunction? function with
  | none => simp
  | some sf =>
    simp only [Option.bind_some, Option.some.injEq, exists_eq_left']
    cases hnames : sf.logicalInterfaces? with
    | none =>
      refine iff_of_false List.not_mem_nil fun ⟨hkinds, _⟩ => ?_
      have := ServiceFunction.logicalInterfaces?_eq_some.mpr ⟨hkinds, rfl⟩
      simp [hnames] at this
    | some names =>
      obtain ⟨hkinds, rfl⟩ := ServiceFunction.logicalInterfaces?_eq_some.mp hnames
      simp only [Ordered.mem_ofList, List.mem_filterMap, hfound]
      constructor
      · rintro ⟨name, ⟨l, hl, hname⟩, hp⟩
        exact ⟨hkinds, l, hl, name, hname, hp⟩
      · rintro ⟨-, l, hl, name, hname, hp⟩
        exact ⟨name, ⟨l, hl, hname⟩, hp⟩

theorem ascending_placementsOf (d : Deployment) (function : String) :
    (d.placementsOf function).Pairwise (· < ·) := by
  unfold placementsOf
  split
  · exact .nil
  · exact Ordered.ascending_ofList Placement.lt_trans Placement.lt_of_not_lt _

theorem eq_placementsOf_iff {several : List Placement} : several = d.placementsOf function ↔
    several.Pairwise (· < ·) ∧ ∀ p, p ∈ several ↔ d.PlacedOn function p := by
  constructor
  · rintro rfl
    exact ⟨d.ascending_placementsOf function, fun p => mem_placementsOf⟩
  · rintro ⟨hascending, hmem⟩
    have : Std.Irrefl (α := Placement) (· < ·) := ⟨Placement.lt_irrefl⟩
    have : Std.Antisymm (α := Placement) (· < ·) := ⟨fun p q hpq hqp =>
      absurd (Placement.lt_trans p q p hpq hqp) (Placement.lt_irrefl p)⟩
    exact hascending.eq_of_mem_iff (d.ascending_placementsOf function) fun p =>
      (hmem p).trans mem_placementsOf.symm

theorem placementOf_eq (d : Deployment) (function : String) :
    HopGraph.placementOf d.topology d.placements function =
      match d.placementsOf function with
      | [] => .ok none
      | [one] => .ok (some one)
      | several => .error (.ambiguousPlacement function several) := by
  unfold HopGraph.placementOf placementsOf
  cases (d.topology.serviceFunction? function).bind (·.logicalInterfaces?) <;> rfl

/-- The look-up fails if a function is on several placements, and names them all. -/
theorem placementOf_error_iff {e : RenderError} :
    HopGraph.placementOf d.topology d.placements hop.serviceFunction = .error e ↔
      d.Spread hop ∧
        e = .ambiguousPlacement hop.serviceFunction (d.placementsOf hop.serviceFunction) := by
  rw [placementOf_eq]
  simp only [Spread, ← mem_placementsOf]
  have hascending := d.ascending_placementsOf hop.serviceFunction
  match hfound : d.placementsOf hop.serviceFunction with
  | [] => simp
  | [one] => simp
  | p :: q :: rest =>
    have hne : p ≠ q := by
      rintro rfl
      rw [hfound] at hascending
      exact Placement.lt_irrefl p ((List.pairwise_cons.mp hascending).1 p (by simp))
    have hspread : ∃ p' q', p' ≠ q' ∧ p' ∈ p :: q :: rest ∧ q' ∈ p :: q :: rest :=
      ⟨p, q, hne, by simp, by simp⟩
    simp only [Except.error.injEq, hspread, true_and]
    exact eq_comm

theorem spread_iff_error : d.Spread hop ↔
    ∃ e, HopGraph.placementOf d.topology d.placements hop.serviceFunction = .error e := by
  simp [placementOf_error_iff]

theorem placementFor_isSome_iff (h : ¬ d.Spread hop) :
    (d.placementFor hop).isSome ↔ d.Placed hop := by
  simp only [spread_iff_error, not_exists] at h
  simp only [Placed, ← mem_placementsOf, placementFor]
  rw [placementOf_eq] at h ⊢
  cases hfound : d.placementsOf hop.serviceFunction with
  | nil => simp
  | cons p rest =>
    cases rest with
    | nil => simp
    | cons q rest => exact absurd (by rw [hfound]) (h _)

/-- Nothing says which switch the hop's forwarder is. -/
def Unresolved (d : Deployment) (hop : Hop) : Prop :=
  ¬ d.Placed hop ∧ ∀ f, d.topology.forwarder? hop.forwarder = some f → f.switch = none

theorem switchOf?_eq_none_iff (h : ¬ d.Spread hop) : d.switchOf? hop = none ↔ d.Unresolved hop := by
  have hplaced := placementFor_isSome_iff h
  unfold switchOf? Topology.switch? Unresolved
  cases hfound : d.placementFor hop with
  | some p => simp [hplaced.mp (by simp [hfound])]
  | none =>
    have hnot : ¬ d.Placed hop := fun hp => by simpa [hfound] using hplaced.mpr hp
    simp [hnot, Option.bind_eq_none_iff]

end Deployment

end ServiceChain
