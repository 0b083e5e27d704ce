import Mathlib.Data.List.Nodup
import ServiceChain.VlanPool

/-! Leases of VLAN ids: what each operation of the pool leaves a path with, and the order that all
of them keep. A path has one lease, no id is held twice, and every id held is a candidate of the
range. -/
namespace ServiceChain
namespace VlanPool

theorem mem_candidates {range : VlanRange} {id : VlanId} :
    id ∈ candidates range ↔
      range.first.toNat ≤ id.number ∧ id.number ≤ range.last.toNat := by
  simp only [candidates, List.mem_filterMap, List.mem_range'_1]
  constructor
  · rintro ⟨n, hn, hid⟩
    have hnumber : id.number = n := VlanId.number_of_ofNat? hid
    omega
  · intro h
    exact ⟨id.number, by omega, VlanId.ofNat?_number id⟩

theorem candidates_sorted (range : VlanRange) :
    (candidates range).Pairwise fun a b => a.number < b.number := by
  rw [candidates, List.pairwise_filterMap]
  have hsorted : (List.range' range.first.toNat
      (range.last.toNat + 1 - range.first.toNat)).Pairwise (· < ·) :=
    List.pairwise_lt_range' _ (by omega)
  refine hsorted.imp ?_
  intro m n hlt a ha b hb
  have hm : a.number = m := VlanId.number_of_ofNat? ha
  have hn : b.number = n := VlanId.number_of_ofNat? hb
  omega

theorem candidates_nodup (range : VlanRange) : (candidates range).Nodup := by
  refine (candidates_sorted range).imp ?_
  rintro a b hlt rfl
  exact Nat.lt_irrefl _ hlt

theorem free_nodup (pool : VlanPool) : pool.free.Nodup := by
  rw [free_eq]
  exact (candidates_nodup pool.range).filter _

theorem mem_free {pool : VlanPool} {id : VlanId} :
    id ∈ pool.free ↔ id ∈ candidates pool.range ∧ id ∉ pool.taken := by
  simp [free_eq]

theorem held_of_lease? {pool : VlanPool} {path : PathId} {lease : VlanLease}
    (h : pool.lease? path = some lease) : pool.held path = lease.ids := by
  simp [held, h]

theorem held_of_none {pool : VlanPool} {path : PathId} (h : pool.lease? path = none) :
    pool.held path = [] := by
  simp [held, h]

theorem ids_leaseOf (pool : VlanPool) (path : PathId) :
    (pool.leaseOf path).ids = pool.held path := by
  simp only [leaseOf, held]
  cases pool.lease? path <;> rfl

theorem lease?_lease (pool : VlanPool) (path : PathId) (count : Nat) :
    (pool.lease path count).2.lease? path =
      some { pool.leaseOf path with
        ids := pool.held path ++ pool.free.take (count - (pool.held path).length) } := by
  simp [lease, lease?, find?_setLease, leaseOf_path, ids_leaseOf]

/-- What a lease hands out are the first ids that the path holds then. -/
theorem slots_held_lease (pool : VlanPool) (path : PathId) (count : Nat) :
    (pool.lease path count).1 = slots ((pool.lease path count).2.held path) count := by
  rw [held_lease, lease, ids_leaseOf]

theorem held_commit (pool : VlanPool) (path other : PathId) :
    (pool.commit path).held other = pool.held other := by
  have hkeys : (fun l : VlanLease => decide (l.path = other)) ∘
      (fun l => if l.path = path then { l with committed := true } else l) =
      fun l => decide (l.path = other) := by
    funext l
    simp only [Function.comp_apply]
    split <;> rfl
  simp only [held, lease?, commit, List.find?_map, hkeys]
  cases pool.leases.find? (·.path = other) with
  | none => rfl
  | some l =>
    simp only [Option.map_some]
    split <;> rfl

theorem find?_filter_of_keeps {p : VlanLease → Bool} (leases : List VlanLease) (path : PathId)
    (hkeeps : ∀ lease, lease.path = path → p lease = true) :
    (leases.filter p).find? (·.path = path) = leases.find? (·.path = path) := by
  rw [List.find?_filter]
  congr 1
  funext lease
  by_cases h : lease.path = path
  · simp [h, hkeeps lease h]
  · simp [h]

theorem held_release (pool : VlanPool) (path : PathId) : (pool.release path).held path = [] := by
  refine held_of_none ?_
  simp only [lease?, release, List.find?_filter, List.find?_eq_none]
  intro lease _
  by_cases h : lease.path = path <;> simp [h]

theorem held_release_of_ne {pool : VlanPool} {path other : PathId} (h : other ≠ path) :
    (pool.release path).held other = pool.held other := by
  have hsame := find?_filter_of_keeps (p := (·.path ≠ path)) pool.leases other
    fun lease hlease => by simp [hlease, h]
  simp only [held, lease?, release, hsame]

theorem release_release (pool : VlanPool) (path : PathId) :
    (pool.release path).release path = pool.release path := by
  simp [release, List.filter_filter]

theorem held_abandon_of_ne {pool : VlanPool} {path other : PathId} (h : other ≠ path) :
    (pool.abandon path).held other = pool.held other := by
  have hsame := find?_filter_of_keeps (p := fun lease => lease.path ≠ path || lease.committed)
    pool.leases other fun lease hlease => by simp [hlease, h]
  simp only [held, lease?, abandon, hsame]

theorem find?_abandoned {leases : List VlanLease} (hpaths : (leases.map (·.path)).Nodup)
    (path : PathId) :
    (leases.filter fun lease => lease.path ≠ path || lease.committed).find? (·.path = path) =
      (leases.find? (·.path = path)).filter (·.committed) := by
  induction leases with
  | nil => rfl
  | cons lease rest ih =>
    simp only [List.map_cons, List.nodup_cons] at hpaths
    have ih := ih hpaths.2
    by_cases hpath : lease.path = path
    · -- no second lease of the path could take the place of this one
      have hnone : rest.find? (·.path = path) = none := by
        simp only [List.find?_eq_none, decide_eq_true_eq]
        exact fun other hother he => hpaths.1 (hpath ▸ he ▸ List.mem_map_of_mem hother)
      rw [hnone] at ih
      cases hcommitted : lease.committed with
      | true => simp [hpath, hcommitted, Option.filter_some]
      | false => simpa [hpath, hcommitted, Option.filter_some] using ih
    · simpa [hpath] using ih

theorem lease?_abandon {pool : VlanPool} (hpaths : (pool.leases.map (·.path)).Nodup)
    (path : PathId) :
    (pool.abandon path).lease? path = (pool.lease? path).filter (·.committed) :=
  find?_abandoned hpaths path

/-- A path has one lease; no id is held by two paths, or twice by one; every id held is a
candidate. -/
structure WellFormed (pool : VlanPool) : Prop where
  paths_nodup : (pool.leases.map (·.path)).Nodup
  held_nodup : ∀ path, (pool.held path).Nodup
  held_disjoint : ∀ path other, path ≠ other → List.Disjoint (pool.held path) (pool.held other)
  held_candidate : ∀ path, ∀ id ∈ pool.held path, id ∈ candidates pool.range

theorem mem_taken_of_mem_held {pool : VlanPool} {path : PathId} {id : VlanId}
    (h : id ∈ pool.held path) : id ∈ pool.taken := by
  cases hlease : pool.lease? path with
  | none => simp [held_of_none hlease] at h
  | some lease =>
    rw [held_of_lease? hlease] at h
    exact List.mem_flatMap.mpr ⟨lease, List.mem_of_find?_eq_some hlease, h⟩

theorem WellFormed.mem_taken {pool : VlanPool} (h : pool.WellFormed) {id : VlanId} :
    id ∈ pool.taken ↔ ∃ path, id ∈ pool.held path := by
  constructor
  · intro htaken
    obtain ⟨lease, hlease, hid⟩ := List.mem_flatMap.mp htaken
    have hsome : (pool.lease? lease.path).isSome := List.find?_isSome.mpr ⟨lease, hlease, by simp⟩
    obtain ⟨found, hfound⟩ := Option.isSome_iff_exists.mp hsome
    have hsame : found = lease :=
      List.inj_on_of_nodup_map h.paths_nodup (List.mem_of_find?_eq_some hfound) hlease
        (by simpa using List.find?_some hfound)
    exact ⟨lease.path, by rwa [held_of_lease? hfound, hsame]⟩
  · rintro ⟨path, hheld⟩
    exact mem_taken_of_mem_held hheld

theorem not_mem_held_of_mem_free {pool : VlanPool} {id : VlanId} (h : id ∈ pool.free)
    (path : PathId) : id ∉ pool.held path :=
  fun hheld => (mem_free.mp h).2 (mem_taken_of_mem_held hheld)

theorem paths_setLease (lease : VlanLease) (leases : List VlanLease) :
    (setLease lease leases).map (·.path) =
      if lease.path ∈ leases.map (·.path) then leases.map (·.path)
      else leases.map (·.path) ++ [lease.path] := by
  induction leases with
  | nil => simp [setLease]
  | cons first rest ih =>
    by_cases h : first.path = lease.path
    · simp [setLease, h]
    · have h' : ¬ lease.path = first.path := fun e => h e.symm
      simp only [setLease, if_neg h, List.map_cons, ih, List.mem_cons, h', false_or]
      split <;> simp

theorem mem_setLease {lease other : VlanLease} {leases : List VlanLease}
    (h : other ∈ setLease lease leases) : other = lease ∨ other ∈ leases := by
  induction leases with
  | nil => exact Or.inl (by simpa [setLease] using h)
  | cons first rest ih =>
    simp only [setLease] at h
    split at h
    · rcases List.mem_cons.mp h with rfl | h
      · exact Or.inl rfl
      · exact Or.inr (List.mem_cons_of_mem _ h)
    · rcases List.mem_cons.mp h with rfl | h
      · exact Or.inr List.mem_cons_self
      · exact (ih h).imp_right (List.mem_cons_of_mem _)

theorem wellFormed_empty (range : VlanRange) : WellFormed ⟨range, []⟩ where
  paths_nodup := List.nodup_nil
  held_nodup := fun _ => List.nodup_nil
  held_disjoint := fun _ _ _ => List.disjoint_nil_left _
  held_candidate := by simp [held, lease?]

namespace WellFormed

variable {pool : VlanPool}

theorem lease (h : pool.WellFormed) (path : PathId) (count : Nat) :
    (pool.lease path count).2.WellFormed where
  paths_nodup := by
    simp only [VlanPool.lease, paths_setLease]
    split
    · exact h.paths_nodup
    · next hnew =>
      refine List.Nodup.append h.paths_nodup (List.nodup_singleton _) ?_
      rintro other hother hsame
      exact hnew (List.mem_singleton.mp hsame ▸ hother)
  held_nodup := by
    intro other
    by_cases hother : path = other
    · subst hother
      rw [held_lease]
      refine List.Nodup.append (h.held_nodup path) ((free_nodup pool).sublist
        (List.take_sublist _ _)) ?_
      intro id hheld hfresh
      exact not_mem_held_of_mem_free (List.mem_of_mem_take hfresh) path hheld
    · rw [held_lease_of_ne count hother]
      exact h.held_nodup other
  held_disjoint := by
    -- whichever of the two paths the lease is for, its fresh ids are not the other's
    have hapart (other : PathId) (hother : path ≠ other) :
        List.Disjoint ((pool.lease path count).2.held path)
          ((pool.lease path count).2.held other) := by
      rw [held_lease, held_lease_of_ne count hother]
      intro id hid hheld
      rcases List.mem_append.mp hid with hid | hid
      · exact h.held_disjoint path other hother hid hheld
      · exact not_mem_held_of_mem_free (List.mem_of_mem_take hid) other hheld
    intro first second hne
    by_cases hfirst : path = first
    · exact hfirst ▸ hapart second (hfirst ▸ hne)
    · by_cases hsecond : path = second
      · exact hsecond ▸ List.disjoint_symm (hapart first hfirst)
      · rw [held_lease_of_ne count hfirst, held_lease_of_ne count hsecond]
        exact h.held_disjoint first second hne
  held_candidate := by
    intro other id hid
    by_cases hother : path = other
    · subst hother
      rw [held_lease] at hid
      rcases List.mem_append.mp hid with hid | hid
      · exact h.held_candidate path id hid
      · exact (mem_free.mp (List.mem_of_mem_take hid)).1
    · rw [held_lease_of_ne count hother] at hid
      exact h.held_candidate other id hid

theorem of_held (h : pool.WellFormed) {after : VlanPool} (hrange : after.range = pool.range)
    (hpaths : (after.leases.map (·.path)).Nodup)
    (hheld : ∀ path, after.held path = pool.held path ∨ after.held path = []) :
    after.WellFormed := by
  have hmem (path : PathId) (id : VlanId) (hid : id ∈ after.held path) : id ∈ pool.held path := by
    rcases hheld path with hsame | hnone
    · exact hsame ▸ hid
    · simp [hnone] at hid
  refine ⟨hpaths, fun path => ?_, fun path other hne id hid hother => ?_, fun path id hid => ?_⟩
  · rcases hheld path with hsame | hnone
    · exact hsame ▸ h.held_nodup path
    · exact hnone ▸ List.nodup_nil
  · exact h.held_disjoint path other hne (hmem path id hid) (hmem other id hother)
  · exact hrange ▸ h.held_candidate path id (hmem path id hid)

theorem commit (h : pool.WellFormed) (path : PathId) : (pool.commit path).WellFormed := by
  refine h.of_held rfl ?_ fun other => Or.inl (held_commit pool path other)
  have hsame : (pool.commit path).leases.map (·.path) = pool.leases.map (·.path) := by
    simp only [VlanPool.commit, List.map_map]
    refine List.map_congr_left fun lease _ => ?_
    simp only [Function.comp_apply]
    split <;> rfl
  exact hsame ▸ h.paths_nodup

/-- A path that is abandoned keeps all its ids or none. -/
theorem held_abandon (h : pool.WellFormed) (path : PathId) :
    (pool.abandon path).held path =
      if (pool.lease? path).any (·.committed) then pool.held path else [] := by
  have hlease := lease?_abandon h.paths_nodup path
  cases hfound : pool.lease? path with
  | none =>
    rw [hfound] at hlease
    simpa using held_of_none hlease
  | some lease =>
    rw [hfound, Option.filter_some] at hlease
    cases hcommitted : lease.committed with
    | true =>
      rw [hcommitted] at hlease
      simp [hcommitted, held_of_lease? hlease, held_of_lease? hfound]
    | false =>
      rw [hcommitted] at hlease
      simpa [hcommitted] using held_of_none hlease

theorem abandon (h : pool.WellFormed) (path : PathId) : (pool.abandon path).WellFormed := by
  refine h.of_held rfl (h.paths_nodup.sublist (List.filter_sublist.map _)) fun other => ?_
  by_cases hother : other = path
  · subst hother
    rw [h.held_abandon]
    split
    · exact Or.inl rfl
    · exact Or.inr rfl
  · exact Or.inl (held_abandon_of_ne hother)

theorem release (h : pool.WellFormed) (path : PathId) : (pool.release path).WellFormed := by
  refine h.of_held rfl (h.paths_nodup.sublist (List.filter_sublist.map _)) fun other => ?_
  by_cases hother : other = path
  · exact Or.inr (hother ▸ held_release pool path)
  · exact Or.inl (held_release_of_ne hother)

end WellFormed

def Settled (pool : VlanPool) : Prop := ∀ lease ∈ pool.leases, lease.committed = true

def SettledBut (pool : VlanPool) (path : PathId) : Prop :=
  ∀ lease ∈ pool.leases, lease.path = path ∨ lease.committed = true

theorem Settled.but {pool : VlanPool} (h : pool.Settled) (path : PathId) :
    pool.SettledBut path :=
  fun lease hlease => Or.inr (h lease hlease)

theorem Settled.lease {pool : VlanPool} (h : pool.Settled) (path : PathId) (count : Nat) :
    (pool.lease path count).2.SettledBut path := by
  intro lease hlease
  rcases mem_setLease hlease with rfl | hold
  · exact Or.inl (leaseOf_path pool path)
  · exact Or.inr (h lease hold)

theorem Settled.release {pool : VlanPool} (h : pool.Settled) (path : PathId) :
    (pool.release path).Settled :=
  fun lease hlease => h lease (List.mem_of_mem_filter hlease)

theorem SettledBut.commit {pool : VlanPool} {path : PathId} (h : pool.SettledBut path) :
    (pool.commit path).Settled := by
  intro lease hlease
  obtain ⟨old, hold, rfl⟩ := List.mem_map.mp hlease
  by_cases hpath : old.path = path
  · simp [hpath]
  · simpa [hpath] using h old hold

theorem SettledBut.abandon {pool : VlanPool} {path : PathId} (h : pool.SettledBut path) :
    (pool.abandon path).Settled := by
  intro lease hlease
  obtain ⟨hold, hkept⟩ := List.mem_filter.mp hlease
  rcases h lease hold with hpath | hcommitted
  · simpa [hpath] using hkept
  · exact hcommitted

theorem Settled.abandon_eq {pool : VlanPool} (h : pool.Settled) (path : PathId) :
    pool.abandon path = pool := by
  have hkept : pool.leases.filter (fun lease => lease.path ≠ path || lease.committed) =
      pool.leases := by
    refine List.filter_eq_self.mpr fun lease hlease => ?_
    simp [h lease hlease]
  rw [abandon, hkept]

/-- What a failed render leaves of a lease: all of it, the fresh ids too, if the path had one that
was committed, else nothing. -/
theorem held_abandon_lease {pool : VlanPool} (h : pool.WellFormed) (hsettled : pool.Settled)
    (path : PathId) (count : Nat) :
    ((pool.lease path count).2.abandon path).held path =
      pool.held path ++ if (pool.lease? path).isSome then
        pool.free.take (count - (pool.held path).length)
      else [] := by
  rw [(h.lease path count).held_abandon, lease?_lease, held_lease]
  cases hlease : pool.lease? path with
  | none => simp [leaseOf, hlease, held_of_none hlease]
  | some lease =>
    have hcommitted : lease.committed = true := hsettled lease (List.mem_of_find?_eq_some hlease)
    simp [leaseOf, hlease, hcommitted]

end VlanPool
end ServiceChain
