import ServiceChain.Proofs.VlanLeases

/-! What a lease gives in a pool that has seen any calls: the ids the path has, then the lowest that
nobody holds. Ids keep their places until their path is released or abandoned. -/
namespace ServiceChain
namespace VlanPool

inductive Call where
  | lease (path : PathId) (count : Nat)
  | commit (path : PathId)
  | abandon (path : PathId)
  | release (path : PathId)
  deriving DecidableEq, Repr

/-- The pool after a call; what a lease answers is left aside. -/
def step (pool : VlanPool) : Call → VlanPool
  | .lease path count => (pool.lease path count).2
  | .commit path => pool.commit path
  | .abandon path => pool.abandon path
  | .release path => pool.release path

def run (pool : VlanPool) (calls : List Call) : VlanPool := calls.foldl step pool

@[simp] theorem run_nil (pool : VlanPool) : pool.run [] = pool := rfl

@[simp] theorem run_cons (pool : VlanPool) (call : Call) (calls : List Call) :
    pool.run (call :: calls) = (pool.step call).run calls := rfl

@[simp] theorem range_step (pool : VlanPool) (call : Call) :
    (pool.step call).range = pool.range := by
  cases call <;> rfl

@[simp] theorem range_run (pool : VlanPool) (calls : List Call) :
    (pool.run calls).range = pool.range := by
  induction calls generalizing pool with
  | nil => rfl
  | cons call calls ih => rw [run_cons, ih, range_step]

theorem WellFormed.step {pool : VlanPool} (h : pool.WellFormed) (call : Call) :
    (pool.step call).WellFormed := by
  cases call with
  | lease path count => exact h.lease path count
  | commit path => exact h.commit path
  | abandon path => exact h.abandon path
  | release path => exact h.release path

theorem WellFormed.run {pool : VlanPool} (h : pool.WellFormed) (calls : List Call) :
    (pool.run calls).WellFormed := by
  induction calls generalizing pool with
  | nil => exact h
  | cons call calls ih => exact ih (h.step call)

def Call.Frees (path : PathId) (call : Call) : Prop := call = .abandon path ∨ call = .release path

/-- A call that does not free the path's ids leaves them in front, and at most adds to them. -/
theorem held_prefix_step (pool : VlanPool) {path : PathId} {call : Call}
    (hkept : ¬ call.Frees path) : pool.held path <+: (pool.step call).held path := by
  cases call with
  | lease other count =>
    by_cases hother : other = path
    · subst hother
      exact held_lease pool other count ▸ List.prefix_append _ _
    · exact (held_lease_of_ne count hother) ▸ List.prefix_rfl
  | commit other => exact held_commit pool other path ▸ List.prefix_rfl
  | abandon other =>
    have hother : path ≠ other := fun e => hkept (Or.inl (e ▸ rfl))
    exact held_abandon_of_ne hother ▸ List.prefix_rfl
  | release other =>
    have hother : path ≠ other := fun e => hkept (Or.inr (e ▸ rfl))
    exact held_release_of_ne hother ▸ List.prefix_rfl

theorem held_prefix_run (pool : VlanPool) {path : PathId} {calls : List Call}
    (hkept : ∀ call ∈ calls, ¬ call.Frees path) :
    pool.held path <+: (pool.run calls).held path := by
  induction calls generalizing pool with
  | nil => exact List.prefix_rfl
  | cons call calls ih =>
    have hfirst := held_prefix_step pool (hkept call List.mem_cons_self)
    exact hfirst.trans (ih _ fun other hother => hkept other (List.mem_cons_of_mem _ hother))

theorem slot_of_prefix {pool : VlanPool} {path : PathId} {ids : List VlanId}
    (hids : ids <+: pool.held path) {i : Nat} {id : VlanId} (hid : ids[i]? = some id) {count : Nat}
    (hi : i < count) : (pool.lease path count).1[i]? = some (some id) := by
  have hkept : ids <+: (pool.lease path count).2.held path :=
    hids.trans (held_lease pool path count ▸ List.prefix_append _ _)
  obtain ⟨hlt, rfl⟩ := List.getElem?_eq_some_iff.mp hid
  rw [slots_held_lease, slots_getElem? hi, List.prefix_iff_getElem?.mp hkept i hlt]

theorem none_mem_slots {ids : List VlanId} {count : Nat} :
    none ∈ slots ids count ↔ ids.length < count := by
  simp only [slots, List.mem_append, List.mem_map, List.mem_replicate, reduceCtorEq, and_false,
    exists_false, false_or, and_true]
  omega

/-- An id of the range that no path holds. -/
def Unheld (pool : VlanPool) (id : VlanId) : Prop :=
  pool.range.first.toNat ≤ id.number ∧ id.number ≤ pool.range.last.toNat ∧
    ∀ path, id ∉ pool.held path

/-- The lowest `count` ids with `p` in ascending order, or all of them if there are fewer. -/
structure Lowest (p : VlanId → Prop) (count : Nat) (ids : List VlanId) : Prop where
  ascending : ids.Pairwise fun a b => a.number < b.number
  sound : ∀ id ∈ ids, p id
  lowest : ∀ id ∈ ids, ∀ other, p other → other.number < id.number → other ∈ ids
  length_le : ids.length ≤ count
  complete : ids.length < count → ∀ id, p id → id ∈ ids

theorem Lowest.take {p : VlanId → Prop} {all : List VlanId}
    (hsorted : all.Pairwise fun a b => a.number < b.number) (hall : ∀ id, id ∈ all ↔ p id)
    (count : Nat) : Lowest p count (all.take count) where
  ascending := hsorted.sublist (List.take_sublist _ _)
  sound := fun id hid => (hall id).mp (List.mem_of_mem_take hid)
  lowest := by
    intro id hid other hother hlt
    have hmem : other ∈ all.take count ++ all.drop count := by
      rw [List.take_append_drop]
      exact (hall other).mpr hother
    rcases List.mem_append.mp hmem with htaken | hleft
    · exact htaken
    · -- what is left lies above all that was taken
      rw [← List.take_append_drop count all, List.pairwise_append] at hsorted
      have habove := hsorted.2.2 id hid other hleft
      omega
  length_le := List.length_take_le _ _
  complete := by
    intro hshort id hid
    rw [List.length_take] at hshort
    rw [List.take_of_length_le (by omega)]
    exact (hall id).mpr hid

theorem free_sorted (pool : VlanPool) : pool.free.Pairwise fun a b => a.number < b.number := by
  rw [free_eq]
  exact (candidates_sorted pool.range).filter _

theorem WellFormed.mem_free_iff {pool : VlanPool} (h : pool.WellFormed) (id : VlanId) :
    id ∈ pool.free ↔ pool.Unheld id := by
  rw [mem_free, h.mem_taken, mem_candidates, not_exists, and_assoc]
  rfl

theorem WellFormed.not_unheld_of_short {pool : VlanPool} (h : pool.WellFormed) {path : PathId}
    {count : Nat} (hshort : ((pool.lease path count).2.held path).length < count) (id : VlanId) :
    ¬ (pool.lease path count).2.Unheld id := by
  rintro ⟨hfirst, hlast, hunheld⟩
  have hold := hunheld path
  rw [held_lease, List.length_append, List.length_take] at hshort
  rw [held_lease, List.take_of_length_le (by omega), List.mem_append, not_or] at hold
  refine hold.2 ((h.mem_free_iff id).mpr ⟨hfirst, hlast, fun other => ?_⟩)
  by_cases hother : path = other
  · exact hother ▸ hold.1
  · exact held_lease_of_ne count hother ▸ hunheld other

/-- After any calls a lease gives its path the lowest ids that nobody holds, behind those it has,
and leaves the other paths alone. Its answer are the first ids that the path holds then, each in its
slot; a slot is empty only if no id of the range is left; and whatever calls come next, unless they
release or abandon the path, later leases have the same ids in the same slots. -/
theorem lease_exact (range : VlanRange) (calls : List Call) (path : PathId) (count : Nat) :
    let pool := run ⟨range, []⟩ calls
    let answer := (pool.lease path count).1
    let after := (pool.lease path count).2
    pool.range = range ∧ after.range = range ∧
      (∃ fresh, after.held path = pool.held path ++ fresh ∧
        Lowest pool.Unheld (count - (pool.held path).length) fresh) ∧
      (∀ other, other ≠ path → after.held other = pool.held other) ∧
      answer.length = count ∧
      (∀ i < count, answer[i]? = some (after.held path)[i]?) ∧
      (none ∈ answer → ∀ id, ¬ after.Unheld id) ∧
      ∀ later : List Call, (∀ call ∈ later, ¬ call.Frees path) →
        ∀ i id, (after.held path)[i]? = some id → ∀ more, i < more →
          ((after.run later).lease path more).1[i]? = some (some id) := by
  intro pool answer after
  have hpool : pool.WellFormed := (wellFormed_empty range).run calls
  have hanswer : answer = slots (after.held path) count := slots_held_lease pool path count
  have hrange : pool.range = range := range_run _ calls
  refine ⟨hrange, hrange,
    ⟨_, held_lease pool path count, Lowest.take (free_sorted pool) hpool.mem_free_iff _⟩,
    fun other hother => held_lease_of_ne count hother.symm, ?_, fun i hi => ?_, fun hnone => ?_,
    fun later hkept i id hid more hi => ?_⟩
  · rw [hanswer, slots_length]
  · rw [hanswer, slots_getElem? hi]
  · exact hpool.not_unheld_of_short (none_mem_slots.mp (hanswer ▸ hnone))
  · exact slot_of_prefix (held_prefix_run after hkept) hid hi

/-- Two paths share two ids. Once the first has released its own, the second asks for three: it
keeps the one it has, is given the other, and nothing is left. -/
theorem lease_exact_exhausted :
    let pool := run ⟨⟨100, 101⟩, []⟩ [.lease 1 1, .commit 1, .lease 2 1, .release 1]
    (pool.lease 2 3).1 = [some { number := 101 }, some { number := 100 }, none] ∧
      ∀ id, ¬ (pool.lease 2 3).2.Unheld id := by
  intro pool
  have hanswer : (pool.lease 2 3).1 = [some { number := 101 }, some { number := 100 }, none] := by
    simp only [pool, run_cons, run_nil, step, lease, free_eq]
    decide +kernel
  obtain ⟨-, -, -, -, -, -, hempty, -⟩ :=
    lease_exact ⟨100, 101⟩ [.lease 1 1, .commit 1, .lease 2 1, .release 1] 2 3
  exact ⟨hanswer, hempty (hanswer ▸ by simp)⟩

end VlanPool
end ServiceChain
