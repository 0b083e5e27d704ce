import Std.Data.HashSet
import ServiceChain.Config
import ServiceChain.ServicePath

/-! The pool of VLAN ids. A path keeps its ids until it is released, so that no two paths hold
the same id and rendering a path again gives it the ids it has. -/
namespace ServiceChain

/-- The ids of one path, in the order they were leased. -/
structure VlanLease where
  path : PathId
  ids : List VlanId
  /-- Flows that use the ids were committed. -/
  committed : Bool
  deriving DecidableEq, Repr

structure VlanPool where
  range : VlanRange
  leases : List VlanLease := []
  deriving DecidableEq, Repr

namespace VlanPool

def lease? (pool : VlanPool) (path : PathId) : Option VlanLease :=
  pool.leases.find? (·.path = path)

def held (pool : VlanPool) (path : PathId) : List VlanId :=
  match pool.lease? path with
  | some lease => lease.ids
  | none => []

def taken (pool : VlanPool) : List VlanId := pool.leases.flatMap (·.ids)

def candidates (range : VlanRange) : List VlanId :=
  (List.range' range.first.toNat (range.last.toNat + 1 - range.first.toNat)).filterMap
    VlanId.ofNat?

def free (pool : VlanPool) : List VlanId :=
  let taken := Std.HashSet.ofList (pool.taken.map (·.number))
  (candidates pool.range).filter fun id => !taken.contains id.number

theorem free_eq (pool : VlanPool) :
    pool.free = (candidates pool.range).filter (· ∉ pool.taken) := by
  refine List.filter_congr fun id _ => ?_
  have same : id.number ∈ pool.taken.map (·.number) ↔ id ∈ pool.taken := by
    simp only [List.mem_map]
    exact ⟨fun ⟨other, held, h⟩ => VlanId.ext h ▸ held, fun held => ⟨id, held, rfl⟩⟩
  simp [Std.HashSet.contains_ofList, same]

def setLease (lease : VlanLease) : List VlanLease → List VlanLease
  | [] => [lease]
  | l :: rest => if l.path = lease.path then lease :: rest else l :: setLease lease rest

theorem find?_setLease (lease : VlanLease) (path : PathId) (leases : List VlanLease) :
    (setLease lease leases).find? (·.path = path) =
      if lease.path = path then some lease else leases.find? (·.path = path) := by
  induction leases with
  | nil => by_cases h : lease.path = path <;> simp [setLease, h]
  | cons l rest ih =>
    simp only [setLease]
    split
    · next hl => by_cases h : lease.path = path <;> simp [hl, h]
    · next hl =>
      by_cases hk : l.path = path
      · have : ¬ lease.path = path := fun e => hl (hk.trans e.symm)
        simp [hk, this]
      · simp [hk, ih]

def leaseOf (pool : VlanPool) (path : PathId) : VlanLease :=
  (pool.lease? path).getD ⟨path, [], false⟩

theorem leaseOf_path (pool : VlanPool) (path : PathId) : (pool.leaseOf path).path = path := by
  simp only [leaseOf, lease?]
  cases h : pool.leases.find? (·.path = path) with
  | none => rfl
  | some l => simpa using List.find?_some h

/-- The first `count` ids, each in its place; where the ids end, places stay empty. -/
def slots (ids : List VlanId) (count : Nat) : List (Option VlanId) :=
  (ids.take count).map some ++ List.replicate (count - ids.length) none

@[simp] theorem slots_length (ids : List VlanId) (count : Nat) :
    (slots ids count).length = count := by
  simp [slots]
  omega

theorem slots_getElem? {ids : List VlanId} {count i : Nat} (h : i < count) :
    (slots ids count)[i]? = some ids[i]? := by
  by_cases hi : i < ids.length
  · rw [slots, List.getElem?_append_left (by simp only [List.length_map, List.length_take]; omega)]
    simp [hi, h]
  · simp [slots, List.getElem?_append, List.getElem?_replicate, hi, h]
    omega

/-- Give a path `count` ids: those it has, then the lowest free ones. A place for which no id is
left stays empty. -/
def lease (pool : VlanPool) (path : PathId) (count : Nat) : List (Option VlanId) × VlanPool :=
  let old := pool.leaseOf path
  let ids := old.ids ++ pool.free.take (count - old.ids.length)
  (slots ids count, { pool with leases := setLease { old with ids } pool.leases })

theorem held_lease_of_ne {pool : VlanPool} {path other : PathId} (count : Nat)
    (h : path ≠ other) : (pool.lease path count).2.held other = pool.held other := by
  simp [held, lease, lease?, find?_setLease, leaseOf_path, h]

/-- The ids a path had stay in front of the fresh ones. -/
theorem held_lease (pool : VlanPool) (path : PathId) (count : Nat) :
    (pool.lease path count).2.held path =
      pool.held path ++ pool.free.take (count - (pool.held path).length) := by
  have old : (pool.leaseOf path).ids = pool.held path := by
    simp only [leaseOf, held]
    cases pool.lease? path <;> rfl
  simp [held, lease, lease?, find?_setLease, leaseOf_path, old]

def commit (pool : VlanPool) (path : PathId) : VlanPool :=
  { pool with leases :=
      pool.leases.map fun l => if l.path = path then { l with committed := true } else l }

def abandon (pool : VlanPool) (path : PathId) : VlanPool :=
  { pool with leases := pool.leases.filter fun l => l.path ≠ path || l.committed }

def release (pool : VlanPool) (path : PathId) : VlanPool :=
  { pool with leases := pool.leases.filter (·.path ≠ path) }

end VlanPool
end ServiceChain
