import ServiceChain.Flow.Basic
import ServiceChain.Ordered

/-! The flow store. Paths that need a flow of one key share it: each owner keeps a version, and
the latest version is the one installed on the switch. -/
namespace ServiceChain

/-- The versions of one key, the latest last. -/
structure SharedFlow where
  key : FlowKey
  versions : List Flow
  deriving DecidableEq, Repr

namespace SharedFlow

def installed? (s : SharedFlow) : Option Flow := s.versions.getLast?

def install (s : SharedFlow) (flow : Flow) : SharedFlow :=
  { s with versions := s.versions.filter (·.owner ≠ flow.owner) ++ [flow] }

def drop (s : SharedFlow) (owner : FlowOwner) : SharedFlow :=
  { s with versions := s.versions.filter (·.owner ≠ owner) }

/-- This owner has a version, and nobody else has. -/
def isHeldBy (s : SharedFlow) (owner : FlowOwner) : Bool :=
  s.versions.any (·.owner = owner) && s.versions.all (·.owner = owner)

end SharedFlow

/-- Shared flows in the order their keys were first committed. -/
structure FlowStore where
  shared : List SharedFlow := []
  deriving DecidableEq, Repr

namespace FlowStore

def empty : FlowStore := {}

def installInto (flow : Flow) : List SharedFlow → List SharedFlow
  | [] => [⟨flow.key, [flow]⟩]
  | s :: rest =>
    if s.key = flow.key then s.install flow :: rest else s :: installInto flow rest

def install (store : FlowStore) (flow : Flow) : FlowStore := ⟨installInto flow store.shared⟩

def commit (store : FlowStore) (batch : List Flow) : FlowStore := batch.foldl install store

/-- The store without an owner's versions; a key left without versions goes. -/
def deleteOwner (store : FlowStore) (owner : FlowOwner) : FlowStore :=
  ⟨(store.shared.filter (!·.isHeldBy owner)).map (·.drop owner)⟩

def switchesHeldBy (store : FlowStore) (owner : FlowOwner) : List SwitchId :=
  Ordered.ofList ((store.shared.filter (·.isHeldBy owner)).map (·.key.switch))

def flows (store : FlowStore) : List Flow := store.shared.filterMap (·.installed?)

def flowsOn (store : FlowStore) (switch : SwitchId) : List Flow :=
  (store.shared.filter (·.key.switch = switch)).filterMap (·.installed?)

/-- The versions of a key, the latest last. -/
def versions (store : FlowStore) (key : FlowKey) : List Flow :=
  match store.shared.find? (·.key = key) with
  | some s => s.versions
  | none => []

def owners (store : FlowStore) (key : FlowKey) : List FlowOwner :=
  (store.versions key).map (·.owner)

def size (store : FlowStore) : Nat := store.shared.length

theorem find?_installInto (flow : Flow) (key : FlowKey) (shared : List SharedFlow) :
    (installInto flow shared).find? (·.key = key) =
      if key = flow.key then
        some (((shared.find? (·.key = key)).getD ⟨flow.key, []⟩).install flow)
      else shared.find? (·.key = key) := by
  induction shared with
  | nil => by_cases h : key = flow.key <;> simp [installInto, SharedFlow.install, h, eq_comm]
  | cons s rest ih =>
    simp only [installInto]
    by_cases hs : s.key = flow.key
    · by_cases h : key = flow.key
      · subst h; simp [hs, SharedFlow.install]
      · have : ¬ flow.key = key := fun e => h e.symm
        simp [hs, h, this, SharedFlow.install]
    · by_cases hk : s.key = key
      · have : ¬ key = flow.key := fun e => hs (hk.trans e)
        simp [hk, this]
      · simp [hs, hk, ih]

/-- A flow becomes the latest version of its key in place of its owner's old one; other keys are
left alone. -/
theorem versions_install (store : FlowStore) (flow : Flow) (key : FlowKey) :
    (store.install flow).versions key =
      if key = flow.key then (store.versions key).filter (·.owner ≠ flow.owner) ++ [flow]
      else store.versions key := by
  simp only [versions, install, find?_installInto]
  by_cases h : key = flow.key
  · subst h
    cases hs : store.shared.find? (·.key = flow.key) <;> simp [SharedFlow.install]
  · simp [h]

end FlowStore

inductive SinkFault where
  | rejected (switch : SwitchId) (reason : String)
  | unavailable (reason : String)
  deriving DecidableEq, Repr

def SinkFault.message : SinkFault → String
  | rejected switch reason => s!"switch {switch} rejected the flow batch: {reason}"
  | unavailable reason => s!"flow store unavailable: {reason}"

/-- Where flows go, as the renderer sees it. A call that is refused leaves the destination as it
was; between calls it may be disturbed, as when a connection is lost or found again. -/
class FlowDestination (σ : Type) where
  /-- Take a batch, all or nothing. -/
  commit : σ → List Flow → Except SinkFault σ
  /-- Remove a path's flows; answers the switches that lost one. -/
  deletePath : σ → PathId → Except SinkFault (List SwitchId × σ)
  Disturbance : Type
  disturb : Disturbance → σ → σ

/-- A flow store behind a connection. While there is a fault every call is refused and changes
nothing. -/
structure FlowSink where
  store : FlowStore := {}
  commits : Nat := 0
  fault : Option SinkFault := none
  deriving DecidableEq, Repr

namespace FlowSink

def commit (sink : FlowSink) (batch : List Flow) : Except SinkFault FlowSink :=
  match sink.fault with
  | some fault => .error fault
  | none => .ok { sink with store := sink.store.commit batch, commits := sink.commits + 1 }

/-- Remove a path's flows; answers the switches that lost one. -/
def deletePath (sink : FlowSink) (path : PathId) : Except SinkFault (List SwitchId × FlowSink) :=
  match sink.fault with
  | some fault => .error fault
  | none =>
    .ok (sink.store.switchesHeldBy (.path path),
      { sink with store := sink.store.deleteOwner (.path path) })

instance : FlowDestination FlowSink where
  commit := commit
  deletePath := deletePath
  Disturbance := Option SinkFault
  disturb fault sink := { sink with fault }

end FlowSink
end ServiceChain
