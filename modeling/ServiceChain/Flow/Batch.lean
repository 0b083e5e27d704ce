import ServiceChain.Flow.Store

/-! Batches: flows collected for one commit, stamped with the owner that is set at the time. -/
namespace ServiceChain

structure FlowBatch where
  tables : TableNumbers
  owner : FlowOwner := .unowned
  flows : List Flow := []
  deriving DecidableEq, Repr

namespace FlowBatch

def withOwner (b : FlowBatch) (owner : FlowOwner) : FlowBatch := { b with owner := owner }

def stage (b : FlowBatch) (switch : SwitchId) (template : FlowTemplate) : FlowBatch :=
  { b with flows := b.flows ++ [template.on b.tables b.owner switch] }

def stageAll (b : FlowBatch) (switch : SwitchId) (templates : List FlowTemplate) : FlowBatch :=
  templates.foldl (fun b template => b.stage switch template) b

theorem stageAll_flows (b : FlowBatch) (switch : SwitchId) (templates : List FlowTemplate) :
    b.stageAll switch templates =
      { b with flows := b.flows ++ templates.map (·.on b.tables b.owner switch) } := by
  induction templates generalizing b with
  | nil => simp [stageAll]
  | cons template rest ih =>
    have : b.stageAll switch (template :: rest) =
      (b.stage switch template).stageAll switch rest := rfl
    rw [this, ih]
    simp [stage]

def size (b : FlowBatch) : Nat := b.flows.length

/-- What became of a batch: what the sink was asked to take, if it was asked, and its answer. -/
structure Offer (σ : Type) where
  asked : Option (List Flow)
  answer : Except SinkFault σ

/-- Offer everything staged; an empty batch does not reach the sink. -/
def offer {σ : Type} [FlowDestination σ] (b : FlowBatch) (sink : σ) : Offer σ :=
  if b.flows.isEmpty then ⟨none, .ok sink⟩
  else ⟨some b.flows, FlowDestination.commit sink b.flows⟩

def flush {σ : Type} [FlowDestination σ] (b : FlowBatch) (sink : σ) : Except SinkFault σ :=
  (b.offer sink).answer

theorem flush_eq {σ : Type} [FlowDestination σ] (b : FlowBatch) (sink : σ) :
    b.flush sink = if b.flows.isEmpty then .ok sink else FlowDestination.commit sink b.flows := by
  unfold flush offer
  split <;> rfl

end FlowBatch
end ServiceChain
