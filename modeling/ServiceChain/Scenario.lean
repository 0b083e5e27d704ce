import ServiceChain.ConfigFile
import ServiceChain.Form.Render

/-! Scenarios: a topology with its placements and the paths to render, and the run that renders
them all, deletes some, and prints what is installed at the end. -/
namespace ServiceChain

structure Scenario where
  topology : Topology
  placements : Placements
  paths : List ServicePath
  deriving DecidableEq, Repr

namespace Scenario

def ofDocument : Document → Document.Decoded Scenario :=
  Document.toFields .yaml ["model", "placements", "paths"] fun f =>
    Scenario.mk <$> f.withDefault "model" (Topology.ofDocument .yaml) .empty
      <*> f.withDefault "placements" (Placements.ofDocument .yaml) .empty
      <*> f.required "paths" (·.toList (ServicePath.ofDocument .yaml))

def ofText? (s : String) : Option Scenario :=
  match (Document.Yaml.parse? s).map ofDocument with
  | some (.ok scenario) => some scenario
  | _ => none

/-- The renderer after a call, and one more failure if the call failed. -/
def count {α : Type} (failures : Nat) (o : Outcome α) : Renderer × Nat :=
  match o.result with
  | .ok _ => (o.renderer, failures)
  | .error _ => (o.renderer, failures + 1)

def renderAll (d : Deployment) (start : Renderer × Nat) (paths : List ServicePath) :
    Renderer × Nat :=
  paths.foldl (fun (r, failures) path => count failures (r.render d path)) start

def deleteAll (paths : List ServicePath) (start : Renderer × Nat) (ids : List PathId) :
    Renderer × Nat :=
  ids.foldl (fun (r, failures) id =>
    match paths.find? (·.id = id) with
    | some path => count failures (r.delete path)
    | none => (r, failures)) start

def run (s : Scenario) (config : Config) (deletes : List PathId) : Renderer × Nat :=
  let d : Deployment := ⟨config, s.topology, s.placements⟩
  deleteAll s.paths (renderAll d (.fresh d, 0) s.paths) deletes

end Scenario

/-- What the command is asked to do: the texts of its files are none where they cannot be read. -/
structure Request where
  scenario : Option String
  /-- Name and text of the configuration file. -/
  config : Option (String × Option String) := none
  /-- Path ids as they were given. -/
  deletes : List String := []

/-- What the command leaves: its exit code and the flows it prints. -/
structure Answer where
  exit : UInt8
  flows : Option (List Flow)

namespace Request

def pathId? (s : String) : Option PathId :=
  ((Text.signedDecimal? s.toList).filter (· < UInt32.size)).map UInt32.ofNat

/-- The configuration asked for; without a file the usual one. -/
def loadConfig (r : Request) : Except LoadError Config :=
  match r.config with
  | some (name, text) => Config.ofFile name text
  | none => .ok {}

/-- Path ids are checked first, then the configuration, then the scenario. Flows are printed even
when calls failed. -/
def answer (r : Request) : Answer :=
  match r.deletes.mapM pathId? with
  | none => ⟨2, none⟩
  | some deletes =>
    match r.loadConfig, r.scenario.bind Scenario.ofText? with
    | .ok config, some scenario =>
      let (renderer, failures) := scenario.run config deletes
      ⟨if failures = 0 then 0 else 1, some renderer.sink.store.flows⟩
    | _, _ => ⟨1, none⟩

end Request
end ServiceChain
