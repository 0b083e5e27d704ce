import ServiceChain.Scenario

/-! The command line: it reads the files, answers the request, and prints the flows. -/
namespace ServiceChain

/-- The options of the command as far as they were read. -/
structure Options where
  scenario : Option String := none
  config : Option String := none
  deletes : List String := []
  logLevel : Option String := none
  jsonLogs : Bool := false

/-- Read the options after the command's name; none where one is unknown, repeated or lacks its
value. -/
def Options.read? : Options → List String → Option Options
  | o, [] => some o
  | o, "--json-logs" :: rest =>
    if o.jsonLogs then none else Options.read? { o with jsonLogs := true } rest
  | o, name :: value :: rest =>
    if name ∈ ["--scenario", "-s"] ∧ o.scenario.isNone then
      Options.read? { o with scenario := some value } rest
    else if name ∈ ["--config", "-c"] ∧ o.config.isNone then
      Options.read? { o with config := some value } rest
    else if name = "--delete" then
      Options.read? { o with deletes := o.deletes ++ [value] } rest
    else if name ∈ ["--log-level", "-l"] ∧ o.logLevel.isNone then
      Options.read? { o with logLevel := some value } rest
    else none
  | _, [_] => none

def readText (path : String) : IO (Option String) := do
  try
    return some (← IO.FS.readFile path)
  catch _ =>
    return none

def splitOption (arg : String) : List String :=
  let name := arg.toList.takeWhile (· ≠ '=')
  if "--".isPrefixOf arg ∧ name.length < arg.length then
    [String.ofList name, String.ofList (arg.toList.drop (name.length + 1))]
  else [arg]

def usage : String :=
  "usage: render --scenario FILE [--config FILE] [--delete PATH_ID]..."
    ++ " [--log-level LEVEL] [--json-logs]"

def runCommand (o : Options) (scenario : String) : IO UInt32 := do
  let scenarioText ← readText scenario
  let config ← o.config.mapM fun name => do return (name, ← readText name)
  let answer := Request.answer ⟨scenarioText, config, o.deletes⟩
  if let some flows := answer.flows then
    IO.println (Document.Json.pretty 0 (.ofList Flow.toDocument flows))
  return answer.exit.toUInt32

end ServiceChain

def main (args : List String) : IO UInt32 := do
  match args with
  | "render" :: rest =>
    match ServiceChain.Options.read? {} (rest.flatMap ServiceChain.splitOption) with
    | some options =>
      match options.scenario with
      | some scenario => ServiceChain.runCommand options scenario
      | none =>
        IO.eprintln ServiceChain.usage
        return 2
    | none =>
      IO.eprintln ServiceChain.usage
      return 2
  | _ =>
    IO.eprintln ServiceChain.usage
    return 2
