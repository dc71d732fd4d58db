import Ambient.Scenario.Stage

/-! What scripted accessors do when they are called. Each call is noted, then the steps
the script has for it run, and then the cell is read or the mode decides what becomes of
the write. -/

namespace Ambient.Scenario

/-- Runs the steps of a body, one after another, and adds their records to the stage. -/
abbrev Runner : Type := List Document → Play Unit

/-- Runs the steps that a scripted accessor has for a call, if it has a list of them, which
may be empty. Their records go into a note. -/
def runHook (run : Runner) (hook : String) (steps : Option (List Document)) : Play Unit := do
  if let some steps := steps then
    let outer ← view Stage.records
    alter fun s => { s with records := [] }
    Action.ensuring (run steps) do
      let records ← view Stage.records
      alter fun s => { s with records := outer }
      note (.ran hook records.reverse)

namespace Script

def look (ref : Nat) : Play Script := do
  return (← view fun s => s.scripts[ref]?).getD { key := "", cell := "" }

/-- Adds a script, and answers the accessor that follows it. -/
def add (script : Script) : Play Accessor := do
  let ref ← view fun s => s.scripts.length
  alter fun s => { s with scripts := s.scripts ++ [script] }
  return .custom script.key ref

def change (ref : Nat) (f : Script → Script) : Play Unit :=
  alter fun s => { s with scripts := s.scripts.modify ref f }

def read (run : Runner) (ref : Nat) : Play (Option Value) := do
  let script ← look ref
  let value ← match script.getter with
    | .cell => readCell script.cell
    | .absent => pure none
    | .panicking => do
      note (.said ("get " ++ script.key ++ " panic"))
      Action.panic ("getter of " ++ script.key ++ " panicked")
    | .computed e => (fun v => v.toOption.join) <$> e.evaluate.play
  note (.said ("get " ++ script.key ++ " -> " ++ (value.map Value.render).getD "none"))
  Action.holding value.toList (runHook run "on_get" script.onGet)
  return value

/-- What a mode makes of its `n`-th call. A call whose value was rejected fails; one that
does not fail, or applies all the same, changes the cell as `content` says. -/
def settle (script : Script) (mode : Mode) (n : Nat) (rejected : Bool)
    (content : Option Value) : Play (Except Failure Unit) := do
  if mode.panic.hits n then Action.panic (mode.message.getD "accessor panicked")
  let failed := rejected || mode.fail.hits n
  if (!failed || mode.apply) && !mode.ignore then writeCell script.cell content
  if failed then
    let message := mode.message.getD (if rejected then "wrong type" else "write failed")
    return .error (mode.complaint.failure (mode.errorKey.getD script.key) message)
  else return .ok ()

def write (run : Runner) (ref : Nat) (v : Value) : Play (Except Failure Unit) := do
  let script ← look ref
  note (.said ("set " ++ script.key ++ " " ++ v.render))
  Action.holding [v] do
    runHook run "on_set" script.onSet
    let n := (← look ref).sets
    change ref fun s => { s with sets := n + 1 }
    script.settle script.set n (script.only.any (· != v.payload.typeName)) (some v)

def clear (run : Runner) (ref : Nat) : Play (Except Failure Unit) := do
  let script ← look ref
  note (.said ("reset " ++ script.key))
  runHook run "on_reset" script.onReset
  let n := (← look ref).resets
  change ref fun s => { s with resets := n + 1 }
  script.settle script.reset n false none

end Script

/-- The embedding program that a scenario is; its scripted accessors run their steps by
`run`. -/
def host (run : Runner) : Host Stage Note where
  behaviour ref :=
    { read := Script.read run ref, write := Script.write run ref, clear := Script.clear run ref }
  holds := Stage.holds

def AccessorForm.make : AccessorForm → Play Accessor
  | slot key => pure (.slot key)
  | scripted script => script.add

end Ambient.Scenario
