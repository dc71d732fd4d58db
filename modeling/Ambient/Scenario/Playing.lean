import Ambient.Scenario.Steps.Accessors
import Ambient.Scenario.Steps.Carriers
import Ambient.Scenario.Steps.Control
import Ambient.Scenario.Steps.Tasks

/-! Playing a scenario. Every step leaves a record: how it ended, the records of the steps
it ran, what happened meanwhile outside those, and the slots that are watched. A panic is
recorded at each step that it leaves; it ends the bodies around it, but not the scenario. -/

namespace Ambient.Scenario

inductive Step where
  | value (step : ValueStep)
  | settings (step : SettingsStep)
  | slot (step : SlotStep)
  | accessor (step : AccessorStep)
  | carrier (step : CarrierStep)
  | snapshot (step : SnapshotStep)
  | task (step : TaskStep)
  | control (step : ControlStep)

namespace Step

def ofDocument (d : Document) : Option Step := do
  let kind ← d.string "do"
  (value <$> ValueStep.ofDocument kind d) <|> (settings <$> SettingsStep.ofDocument kind d) <|>
    (slot <$> SlotStep.ofDocument kind d) <|> (accessor <$> AccessorStep.ofDocument kind d) <|>
    (carrier <$> CarrierStep.ofDocument kind d) <|>
    (snapshot <$> SnapshotStep.ofDocument kind d) <|> (task <$> TaskStep.ofDocument kind d) <|>
    (control <$> ControlStep.ofDocument kind d)

/-- Does what a step says; bodies are run by `run`. -/
def perform (run : Runner) : Step → Run Document
  | value step => step.perform
  | settings step => step.perform
  | slot step => step.perform (host run)
  | accessor step => step.perform (host run)
  | carrier step => step.perform
  | snapshot step => step.perform (host run)
  | task step => step.perform (host run) run
  | control step => step.perform (host run) run

end Step

/-! ### Records -/

/-- How an event shows, if it does. -/
def shownEvent (logs : Bool) : Event Note → Option Document
  | .logged e => if logs then some (.text e.render) else none
  | .noted (.said text) => some (.text text)
  | .noted (.ran hook records) => some (.object [(hook, .list records)])
  | _ => none

/-- The events of the step that is ending, first to last: those since it began, without
those of the steps inside it. `depth` counts the steps inside that are being passed over,
`later` is what was found already. -/
def ownEvents : Nat → List (Event Note) → List (Event Note) → List (Event Note)
  | _, [], later => later
  | depth, .noted .ended :: rest, later => ownEvents (depth + 1) rest later
  | 0, .noted .began :: _, later => later
  | depth + 1, .noted .began :: rest, later => ownEvents depth rest later
  | 0, e :: rest, later => ownEvents 0 rest (e :: later)
  | depth + 1, _ :: rest, later => ownEvents (depth + 1) rest later

/-- The fields that tell how a step ended. -/
def outcome : Exit (Except Halt Document) → List (String × Document)
  | .returned (.ok answer) => [("r", answer)]
  | .returned (.error .missing) => [("error", .text "BadRef")]
  | .returned (.error .malformed) => [("error", .text "BadInput")]
  | .returned (.error (.failed failure)) => failureFields failure
  | .panicked text => [("panic", .text text)]

/-- A field that is left out where its list is empty. -/
def unlessEmpty (name : String) (items : List Document) : List (String × Document) :=
  if items.isEmpty then [] else [(name, .list items)]

/-- The watched slots of the running thread. -/
def watched : Play (List (String × Document)) := do
  let watch ← view Stage.watch
  if watch.isEmpty then return []
  let slots ← watch.mapM fun k => do return (k, shown (← readSlot k))
  return [("s", .object (Table.ofList slots).bindings)]

/-! ### Bodies -/

/-- Does what a step says, if it is one. -/
def perform (run : Runner) (d : Document) : Run Document := do
  (← told (Step.ofDocument d)).perform run

/-- Plays one step and adds its record to the stage; bodies are run by `run`. -/
def playStep (run : Runner) (d : Document) : Play Unit := do
  let outer ← view Stage.records
  alter fun s => { s with records := [] }
  note .began
  let exit ← Action.attempt (perform run d).play
  Action.change (Process.sweep (host run))
  let events := ownEvents 0 (← Action.inspect Process.history) []
  note .ended
  let body ← view Stage.records
  let logs ← view Stage.logs
  let fields := outcome exit ++ unlessEmpty "body" body.reverse ++
    unlessEmpty "ev" (events.filterMap (shownEvent logs)) ++ (← watched)
  alter fun s => { s with records := .object fields :: outer }
  if let .panicked text := exit then Action.panic text

/-- Plays the steps of a body, nested in one another no deeper than `depth`. -/
def playBody : Nat → Runner
  | 0, _ => Action.panic "steps are nested too deep"
  | depth + 1, steps => steps.forM (playStep (playBody depth))

/-- How deep steps may be nested. -/
def depthLimit : Nat := 1000

/-- Plays steps that are not inside another one: a panic ends only the step it leaves. -/
def playAll : List Document → Play Unit
  | [] => pure ()
  | d :: rest => do
    discard (Action.attempt (playBody depthLimit [d]))
    playAll rest

/-! ### Scenarios -/

/-- The state in which a scenario begins: one thread, the registry of the process, and a
registry that goes by the name `r`. -/
def opening (watch : List Key) (logs : Bool) : Process Stage Note where
  here := "main"
  threads := Table.empty.insert "main" {}
  registries := [.empty, .empty]
  host := { registries := Table.empty.insert "r" 1, watch, logs }

/-- The records of a scenario's steps. -/
def play (steps : List Document) (watch : List Key) (logs : Bool) : List Document :=
  (playAll steps (opening watch logs)).2.host.records.reverse

def answer (d : Document) : Document :=
  match d.items "steps" with
  | none => .object [("error", .text "BadInput")]
  | some steps =>
    let watch := ((d.items "watch").getD []).filterMap Document.asText?
    .object [("steps", .list (play steps watch ((d.flag "log").getD false)))]

end Ambient.Scenario
