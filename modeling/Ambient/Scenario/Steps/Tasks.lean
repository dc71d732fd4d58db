import Ambient.Scenario.Steps.Snapshots
import Ambient.Scenario.Steps.Values
import Ambient.Task

/-! Steps about bridges and tasks. A task that is being polled has no name; the poll gives
it its name back, however the poll ends. -/

namespace Ambient.Scenario

/-- How a bridge comes about. -/
inductive BridgeSource where
  | captured (registry : Field String) (form : CaptureForm)
  | current
  | snapshot (snapshot : Field String)
  | task (task : Field String)

inductive TaskStep where
  | bridge (name : Field String) (source : Field BridgeSource)
  /-- Resumes a task, and gives the window a name. -/
  | resume (bridge scope : Field String) (site : Field CallSite)
  | suspend (bridge scope : Field String) (site : Field CallSite)
  | make (name : Field String) (bridge : Field (Option String))
      (parts : Field (List (List Document))) (output : Document) (label : Field (Option String))
  | poll (task : Field String)
  | polls (task : Field String)
  | drop (task : Field String)

namespace BridgeSource

def read? (d : Document) : Option BridgeSource := do
  let registry := d.stringOr "reg" "r"
  match ← d.stringOr "by" "new" with
  | "new" => return captured registry (.carrier (d.string? "carrier"))
  | "with" =>
    return captured registry
      (.settled (d.string? "carrier") (d.may "config" SettingsForm.read?))
  | "current" => return current
  | "snapshot" => return snapshot (d.string "snap")
  | "task" => return task (d.string "task")
  | _ => none

end BridgeSource

namespace TaskStep

def parts? (d : Document) : Option (List (List Document)) :=
  d.asList?.bind fun parts => parts.mapM Document.asList?

def ofDocument (kind : String) (d : Document) : Option TaskStep :=
  match kind with
  | "bridge" => some (bridge (d.string "bridge") (BridgeSource.read? d))
  | "resume" => some (resume (d.string "bridge") (d.string "scope") (readSite d))
  | "suspend" => some (suspend (d.string "bridge") (d.string "scope") (readSite d))
  | "task" =>
    some (make (d.string "task") (d.string? "bridge") (d.need "polls" parts?)
      ((d.field? "output").getD .null) (d.string? "label"))
  | "poll" => some (poll (d.string "task"))
  | "polls" => some (polls (d.string "task"))
  | "drop_task" => some (drop (d.string "task"))
  | _ => none

/-- Counts a poll of the inner computation of the task being polled. -/
def begin : Play Unit := alter fun s => { s with
  polled := s.polled.modify 0 fun t => { t with begun := t.begun + 1 } }

/-- Runs the next part of a task's inner computation; the last part makes it ready, and
so does the first poll where there are no parts. -/
def inner (run : Runner) (t : StagedTask) : Play (Progress Document) := do
  begin
  match t.parts[t.begun]? with
  | some part =>
    run part
    return if t.begun + 1 < t.parts.length then .pending else .ready t.output
  | none => if t.begun = 0 then return .ready t.output else Action.panic "polled after completion"

variable (H : Host Stage Note) (run : Runner)

def build : BridgeSource → Run Bridge
  | .captured registry form => do return ⟨← SnapshotStep.take H (← registryOf registry) form⟩
  | .current => do return ← Bridge.current H
  | .snapshot name => do return ⟨← named Stage.snapshots name⟩
  | .task name => do return (← named Stage.tasks name).task.bridge

def shownPoll (polls : UInt64) : Except Failure (Progress Document) → Document
  | .ok .pending => .object [("pending", .nat polls.toNat)]
  | .ok (.ready output) => .object [("ready", output), ("polls", .nat polls.toNat)]
  | .error failure => .object [("failed", shownFailure (some failure)), ("polls", .nat polls.toNat)]

def perform : TaskStep → Run Document
  | bridge name source => do
    let name ← told name
    let b ← build H (← told source)
    alter fun s => { s with bridges := s.bridges.insert name b }
    return shownSnapshot b.snapshot
  | resume name scope site => do
    let b ← named Stage.bridges name
    let scope ← freeScope scope
    let site ← told site
    nameScope scope (← succeeded (← b.resume H site))
  | suspend name scope site => do
    let b ← named Stage.bridges name
    discard (scopeOf scope)
    let site ← told site
    let i ← takeScope scope
    succeeded (← Action.holding b.snapshot.values (Bridge.suspend H site i))
    return .ok
  | make name source parts output label => do
    let name ← told name
    let wrapped ← match ← told source with
      | some b => some <$> named Stage.bridges b
      | none => pure none
    let parts ← told parts
    let label ← told label
    let task ← match wrapped with
      | some b => pure { bridge := b }
      | none => act (Task.propagate H)
    let staged := { task := { task with label }, parts, output }
    alter fun s => { s with tasks := s.tasks.insert name staged }
    return shownSnapshot task.bridge.snapshot
  | poll name => do
    let t ← named Stage.tasks name
    let name ← told name
    let (task, window) := t.task.poll H (inner run t)
    alter fun s => { s with tasks := s.tasks.erase name, polled := { t with task } :: s.polled }
    let progress ← Action.ensuring window
      (alter fun s => { s with
        tasks := s.tasks.assign name s.polled.head?
        polled := s.polled.drop 1 })
    return shownPoll task.polls progress
  | polls name => do return .nat (← named Stage.tasks name).task.polls.toNat
  | drop name => do
    discard (named Stage.tasks name)
    let name ← told name
    alter fun s => { s with tasks := s.tasks.erase name }
    return .ok

end TaskStep

end Ambient.Scenario
