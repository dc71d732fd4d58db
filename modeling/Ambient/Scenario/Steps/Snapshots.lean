import Ambient.Scenario.Steps.Settings
import Ambient.Window

/-! Steps that capture snapshots, install them, and end the windows so opened. -/

namespace Ambient.Scenario

/-- How a snapshot is captured. -/
inductive CaptureForm where
  | thread
  /-- From a carrier, if one is named. -/
  | carrier (carrier : Field (Option String))
  | settled (carrier : Field (Option String)) (form : Field (Option SettingsForm))

inductive SnapshotStep where
  | capture (name registry : Field String) (form : Field CaptureForm)
  | get (snapshot : Field String) (key : Field Key)
  | info (snapshot : Field String)
  /-- Installs a snapshot, and gives the window a name. -/
  | install (snapshot scope : Field String)
  | close (scope : Field String)
  | drop (scope : Field String)
  | prior (scope : Field String) (key : Field Key)
  | priors (scope : Field String)
  | snapshotOf (scope name : Field String)

namespace CaptureForm

def read? (d : Document) : Option CaptureForm := do
  match ← d.stringOr "by" "capture" with
  | "capture" => return thread
  | "from" => return carrier (d.string? "carrier")
  | "with" => return settled (d.string? "carrier") (d.may "config" SettingsForm.read?)
  | _ => none

end CaptureForm

namespace SnapshotStep

def ofDocument (kind : String) (d : Document) : Option SnapshotStep :=
  match kind with
  | "capture" => some (capture (d.string "snap") (d.stringOr "reg" "r") (CaptureForm.read? d))
  | "snap_get" => some (get (d.string "snap") (d.string "key"))
  | "snap_info" => some (info (d.string "snap"))
  | "install" => some (install (d.string "snap") (d.string "scope"))
  | "close" => some (close (d.string "scope"))
  | "drop" => some (drop (d.string "scope"))
  | "prior" => some (prior (d.string "scope") (d.string "key"))
  | "priors" => some (priors (d.string "scope"))
  | "scope_snap" => some (snapshotOf (d.string "scope") (d.string "snap"))
  | _ => none

/-- A named carrier, where one is named. -/
def carrierOf (name : Field (Option String)) : Run (Option Carrier) := do
  match ← told name with
  | none => return none
  | some name => return some (← named Stage.carriers name)

variable (H : Host Stage Note)

/-- Captures a snapshot of a registry's keys; what the carrier holds stays alive meanwhile. -/
def takeFrom (r : RegistryId) (c : Option Carrier) (settings : Settings) : Play Snapshot :=
  Action.holding ((c.map Table.values).getD []) (Snapshot.capture H r c settings)

/-- Captures a snapshot of a registry's keys as a step tells. -/
def take (r : RegistryId) : CaptureForm → Run Snapshot
  | .thread => act (takeFrom H r none {})
  | .carrier name => do
    let c ← carrierOf name
    takeFrom H r c {}
  | .settled name form => do
    let c ← carrierOf name
    let settings ← match ← told form with
      | none => pure {}
      | some form => form.settled
    takeFrom H r c settings

def perform : SnapshotStep → Run Document
  | capture name registry form => do
    let name ← told name
    let r ← registryOf registry
    let s ← take H r (← told form)
    alter fun stage => { stage with snapshots := stage.snapshots.insert name s }
    return shownSnapshot s
  | get name key => do
    let s ← named Stage.snapshots name
    let captured := s.get? (← told key)
    return .object [("has", .bool (s.contains (← told key))), ("captured", .bool captured.isSome),
      ("val", shown captured.join)]
  | info name => do
    let s ← named Stage.snapshots name
    return .object [("len", .nat s.size), ("empty", .bool s.isEmpty),
      ("entries", shownSnapshot s)]
  | install name scope => do
    let s ← named Stage.snapshots name
    let scope ← freeScope scope
    nameScope scope (← succeeded (← s.install H))
  | close scope => do
    succeeded (← Window.close H (← takeScope scope))
    return .ok
  | drop scope => do
    Window.drop H (← takeScope scope)
    return .ok
  | prior scope key => do
    let prior := (← windowOf scope).prior? (← told key)
    return .object [("in", .bool prior.isSome), ("val", shown prior.join)]
  | priors scope => do return shownEntries (← windowOf scope).priors
  | snapshotOf scope name => do
    let s := (← windowOf scope).snapshot
    let name ← told name
    alter fun stage => { stage with snapshots := stage.snapshots.insert name s }
    return shownSnapshot s

end SnapshotStep

end Ambient.Scenario
