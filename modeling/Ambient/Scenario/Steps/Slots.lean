import Ambient.Scenario.Behaviour
import Ambient.Window

/-! Steps about the slots of the running thread, among them those that watch a value
being released and those on a thread whose slots are gone. -/

namespace Ambient.Scenario

/-- How a slot comes to give a value up. -/
inductive Displacement where
  | set
  | reset
  | close (scope : Field String)
  | drop (scope : Field String)

/-- What is tried on a thread whose slots are gone. -/
inductive LateAction where
  | get | set | reset
  | install (snapshot : Field String)

inductive SlotStep where
  | make (key : Field Key) (e : Expression)
  /-- Reads what a slot's value carries, if it is of a type. -/
  | get (key : Field Key) (type : Field String)
  | put (key : Field Key) (e : Expression)
  | read (key : Field Key)
  | reset (key : Field Key)
  /-- Puts a value into a slot that reads the slot `other` when it is released. -/
  | probe (key other : Field Key) (way : Field Displacement)
  | late (key : Field Key) (action : Field LateAction)

namespace Displacement

def read? (d : Document) : Option Displacement := do
  match ← d.string "by" with
  | "set" => return set
  | "reset" => return reset
  | "close" => return close (d.string "scope")
  | "drop" => return drop (d.string "scope")
  | _ => none

end Displacement

namespace LateAction

def read? (d : Document) : Option LateAction := do
  match ← d.string "action" with
  | "get" => return get
  | "set" => return set
  | "reset" => return reset
  | "install" => return install (d.string "snap")
  | _ => none

end LateAction

namespace SlotStep

def typeName? (d : Document) : Option String := d.asText?.filter literalTypes.contains

def ofDocument (kind : String) (d : Document) : Option SlotStep :=
  match kind with
  | "set" => some (make (d.string "key") (Expression.literal d))
  | "get" => some (get (d.string "key") (d.need "as" typeName?))
  | "set_value" => some (put (d.string "key") (Expression.ofField d "val"))
  | "get_value" => some (read (d.string "key"))
  | "reset" => some (reset (d.string "key"))
  | "release_probe" =>
    some (probe (d.string "key") (d.string "other") (Displacement.read? d))
  | "destroyed" => some (late (d.string "key") (LateAction.read? d))
  | _ => none

/-- The text a value carries, if it is of a type. -/
def textAs (type : String) (v : Option Value) : Document :=
  let text := v.bind fun v => v.payload.reading?.bind fun r =>
    if r.1 = type then some r.2 else none
  .ofText? text

variable (H : Host Stage Note)

/-- What makes a slot give its value up, and answers the failure of a window that is closed.
A window that is not there is found out before anything is done. -/
def displacement (key : Key) : Displacement → Run (Play (Option Failure))
  | .set => return do
    let v ← makeValue (.string "displacing")
    discard (Slot.write H key (some v))
    return none
  | .reset => return do
    discard (Slot.write H key none)
    return none
  | .close scope => do
    let i ← takeScope scope
    return do
      match ← Window.close H i with
      | .ok () => return none
      | .error failure => return some failure
  | .drop scope => do
    let i ← takeScope scope
    return do
      Window.drop H i
      return none

/-- What a value read when it was released, if it was. -/
def readingsOf (id : Identity) : List (Event Note) → Option (List (Key × Option Value))
  | [] => none
  | .released v readings :: rest => if v.id = id then some readings else readingsOf id rest
  | _ :: rest => readingsOf id rest

/-- Runs `m` on a thread of its own whose slots are gone. -/
def onExitingThread {α : Type} (m : Play α) : Play α := do
  let name := "exiting"
  let before ← Action.inspect fun p => p.threads.get? name
  Action.change fun p => { p with threads := p.threads.insert name { storage := .destroyed } }
  Action.ensuring (Action.onThread name m)
    (Action.change fun p => { p with threads := p.threads.assign name before })

/-- Does what is tried on a thread whose slots are gone. -/
def tryLate (key : Key) : LateAction → Run (Except Failure Document)
  | .get => do return .ok (shown (← onExitingThread (Slot.read key)))
  | .set => do
    let v ← makeStranger (.integer .u8 1)
    return (← onExitingThread (Slot.write H key (some v))).map fun _ => .ok
  | .reset => do return (← onExitingThread (Slot.write H key none)).map fun _ => .ok
  | .install name => do
    let s ← named Stage.snapshots name
    onExitingThread do
      match ← s.install H with
      | .error failure => return .error failure
      | .ok i => return (← Window.close H i).map fun _ => .ok

def perform : SlotStep → Run Document
  | make key e => do
    let key ← told key
    let v ← e.demand
    succeeded (← Slot.write H key (some v))
    return shown (some v)
  | get key type => do
    let key ← told key
    let type ← told type
    return textAs type (← act (readSlot key))
  | put key e => do
    let key ← told key
    let v ← e.demand
    succeeded (← Slot.write H key (some v))
    return .ok
  | read key => do
    let key ← told key
    return shown (← act (readSlot key))
  | reset key => do
    let key ← told key
    act useSlots
    succeeded (← Slot.write H key none)
    return .ok
  | probe key other way => do
    let key ← told key
    let other ← told other
    let displace ← displacement H key (← told way)
    let v ← makeStranger (.watcher [other])
    act (Action.change fun p => { p with watchers := p.watchers ++ [v] })
    discard (Slot.write H key (some v))
    let closed ← act displace
    act (Action.change (Process.sweep H))
    let seen ← act (Action.inspect fun p => readingsOf v.id p.history)
    if seen.isNone then discard (Slot.write H key none)
    return .object [
      ("seen", (seen.map fun r => shown (r.findSome? (·.2))).getD (.text "kept")),
      ("closed", shownFailure closed)]
  | late key action => do
    let key ← told key
    match ← tryLate H key (← told action) with
    | .ok answer => return answer
    | .error failure => return shownFailure (some failure)

end SlotStep

end Ambient.Scenario
