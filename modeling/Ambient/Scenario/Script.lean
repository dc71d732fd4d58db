import Ambient.Scenario.Expression
import Ambient.Failure

/-! Scripts for accessors. A scripted accessor keeps its value in a cell of the running
thread and follows a script: how it reads, which of its writes fail or panic, and which
steps it runs on the way. -/

namespace Ambient.Scenario

/-- The calls that something happens at, counted from zero. -/
inductive Trigger where
  | among (calls : List Nat)
  | since (call : Nat)
  deriving DecidableEq, Repr

namespace Trigger

def hits (n : Nat) : Trigger → Bool
  | among calls => calls.contains n
  | since call => decide (call ≤ n)

def read? (d : Document) : Option Trigger :=
  match d.asNat?, d.asNats? with
  | some n, _ => some (since n)
  | none, some calls => some (among calls)
  | none, none => none

end Trigger

/-- The causes that a scripted failure can give. -/
inductive Complaint where
  | accessor | unknownKey | setting
  deriving DecidableEq, Repr

namespace Complaint

def read? (d : Document) : Option Complaint :=
  match d with
  | .text "accessor" => some accessor
  | .text "unknown" => some unknownKey
  | .text "config" => some setting
  | _ => none

def failure (c : Complaint) (key : Key) (message : String) : Failure :=
  match c with
  | accessor => .accessor key message
  | unknownKey => .unknownKey key
  | setting => .setting key message "scripted"

end Complaint

/-- How writing, or clearing, goes. -/
structure Mode where
  fail : Trigger := .among []
  panic : Trigger := .among []
  message : Option String := none
  complaint : Complaint := .accessor
  /-- The key that a failure names, if not the accessor's. -/
  errorKey : Option Key := none
  /-- Whether calls that fail change the cell all the same. -/
  apply : Bool := false
  /-- Whether no call changes the cell. -/
  ignore : Bool := false
  deriving DecidableEq, Repr

namespace Mode

def read? (d : Document) : Option Mode := do
  let d ← d.asObject?
  return {
    fail := (← d.may "fail" Trigger.read?).getD (.among [])
    panic := (← d.may "panic" Trigger.read?).getD (.among [])
    message := ← d.string? "msg"
    complaint := (← d.may "err" Complaint.read?).getD .accessor
    errorKey := ← d.string? "err_key"
    apply := ← d.flag "apply"
    ignore := ← d.flag "ignore" }

end Mode

inductive Getter where
  | cell
  | absent
  | panicking
  | computed (e : Expression)
  deriving DecidableEq, Repr

namespace Getter

/-- Reads a getter; what tells no other one is the cell. -/
def read (d : Document) : Getter :=
  match d with
  | .text "none" => absent
  | .text "panic" => panicking
  | .object fields => computed (Expression.read (.object fields))
  | _ => cell

end Getter

structure Script where
  key : Key
  cell : String
  getter : Getter := .cell
  set : Mode := {}
  reset : Mode := {}
  /-- The only type of payload that is accepted, if there is one. -/
  only : Option String := none
  onGet : Option (List Document) := none
  onSet : Option (List Document) := none
  onReset : Option (List Document) := none
  /-- How many writes have got as far as the mode. -/
  sets : Nat := 0
  /-- How many clearings have got as far as the mode. -/
  resets : Nat := 0

namespace Script

def read? (d : Document) : Option Script := do
  let key ← d.string "key"
  return {
    key
    cell := ← d.stringOr "cell" key
    getter := ((d.field? "get").map Getter.read).getD .cell
    set := (← d.may "set" Mode.read?).getD {}
    reset := (← d.may "reset" Mode.read?).getD {}
    only := ← d.string? "only"
    onGet := ← d.may "on_get" Document.asList?
    onSet := ← d.may "on_set" Document.asList?
    onReset := ← d.may "on_reset" Document.asList? }

end Script

/-- What a step says about an accessor. -/
inductive AccessorForm where
  | slot (key : Key)
  | scripted (script : Script)

namespace AccessorForm

def read? (d : Document) : Option AccessorForm := do
  match ← d.string "kind" with
  | "slot" => return slot (← d.string "key")
  | "fn" => return scripted (← Script.read? d)
  | _ => none

end AccessorForm

end Ambient.Scenario
