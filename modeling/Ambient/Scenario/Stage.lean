import Ambient.Scenario.Script
import Ambient.Task

/-! The stage on which a scenario plays: everything that its steps have given a name,
the scripted accessors and their cells, and the records written so far. Names of windows
belong to the thread that opened them, all other names to all threads. -/

namespace Ambient.Scenario

inductive Note where
  | began
  | ended
  | said (text : String)
  /-- A scripted accessor ran steps of its own. -/
  | ran (hook : String) (records : List Document)

/-- A body wrapped to run inside a snapshot, once. -/
structure Wrapped where
  snapshot : Snapshot
  body : List Document
  output : Document

/-- A task and its inner computation, which runs one part at each poll. -/
structure StagedTask where
  task : Task
  parts : List (List Document)
  output : Document
  begun : Nat := 0

/-- The cells of the scripted accessors on one thread. -/
structure Cells where
  contents : Table Value := .empty
  /-- Whether they came into use when the thread's slots were in use already. A thread that
  ends gives up first what came into use last. -/
  afterSlots : Bool

/-- What a scenario keeps. -/
structure Stage where
  registries : Table RegistryId := .empty
  values : Table Value := .empty
  carriers : Table Carrier := .empty
  snapshots : Table Snapshot := .empty
  bridges : Table Bridge := .empty
  accessors : Table Accessor := .empty
  settings : Table Settings := .empty
  functions : Table Wrapped := .empty
  tasks : Table StagedTask := .empty
  /-- The tasks that are being polled, the innermost first; they have no name meanwhile. -/
  polled : List StagedTask := []
  scripts : List Script := []
  cells : Table Cells := .empty
  /-- The threads whose slots were looked at, be they empty. -/
  slotUsers : List ThreadName := []
  /-- The open windows that have a name, the oldest first, by thread. -/
  scopes : Table (List (String × Nat)) := .empty
  made : Nat := 0
  strangers : Nat := 0
  /-- The records of the steps of the body that is running, the latest first. -/
  records : List Document := []
  /-- The slots whose content every record shows. -/
  watch : List Key := []
  logs : Bool := false

namespace Stage

/-- Whether something on the stage keeps the value of identity `i` alive. -/
def holds (i : Identity) (s : Stage) : Bool :=
  let keeps (p : Snapshot) := p.entries.any (Entry.mentions i)
  s.values.values.any (Value.mentions i) ||
    s.carriers.values.any (fun c => c.values.any (Value.mentions i)) ||
    s.snapshots.values.any keeps ||
    s.bridges.values.any (fun b => keeps b.snapshot) ||
    s.functions.values.any (fun f => keeps f.snapshot) ||
    (s.tasks.values ++ s.polled).any (fun t => keeps t.task.bridge.snapshot) ||
    s.cells.values.any (fun c => c.contents.values.any (Value.mentions i))

/-- The named windows of a thread, the oldest first. -/
def scopesOf (s : Stage) (thread : ThreadName) : List (String × Nat) :=
  (s.scopes.get? thread).getD []

end Stage

/-! ### Running steps -/

/-- Why a step answers nothing. -/
inductive Halt where
  | missing
  /-- It is no step, or misses something. -/
  | malformed
  | failed (failure : Failure)

abbrev Play : Type → Type := Action Stage Note

/-- Actions on the stage that may answer nothing. -/
structure Run (α : Type) where
  play : Play (Except Halt α)

variable {α : Type}

instance : Monad Run where
  pure a := ⟨pure (.ok a)⟩
  bind m f := ⟨do
    match ← m.play with
    | .ok a => (f a).play
    | .error halt => return .error halt⟩

def act (m : Play α) : Run α := ⟨do return .ok (← m)⟩

instance : MonadLift Play Run := ⟨act⟩

def halt (h : Halt) : Run α := ⟨return .error h⟩

def view (f : Stage → α) : Play α := Action.inspect fun p => f p.host

def alter (f : Stage → Stage) : Play Unit := Action.change fun p => { p with host := f p.host }

def here : Play ThreadName := Action.inspect Process.here

def note (n : Note) : Play Unit := Action.record (.noted n)

def present : Option α → Run α
  | some a => pure a
  | none => halt .missing

/-- What a field says, now that its turn has come. -/
def told : Field α → Run α
  | some a => pure a
  | none => halt .malformed

def succeeded : Except Failure α → Run α
  | .ok a => pure a
  | .error failure => halt (.failed failure)

/-- What a name stands for among the things that `among` selects. -/
def named (among : Stage → Table α) (name : Field String) : Run α := do
  let name ← told name
  present (← view fun s => (among s).get? name)

/-- The number of a named registry; two names stand for the registry of the process and
for the one in force. -/
def registryOf (name : Field String) : Run RegistryId := do
  match ← told name with
  | "global" => return processWide
  | "current" => act Registry.current
  | name => named Stage.registries name

def scopes : Play (List (String × Nat)) := do
  let thread ← here
  view fun s => s.scopesOf thread

def changeScopes (f : List (String × Nat) → List (String × Nat)) : Play Unit := do
  let thread ← here
  alter fun s => { s with scopes := s.scopes.insert thread (f (s.scopesOf thread)) }

def scopeOf (name : Field String) : Run Nat := do
  let name ← told name
  present ((← scopes).lookup name)

/-- The number of a named window of the running thread, which loses its name. -/
def takeScope (name : Field String) : Run Nat := do
  let i ← scopeOf name
  let name ← told name
  changeScopes (·.eraseP fun scope => scope.1 = name)
  return i

def freeScope (name : Field String) : Run String := do
  let name ← told name
  if ((← scopes).lookup name).isSome then halt .missing else return name

def windowOf (name : Field String) : Run Window := do
  present (← act (Window.look (← scopeOf name)))

/-! ### Slots and cells -/

/-- Notes that the slots of the running thread are in use, be they empty. -/
def useSlots : Play Unit := do
  let thread ← here
  alter fun s => { s with slotUsers := s.slotUsers.insert thread }

def slotsInUse : Play Bool := do
  let thread ← here
  let storage ← Action.inspect fun p => p.current.storage
  let noted ← view fun s => s.slotUsers.contains thread
  match storage with
  | .live slots => return noted || !slots.isEmpty
  | .destroyed => return noted

def readSlot (key : Key) : Play (Option Value) := do
  useSlots
  Slot.read key

/-- Changes the cells of the running thread, which come into use now if they were not
before. -/
def changeCells (f : Table Value → Table Value) : Play Unit := do
  let thread ← here
  let afterSlots ← slotsInUse
  alter fun s =>
    let cells := (s.cells.get? thread).getD { afterSlots }
    { s with cells := s.cells.insert thread { cells with contents := f cells.contents } }

def readCell (cell : String) : Play (Option Value) := do
  changeCells id
  let thread ← here
  view fun s => (s.cells.get? thread).bind fun cells => cells.contents.get? cell

def writeCell (cell : String) (content : Option Value) : Play Unit :=
  changeCells (·.assign cell content)

/-! ### What steps answer -/

def shown (v : Option Value) : Document := .ofText? (v.map Value.render)

def shownEntries (entries : List Entry) : Document :=
  .list (entries.map fun e => .list [.text e.key, shown e.value])

/-- Gives a window that was opened just now a name, and tells what it displaced. Where steps
that ran meanwhile gave another window that name, the older one goes by it first. -/
def nameScope (name : String) (i : Nat) : Run Document := do
  changeScopes (· ++ [(name, i)])
  return shownEntries (← present (← act (Window.look i))).priors

def shownSnapshot (s : Snapshot) : Document := shownEntries s.entries

def shownCarrier (c : Carrier) : Document :=
  .list (c.bindings.map fun b => .list [.text b.1, .text b.2.render])

def causeName : Failure → String
  | .accessor _ _ => "Accessor"
  | .unknownKey _ => "UnknownKey"
  | .setting _ _ _ => "Config"

def failureFields (failure : Failure) : List (String × Document) :=
  [("error", .text (causeName failure)), ("message", .text failure.message),
    ("key", .ofText? failure.key?)]

def shownFailure : Option Failure → Document
  | none => .null
  | some failure => .object (failureFields failure)

/-! ### Values -/

def makeValue (payload : Payload) : Play Value := do
  let n ← view Stage.made
  alter fun s => { s with made := n + 1 }
  return ⟨.numbered n, payload⟩

/-- Takes a value from elsewhere, which has no number. -/
def makeStranger (payload : Payload) : Play Value := do
  let n ← view Stage.strangers
  alter fun s => { s with strangers := n + 1 }
  return ⟨.foreign n, payload⟩

namespace Expression

def evaluate : Expression → Run (Option Value)
  | fresh payload => do return some (← makeValue payload)
  | wrapping inner => do
    let v ← present (← inner.evaluate)
    return some (← makeValue (.value v.id v.payload))
  | named name => do return some (← Scenario.named Stage.values name)
  | slot key => act (readSlot key)
  | captured snapshot key => do
    let s ← Scenario.named Stage.snapshots snapshot
    return (s.get? (← told key)).join
  | carried carrier key => do
    let c ← Scenario.named Stage.carriers carrier
    return c.get? (← told key)
  | prior scope key => do
    let win ← windowOf scope
    return (win.prior? (← told key)).join
  | absent => return none
  | unreadable => halt .malformed

def demand (e : Expression) : Run Value := do present (← e.evaluate)

end Expression

end Ambient.Scenario
