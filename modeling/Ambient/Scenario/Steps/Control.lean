import Ambient.Scenario.Behaviour
import Ambient.Window

/-! Steps that run other steps: inside snapshots and registries, on other threads, and
with their panics caught. -/

namespace Ambient.Scenario

abbrev Body : Type := List Document

inductive ControlStep where
  | within (snapshot : Field String) (body : Field Body)
  | wrap (snapshot name : Field String) (body : Field Body) (output : Document)
  | call (function : Field String)
  | withRegistry (registry : Field String) (body : Field Body)
  /-- Runs a body with a fresh registry in force, which may get a name. -/
  | withFresh (name : Field (Option String)) (body : Field Body)
  | thread (name : Field String) (body : Field Body)
  | endThread (name : Field String)
  | catching (body : Field Body)
  | panic (text : Field String)

namespace ControlStep

def ofDocument (kind : String) (d : Document) : Option ControlStep :=
  let body := d.items "body"
  match kind with
  | "scoped" => some (within (d.string "snap") body)
  | "wrap" =>
    some (wrap (d.string "snap") (d.string "fn") body ((d.field? "output").getD .null))
  | "call" => some (call (d.string "fn"))
  | "with_registry" => some (withRegistry (d.stringOr "reg" "r") body)
  | "scope_registry" => some (withFresh (d.string? "name") body)
  | "thread" => some (thread (d.string "name") body)
  | "thread_end" => some (endThread (d.string "name"))
  | "catch" => some (catching body)
  | "panic" => some (panic (d.string "msg"))
  | _ => none

/-- Drops the named windows of the running thread, the newest first, and those that get a
name meanwhile; there are no more of them than `fuel`. A panic of one ends only that one. -/
def dropAll (H : Host Stage Note) : Nat → Play Unit
  | 0 => pure ()
  | fuel + 1 => do
    match (← scopes).getLast? with
    | none => pure ()
    | some (_, i) =>
      changeScopes List.dropLast
      discard (Action.attempt (Window.drop H i))
      dropAll H fuel

/-- How many windows may get a name while those of a thread are dropped. -/
def lateLimit : Nat := 1000

/-- Gives up the slots and the cells of the running thread, which is about to end: first those
that came into use last. -/
def tearDown (H : Host Stage Note) : Play Unit := do
  let thread ← here
  let cells ← view fun s => s.cells.get? thread
  let dropCells : Play Unit := do
    alter fun s => { s with cells := s.cells.erase thread }
    Action.change (Process.sweep H)
  if cells.any Cells.afterSlots then dropCells
  Slot.destroyAll H
  dropCells

def forget (name : String) : Play Unit := do
  Action.change fun p => { p with threads := p.threads.erase name }
  alter fun s => { s with
    cells := s.cells.erase name
    slotUsers := s.slotUsers.erase name
    scopes := s.scopes.erase name }

/-- Starts a thread, unless it was started before. -/
def start (name : String) : Play Unit :=
  Action.change fun p => { p with threads := p.threads.insert name (p.thread name) }

/-- Refuses a thread that is running an enclosing step. -/
def idle (name : String) : Run Unit := do
  if ← act (Action.inspect fun p => p.isBusy name) then halt .missing

variable (H : Host Stage Note) (run : Runner)

def perform : ControlStep → Run Document
  | within name body => do
    let s ← named Stage.snapshots name
    let body ← told body
    succeeded (← s.within H (run body))
    return .ok
  | wrap snapshot name body output => do
    let s ← named Stage.snapshots snapshot
    let name ← told name
    let body ← told body
    alter fun stage => { stage with
      functions := stage.functions.insert name { snapshot := s, body, output } }
    return .ok
  | call name => do
    let f ← named Stage.functions name
    let name ← told name
    alter fun s => { s with functions := s.functions.erase name }
    succeeded (← f.snapshot.wrap H (run f.body))
    return .object [("out", f.output)]
  | withRegistry name body => do
    let r ← registryOf name
    let body ← told body
    act (Registry.within r (run body))
    return .ok
  | withFresh name body => do
    let name ← told name
    let body ← told body
    act <| Registry.withFresh do
      let r ← Registry.current
      if let some n := name then alter fun s => { s with registries := s.registries.insert n r }
      run body
      return .nat (← Registry.look r).size
  | thread name body => do
    let name ← told name
    idle name
    let body ← told body
    start name
    act (Action.onThread name (run body))
    return .ok
  | endThread name => do
    let name ← told name
    idle name
    discard (present (← act (Action.inspect fun p => p.threads.get? name)))
    let standing ← view fun s => (s.scopesOf name).length
    act <| Action.onThread name do
      dropAll H (standing + lateLimit)
      tearDown H
    forget name
    return .ok
  | catching body => do
    let body ← told body
    match ← Action.attempt (run body) with
    | .returned () => return .object [("caught", .null)]
    | .panicked text => return .object [("caught", .text text)]
  | panic text => do
    let text ← told text
    act (Action.panic text)

end ControlStep

end Ambient.Scenario
