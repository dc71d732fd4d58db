import Ambient.Slot

/-! Access to ambient values on the running thread through accessors and registries. A value that a
custom accessor's function gives up is released when the function has returned. Each look at a
registry's table and each change to it is one step: the lock around the table, and code that an
accessor might run when it is displaced, are left out. -/

namespace Ambient

variable {η ν : Type} (H : Host η ν)

/-! ### Accessors -/

namespace Accessor

def read (a : Accessor) : Action η ν (Option Value) := do
  Action.record (.called { accessor := a, request := .read })
  match a with
  | slot k => Slot.read k
  | custom _ ref => (H.behaviour ref).read

/-- Writes a value through an accessor, or clears through it; `restoring` says for which
window's restoration, if for one. -/
def write (a : Accessor) (content : Option Value) (restoring : Option WindowRef := none) :
    Action η ν (Except Failure Unit) := do
  Action.record (.called { accessor := a, request := .write content, restoring })
  match a, content with
  | slot k, _ => Slot.write H k content
  | custom _ ref, some v =>
    Action.ensuring ((H.behaviour ref).write v) (Action.change (Process.sweep H))
  | custom _ ref, none =>
    Action.ensuring (H.behaviour ref).clear (Action.change (Process.sweep H))

theorem read_slot (k : Key) (p : Process η ν) :
    (slot k).read H p = (.returned (p.slot? k),
      p.record (.called { accessor := slot k, request := .read })) :=
  Slot.read_apply k _

theorem write_slot (k : Key) (content : Option Value) (restoring : Option WindowRef)
    (p : Process η ν) :
    (slot k).write H content restoring p = Slot.write H k content
      (p.record (.called { accessor := slot k, request := .write content, restoring })) := rfl

end Accessor

/-! ### Registries -/

namespace Registry

variable {α : Type}

def look (r : RegistryId) : Action η ν Registry := Action.inspect fun p => p.registry r

def create : Action η ν RegistryId := fun p =>
  (.returned p.registries.length, { p with registries := p.registries ++ [.empty] })

/-- Lets an accessor stand for its key in a registry; it is logged where another one
stood for it. -/
def add (r : RegistryId) (a : Accessor) : Action η ν Unit := do
  let table ← look r
  Action.change fun p => { p with registries := p.registries.set r (table.register a) }
  if table.isRegistered a.key then Action.log (.replaced a.key)

/-- Takes the accessor of a key out of a registry, and answers whether there was one. -/
def remove (r : RegistryId) (k : Key) : Action η ν Bool := do
  let table ← look r
  Action.change fun p => { p with registries := p.registries.set r (table.unregister k) }
  return table.isRegistered k

/-- Reads a key through the accessor that a registry has for it; a key without one reads
as absent. -/
def read (r : RegistryId) (k : Key) : Action η ν (Option Value) := do
  match (← look r).get? k with
  | none => return none
  | some a => a.read H

/-- Writes a key, or clears it, through the accessor that a registry has for it. -/
def write (r : RegistryId) (k : Key) (content : Option Value) :
    Action η ν (Except Failure Unit) := do
  match (← look r).get? k with
  | none => return .error (.unknownKey k)
  | some a => a.write H content

def current : Action η ν RegistryId := Action.inspect Process.currentRegistry

/-- A registry is in force on the running thread from now on. -/
def enter (r : RegistryId) : Action η ν Unit :=
  Action.change (·.modifyCurrent fun t => { t with registries := r :: t.registries })

/-- The registry that came into force last on the running thread no longer is. -/
def leave : Action η ν Unit :=
  Action.change (·.modifyCurrent fun t => { t with registries := t.registries.drop 1 })

/-- Runs `body` with a registry in force, and takes it back however `body` ends. -/
def within (r : RegistryId) (body : Action η ν α) : Action η ν α := do
  enter r
  Action.ensuring body leave

theorem look_apply (r : RegistryId) (p : Process η ν) :
    look r p = (.returned (p.registry r), p) := rfl

theorem within_apply (r : RegistryId) (body : Action η ν α) (p : Process η ν) :
    within r body p =
      let inside := body (p.modifyCurrent fun t => { t with registries := r :: t.registries })
      (inside.1, inside.2.modifyCurrent fun t => { t with registries := t.registries.drop 1 }) :=
  rfl

/-- Runs `body` with a fresh registry in force. -/
def withFresh (body : Action η ν α) : Action η ν α := do within (← create) body

end Registry

end Ambient
