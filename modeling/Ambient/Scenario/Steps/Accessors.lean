import Ambient.Scenario.Behaviour

/-! Steps about accessors and registries. -/

namespace Ambient.Scenario

/-- What is to be registered. -/
inductive Registration where
  | made (form : AccessorForm)
  | shared (accessor : Field String)

inductive AccessorStep where
  | make (name : Field String) (form : Field AccessorForm)
  | get (accessor : Field String)
  | set (accessor : Field String) (e : Expression)
  | reset (accessor : Field String)
  | registry (name : Field String)
  | registerSlot (registry : Field String) (key : Field Key)
  | register (registry : Field String) (registration : Field Registration)
  | unregister (registry : Field String) (key : Field Key)
  | isRegistered (registry : Field String) (key : Field Key)
  | info (registry : Field String)
  | same (a b : Field String)
  | read (registry : Field String) (key : Field Key)
  | write (registry : Field String) (key : Field Key) (e : Expression)
  | valuesIn (registry carrier : Field String)

namespace Registration

def read? (d : Document) : Option Registration := do
  match ← d.string "kind" with
  | "shared" => return shared (d.string "accessor")
  | _ => return made (← AccessorForm.read? d)

end Registration

namespace AccessorStep

def ofDocument (kind : String) (d : Document) : Option AccessorStep :=
  let accessor := d.string "accessor"
  let inRegistry := d.stringOr "reg" "r"
  let key := d.string "key"
  match kind with
  | "accessor" => some (make accessor (AccessorForm.read? d))
  | "acc_get" => some (get accessor)
  | "acc_set" => some (set accessor (Expression.ofField d "val"))
  | "acc_reset" => some (reset accessor)
  | "registry" => some (registry (d.string "name"))
  | "register_slot" => some (registerSlot inRegistry key)
  | "register" => some (register inRegistry (Registration.read? d))
  | "unregister" => some (unregister inRegistry key)
  | "is_registered" => some (isRegistered inRegistry key)
  | "reg_info" => some (info inRegistry)
  | "same_reg" => some (same (d.string "a") (d.string "b"))
  | "read" => some (read inRegistry key)
  | "write" => some (write inRegistry key (Expression.ofField d "val"))
  | "values_in" => some (valuesIn inRegistry (d.string "carrier"))
  | _ => none

variable (H : Host Stage Note)

def perform : AccessorStep → Run Document
  | make name form => do
    let name ← told name
    let a ← (← told form).make
    alter fun s => { s with accessors := s.accessors.insert name a }
    return .text a.key
  | get name => do return shown (← (← named Stage.accessors name).read H)
  | set name e => do
    let a ← named Stage.accessors name
    let v ← e.demand
    succeeded (← a.write H (some v))
    return .ok
  | reset name => do
    let a ← named Stage.accessors name
    succeeded (← a.write H none)
    return .ok
  | registry name => do
    let name ← told name
    let r ← act Registry.create
    alter fun s => { s with registries := s.registries.insert name r }
    return .ok
  | registerSlot name key => do
    let r ← registryOf name
    let key ← told key
    act (Registry.add r (.slot key))
    return .text key
  | register name registration => do
    let r ← registryOf name
    let a ← match ← told registration with
      | .made form => act form.make
      | .shared accessor => named Stage.accessors accessor
    act (Registry.add r a)
    return .nat (← act (Registry.look r)).size
  | unregister name key => do
    let r ← registryOf name
    let key ← told key
    return .bool (← act (Registry.remove r key))
  | isRegistered name key => do
    let r ← act (Registry.look (← registryOf name))
    return .bool (r.isRegistered (← told key))
  | info name => do
    let r ← act (Registry.look (← registryOf name))
    return .object [("len", .nat r.size), ("empty", .bool r.isEmpty),
      ("keys", .list (r.keys.map .text))]
  | same a b => do return .bool (decide ((← registryOf a) = (← registryOf b)))
  | read name key => do
    let r ← registryOf name
    let key ← told key
    return shown (← act (Registry.read H r key))
  | write name key e => do
    let r ← registryOf name
    let key ← told key
    let content ← e.evaluate
    succeeded (← Registry.write H r key content)
    return .ok
  | valuesIn name carrier => do
    let r ← act (Registry.look (← registryOf name))
    return shownCarrier (Carrier.valuesIn r (← named Stage.carriers carrier))

end AccessorStep

end Ambient.Scenario
