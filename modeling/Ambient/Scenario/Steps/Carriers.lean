import Ambient.Scenario.Behaviour
import Ambient.Scenario.Steps.Slots

/-! Steps about carriers. -/

namespace Ambient.Scenario

/-- Keys with expressions for what a carrier is to hold for them. -/
abbrev Listing : Type := List (Key × Expression)

/-- How a carrier comes about. -/
inductive CarrierSource where
  | empty
  | single (key : Field Key) (e : Expression)
  | listed (entries : Field Listing)
  | put (carrier : Field String) (key : Field Key) (e : Expression)
  | putAll (carrier : Field String) (entries : Field Listing)
  | delete (carrier : Field String) (key : Field Key)
  | copy (carrier : Field String)
  | snapshot (snapshot : Field String)

inductive CarrierStep where
  | make (name : Field String) (source : Field CarrierSource)
  /-- Tells what a carrier holds for a key, and what that carries if it is of a type. -/
  | get (carrier : Field String) (key : Field Key) (type : Field (Option String))
  | info (carrier : Field String)

namespace CarrierSource

/-- Reads a key with an expression; what is no such pair is refused when its turn comes. -/
def entry (d : Document) : Key × Expression :=
  match d with
  | .list (.text key :: e :: _) => (key, Expression.read e)
  | _ => ("", .unreadable)

def entries? (d : Document) : Option Listing := d.asList?.map fun items => items.map entry

def read? (d : Document) : Option CarrierSource := do
  match ← d.string "by" with
  | "empty" => return empty
  | "default" => return empty
  | "of" => return single (d.string "key") (Expression.ofField d "val")
  | "from" => return listed (d.need "from" entries?)
  | "put" => return put (d.string "carrier") (d.string "key") (Expression.ofField d "val")
  | "put_all" => return putAll (d.string "carrier") (d.need "from" entries?)
  | "delete" => return delete (d.string "carrier") (d.string "key")
  | "clone" => return copy (d.string "carrier")
  | "snapshot" => return snapshot (d.string "snap")
  | _ => none

end CarrierSource

namespace CarrierStep

def ofDocument (kind : String) (d : Document) : Option CarrierStep :=
  match kind with
  | "carrier" => some (make (d.string "name") (CarrierSource.read? d))
  | "carrier_get" =>
    some (get (d.string "carrier") (d.string "key") (d.may "as" SlotStep.typeName?))
  | "carrier_info" => some (info (d.string "carrier"))
  | _ => none

/-- Evaluates listed expressions, first to last. -/
def evaluateAll : Listing → Run (List (Key × Value))
  | [] => return []
  | (key, e) :: rest => do
    let v ← e.demand
    return (key, v) :: (← evaluateAll rest)

def build : CarrierSource → Run Carrier
  | .empty => return Table.empty
  | .single key e => do
    let key ← told key
    return Carrier.single key (← e.demand)
  | .listed entries => do return Table.ofList (← evaluateAll (← told entries))
  | .put name key e => do
    let c ← named Stage.carriers name
    let key ← told key
    return c.insert key (← e.demand)
  | .putAll name entries => do
    let c ← named Stage.carriers name
    return c.insertAll (← evaluateAll (← told entries))
  | .delete name key => do
    let c ← named Stage.carriers name
    return c.erase (← told key)
  | .copy name => named Stage.carriers name
  | .snapshot name => do return (← named Stage.snapshots name).toCarrier

def perform : CarrierStep → Run Document
  | make name source => do
    let name ← told name
    let c ← build (← told source)
    alter fun s => { s with carriers := s.carriers.insert name c }
    return shownCarrier c
  | get name key type => do
    let c ← named Stage.carriers name
    let key ← told key
    let type ← told type
    let v := c.get? key
    return .object [("val", shown v), ("has", .bool (c.contains key)),
      ("as", (type.map fun t => SlotStep.textAs t v).getD .null)]
  | info name => do
    let c ← named Stage.carriers name
    return .object [("len", .nat c.size), ("empty", .bool c.isEmpty),
      ("iterated", .nat c.bindings.length), ("entries", shownCarrier c)]

end CarrierStep

end Ambient.Scenario
