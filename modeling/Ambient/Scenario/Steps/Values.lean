import Ambient.Describe
import Ambient.Scenario.Behaviour
import Ambient.Scenario.Steps.Settings

/-! Steps that make values, compare them, and look at things without changing them. -/

namespace Ambient.Scenario

/-- What a step wants described. -/
inductive Subject where
  | registry (registry : Field String)
  | snapshot (snapshot : Field String)
  | bridge (bridge : Field String)
  | scope (scope : Field String)
  | carrier (carrier : Field String)
  | key (key : Field Key)
  | slot (key : Field Key)
  | custom (key : Field Key)
  | value (e : Expression)
  | callSite (site : Field CallSite)
  | settings (form : Field SettingsForm)

/-- A step about values, keys, failures and descriptions. -/
inductive ValueStep where
  /-- Gives a value a name, or forgets the name. -/
  | name (name : Field String) (e : Expression)
  | compare (a b : Expression)
  | info (e : Expression)
  /-- Compares keys, of which there is at least one. -/
  | keys (names : Field (Key × List Key))
  | failure (failure : Field Failure)
  | describe (subject : Field Subject) (pretty : Field Bool)
  /-- Tells of a call site, and compares it. -/
  | callSite (site : Field CallSite) (other : Field (Option CallSite))

def readSite (d : Document) : Option CallSite := do
  let d ← d.asObject?
  return {
    label := ← d.string? "label"
    poll := .ofNat ((← d.may "poll" fun p => p.asText?.bind count?).getD 0) }

namespace Subject

def read? (d : Document) : Option Subject := do
  match ← d.string "of" with
  | "registry" => return registry (d.stringOr "reg" "r")
  | "snapshot" => return snapshot (d.string "snap")
  | "bridge" => return bridge (d.string "bridge")
  | "scope" => return scope (d.string "scope")
  | "carrier" => return carrier (d.string "carrier")
  | "key" => return key (d.string "key")
  | "slot" => return slot (d.string "key")
  | "fn" => return custom (d.string "key")
  | "value" => return value (Expression.ofField d "val")
  | "call_site" => return callSite (readSite d)
  | "config" => return settings (d.need "config" SettingsForm.read?)
  | _ => none

/-- Describes a subject. A carrier is described only if its entries have no order to
show. -/
def describe : Subject → Run Text.Layout
  | registry name => do return (← act (Registry.look (← registryOf name))).describe
  | snapshot name => do return (← named Stage.snapshots name).describe
  | bridge name => do return (← named Stage.bridges name).describe
  | scope name => do return (← windowOf name).describe
  | carrier name => do
    let c ← named Stage.carriers name
    if c.size < 2 then return Carrier.describe c else halt .malformed
  | key k => do return describeKey (← told k)
  | slot k => do return (Accessor.slot (← told k)).describe
  | custom k => do return (Accessor.custom (← told k) 0).describe
  | value e => do return (← e.demand).describe
  | callSite site => do return (← told site).describe
  | settings form => do return (← (← told form).follow).1.describe

end Subject

namespace ValueStep

def keys? (d : Document) : Option (Key × List Key) :=
  match d.asTexts? with
  | some (first :: rest) => some (first, rest)
  | _ => none

def readFailure (d : Document) : Option Failure := do
  match ← d.string "kind" with
  | "accessor" => return .accessor (← d.string "key") (← d.string "msg")
  | "unknown" => return .unknownKey (← d.string "key")
  | "config" => return .setting (← d.string "var") (← d.string "value") (← d.string "reason")
  | _ => none

def ofDocument (kind : String) (d : Document) : Option ValueStep :=
  match kind with
  | "let" => some (name (d.string "name") (Expression.ofField d "from"))
  | "val_eq" => some (compare (Expression.ofField d "a") (Expression.ofField d "b"))
  | "val_info" => some (info (Expression.ofField d "val"))
  | "keys" => some (keys (d.need "names" keys?))
  | "error" => some (failure (readFailure d))
  | "debug" => some (describe (Subject.read? d) (d.flag "pretty"))
  | "call_site" => some (callSite (readSite d) (d.may "other" readSite))
  | _ => none

def orderName : Ordering → String
  | .lt => "Less"
  | .eq => "Equal"
  | .gt => "Greater"

/-- What is to be said of keys: their order, how many differ, and how they show. -/
def keyFacts (first : Key) (rest : List Key) : Document :=
  let all := first :: rest
  let last := rest.getLastD first
  let numbered := Table.ofList (all.zip (List.range all.length))
  .object [
    ("sorted", .list ((all.mergeSort fun a b => decide (a ≤ b)).map .text)),
    ("cmp", .text (orderName (compareOfLessAndEq first last))),
    ("eq", .bool (decide (first = last))),
    ("distinct", .nat numbered.size),
    ("found", ((numbered.get? first).map Document.nat).getD .null),
    ("display", .text last),
    ("debug", .text ((describeKey last).text false))]

def perform : ValueStep → Run Document
  | name n e => do
    let n ← told n
    let v ← e.evaluate
    alter fun s => { s with values := s.values.assign n v }
    return shown v
  | compare a b => do
    let v ← a.demand
    let w ← b.demand
    return .object [("eq", .bool (v.same w)), ("ptr_eq", .bool (v.same w))]
  | info e => do
    let v ← e.demand
    let readings := (v.payload.reading?.map fun r => (r.1, Document.text r.2)).toList
    return .object [("is", .object readings), ("debug", .text (v.describe.text false))]
  | keys names => do
    let (first, rest) ← told names
    return keyFacts first rest
  | failure f => do
    let f ← told f
    return .object [("display", .text f.message), ("debug", .text (f.describe.text false)),
      ("key", .ofText? f.key?)]
  | describe subject pretty => do
    let subject ← told subject
    let pretty ← told pretty
    return .text ((← subject.describe).text pretty)
  | callSite site other => do
    let site ← told site
    let other ← told other
    return .object [
      ("label", .ofText? site.label), ("poll", .text (toString site.poll)),
      ("debug", .text (site.describe.text false)),
      ("eq", (other.map fun o => Document.bool (decide (site = o))).getD .null)]

end ValueStep

end Ambient.Scenario
