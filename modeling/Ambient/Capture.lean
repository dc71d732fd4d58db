import Ambient.Access
import Ambient.Settings

/-! Taking snapshots. Either a carrier is in play, and then only what it holds counts;
or every accessor of the registry is read on the running thread, in the order of the
keys. The accessors are those the registry has when the capture begins. -/

namespace Ambient

variable {η ν : Type} (H : Host η ν)

namespace Settings

/-- The carrier that a capture goes by: the one supplied, unless it is empty or the
policy is to ignore it. -/
def carrierInPlay (s : Settings) (c : Option Carrier) : Option Carrier :=
  match s.policy with
  | .carrierFirst => c.filter fun c => !c.isEmpty
  | .threadLocalOnly => none

end Settings

namespace Snapshot

/-- The entries for accessors that a carrier supplies; keys that it lacks are left out,
or are entered as absent if they are to be cleared. -/
def entriesOf (values : Carrier) (clearMissing : Bool) (accessors : List Accessor) : List Entry :=
  accessors.filterMap fun a =>
    match values.get? a.key with
    | some v => some ⟨a, some v⟩
    | none => if clearMissing then some ⟨a, none⟩ else none

/-- Reads accessors one after another, holding what was read. -/
def readAll : List Accessor → Action η ν (List Entry)
  | [] => pure []
  | a :: rest => do
    let value ← a.read H
    let entries ← Action.holding value.toList (readAll rest)
    return ⟨a, value⟩ :: entries

/-- Captures the values of a registry's keys. -/
def capture (r : RegistryId) (carrier : Option Carrier) (settings : Settings) :
    Action η ν Snapshot := do
  let registry ← Registry.look r
  let inPlay := settings.carrierInPlay carrier
  let entries ← match inPlay with
    | some c => pure (entriesOf (c.valuesIn registry) settings.clearMissing registry.accessors)
    | none => readAll H registry.accessors
  Action.log (.captured inPlay.isSome entries.length)
  return ⟨entries⟩

end Snapshot

end Ambient
