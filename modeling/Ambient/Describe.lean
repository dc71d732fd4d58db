import Ambient.Task
import Ambient.Text.Layout

/-! Descriptions for whoever debugs a program. Each type names its parts; what a value
carries is shown only where it is a text. -/

namespace Ambient

open Text (Layout quote)

def describeBool (b : Bool) : Layout := .atom (if b then "true" else "false")

def describeOption : Option Layout → Layout
  | none => .atom "None"
  | some l => .tagged "Some" l

def describeKey (k : Key) : Layout := .atom ("ContextKey(" ++ quote k ++ ")")

namespace Value

/-- A value, with its text if it carries one. -/
def describe (v : Value) : Layout :=
  match v.payload with
  | .string s => .atom ("ContextValue(" ++ quote s ++ ")")
  | .str s => .atom ("ContextValue(" ++ quote s ++ ")")
  | _ => .atom "ContextValue(..)"

end Value

namespace Failure

def describe : Failure → Layout
  | accessor key message =>
    .record "Accessor" [("key", describeKey key), ("message", .atom (quote message))] true
  | unknownKey key => .tagged "UnknownKey" (describeKey key)
  | setting name value reason =>
    .record "Config" [("var", .atom (quote name)), ("value", .atom (quote value)),
      ("reason", .atom (quote reason))] true

end Failure

namespace Accessor

/-- An accessor; of a custom one only the key is known. -/
def describe : Accessor → Layout
  | slot key => .record "SlotAccessor" [("key", describeKey key)] true
  | custom key _ => .record "FnAccessor" [("key", describeKey key)] false

end Accessor

namespace Registry

def describe (r : Registry) : Layout :=
  .record "ContextRegistry" [("keys", .list (r.keys.map describeKey))] true

end Registry

namespace Carrier

/-- A carrier's entries, in the order of their keys. -/
def describe (c : Carrier) : Layout :=
  .map (c.bindings.map fun b => (describeKey b.1, b.2.describe))

end Carrier

namespace Snapshot

def describe (s : Snapshot) : Layout :=
  .map (s.entries.map fun e => (describeKey e.key, describeOption (e.value.map Value.describe)))

end Snapshot

namespace Window

/-- The size of a window, and whether its restoration has begun. -/
def describe (win : Window) : Layout :=
  .record "Scope" [("keys", .atom (toString win.priors.length)),
    ("closed", describeBool (win.status != .standing))] true

end Window

namespace CallSite

def describe (site : CallSite) : Layout :=
  .record "CallSite" [("label", describeOption (site.label.map fun s => .atom (quote s))),
    ("poll", .atom (toString site.poll))] true

end CallSite

namespace CapturePolicy

def name : CapturePolicy → String
  | carrierFirst => "CarrierFirst"
  | threadLocalOnly => "ThreadLocalOnly"

end CapturePolicy

namespace Settings

def describe (s : Settings) : Layout :=
  .record "BridgeConfig" [("capture_policy", .atom s.policy.name),
    ("clear_missing", describeBool s.clearMissing)] true

end Settings

namespace Bridge

def describe (b : Bridge) : Layout :=
  .record "SuspensionBridge" [("snapshot", b.snapshot.describe)] true

end Bridge

end Ambient
