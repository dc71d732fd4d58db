import Ambient.Failure
import Ambient.Text.Blank
import Ambient.Text.Utf8

/-! How a snapshot is to be captured, and what the environment may say about it. A
variable that is set overrides the setting it stands for; one that does not read is
refused, and what was overridden before it stays overridden. -/

namespace Ambient

inductive CapturePolicy where
  /-- From the carrier, if there is one and it holds anything; else from the thread. -/
  | carrierFirst
  /-- Always from the thread. -/
  | threadLocalOnly
  deriving DecidableEq, Repr

namespace CapturePolicy

/-- Reads a policy; blanks around it and the case of ASCII letters do not matter, and
its words may be joined by lines or by underscores. -/
def ofText? (s : String) : Option CapturePolicy :=
  let word := Text.lowerAscii (Text.strip s)
  if word = "carrier-first" ∨ word = "carrier_first" then some carrierFirst
  else if word = "thread-local-only" ∨ word = "thread_local_only" then some threadLocalOnly
  else none

/-- What a text that is no policy is told. -/
def expected : String := "expected `carrier-first` or `thread-local-only`"

end CapturePolicy

/-- Reads a truth value, as loosely as a policy is read. -/
def truth? (s : String) : Option Bool :=
  let word := Text.lowerAscii (Text.strip s)
  if word = "true" ∨ word = "1" ∨ word = "yes" ∨ word = "on" then some true
  else if word = "false" ∨ word = "0" ∨ word = "no" ∨ word = "off" then some false
  else none

structure Settings where
  policy : CapturePolicy := .carrierFirst
  /-- Whether registered keys that the carrier lacks are captured as absent. -/
  clearMissing : Bool := false
  deriving DecidableEq, Repr

/-- The contents of the two variables, as bytes; `none` where one is not set. -/
structure Environment where
  policy : Option (List UInt8) := none
  clearMissing : Option (List UInt8) := none

namespace Settings

def policyVariable : String := "CARRYOVER_CAPTURE_POLICY"

def clearVariable : String := "CARRYOVER_CLEAR_MISSING"

/-- What the bytes of a variable say, read by `read?`; `expected` tells what it wants. -/
def fromVariable {α : Type} (name expected : String) (read? : String → Option α)
    (bytes : List UInt8) : Except Failure α :=
  match Text.Utf8.decode? bytes with
  | none => .error (.setting name (Text.Utf8.decodeLossy bytes) "not valid unicode")
  | some text =>
    match read? text with
    | none => .error (.setting name text expected)
    | some x => .ok x

def policyFrom (bytes : List UInt8) : Except Failure CapturePolicy :=
  fromVariable policyVariable CapturePolicy.expected CapturePolicy.ofText? bytes

def clearFrom (bytes : List UInt8) : Except Failure Bool :=
  fromVariable clearVariable "expected a boolean" truth? bytes

def overridePolicy (s : Settings) : Option (List UInt8) → Except Failure Settings
  | none => .ok s
  | some bytes => (policyFrom bytes).map fun p => { s with policy := p }

/-- Overrides what happens to missing keys where its variable is set. -/
def overrideClear (s : Settings) : Option (List UInt8) → Except Failure Settings
  | none => .ok s
  | some bytes => (clearFrom bytes).map fun b => { s with clearMissing := b }

/-- The settings as the environment overrides them, with the failure of the variable
that does not read; the policy comes first, and its failure ends the matter. -/
def override (s : Settings) (env : Environment) : Settings × Option Failure :=
  match s.overridePolicy env.policy with
  | .error e => (s, some e)
  | .ok t =>
    match t.overrideClear env.clearMissing with
    | .error e => (t, some e)
    | .ok u => (u, none)

/-- The default settings as the environment overrides them. -/
def fromEnvironment (env : Environment) : Except Failure Settings :=
  match ({} : Settings).override env with
  | (_, some e) => .error e
  | (s, none) => .ok s

@[simp] theorem override_unset (s : Settings) : s.override {} = (s, none) := rfl

end Settings

end Ambient
