import Ambient.Describe
import Ambient.Scenario.Behaviour

/-! Steps about settings, and the way in which steps write settings down: first what the
program asks for, then what the environment says, then what the program asks for after
that. -/

namespace Ambient.Scenario

structure Choice where
  policy : Option CapturePolicy := none
  /-- What is to become of missing keys, if that is asked for. -/
  clearMissing : Option Bool := none

structure Recipe where
  before : Choice := {}
  environment : Option Environment := none
  /-- Whether the environment starts from the defaults and not from what was asked for. -/
  afresh : Bool := false
  after : Choice := {}

inductive SettingsForm where
  | named (name : String)
  | made (recipe : Recipe)

namespace Choice

def policy? (d : Document) : Option CapturePolicy :=
  match d with
  | .text "carrier-first" => some .carrierFirst
  | .text "thread-local-only" => some .threadLocalOnly
  | _ => none

def read? (d : Document) : Option Choice := do
  let d ← d.asObject?
  return {
    policy := ← d.may "policy" policy?
    clearMissing := ← d.may "clear" Document.asBool? }

def apply (c : Choice) (s : Settings) : Settings :=
  { policy := c.policy.getD s.policy, clearMissing := c.clearMissing.getD s.clearMissing }

end Choice

/-- Reads what a variable holds, if it is set: a text or bytes, none of them zero. -/
def content? (d : Document) : Option (Option (List UInt8)) :=
  match d with
  | .null => some none
  | .text s => (holding (Text.Utf8.encode s)).map some
  | d => (d.asBytes?.bind holding).map some
where
  holding (bytes : List UInt8) : Option (List UInt8) :=
    if bytes.contains 0 then none else some bytes

def environment? (d : Document) : Option Environment := do
  let d ← d.asObject?
  return {
    policy := (← d.may "policy" content?).join
    clearMissing := (← d.may "clear" content?).join }

namespace Recipe

def read? (d : Document) : Option Recipe := do
  let afresh ← d.flag "from_env"
  let environment ← d.may "env" environment?
  return {
    before := ← Choice.read? d
    environment
    afresh
    after := (← d.may "then" Choice.read?).getD {} }

/-- The settings, and what the environment did wrong. What it overrode before that stays,
unless it started afresh. -/
def follow (r : Recipe) : Settings × Option Failure :=
  let asked := r.before.apply {}
  let (settings, failure) := match r.environment with
    | none => (asked, none)
    | some env =>
      if r.afresh then
        match Settings.fromEnvironment env with
        | .ok settings => (settings, none)
        | .error failure => (asked, some failure)
      else asked.override env
  (r.after.apply settings, failure)

end Recipe

namespace SettingsForm

def read? (d : Document) : Option SettingsForm := do
  let d ← d.asObject?
  match ← d.string? "ref" with
  | some name => return named name
  | none => return made (← Recipe.read? d)

/-- The settings, and what the environment did wrong. -/
def follow : SettingsForm → Run (Settings × Option Failure)
  | named name => do return (← Scenario.named Stage.settings name, none)
  | made recipe => return recipe.follow

/-- The settings, for a step that cannot do without them. -/
def settled (form : SettingsForm) : Run Settings := do
  match ← form.follow with
  | (settings, none) => return settings
  | (_, some failure) => halt (.failed failure)

end SettingsForm

inductive SettingsStep where
  | policy (text : Field String)
  /-- Makes settings, and may give them a name. -/
  | settings (form : Field SettingsForm) (name : Field (Option String))

namespace SettingsStep

def ofDocument (kind : String) (d : Document) : Option SettingsStep :=
  match kind with
  | "policy" => some (policy (d.string "text"))
  | "config" => some (settings (SettingsForm.read? d) (d.string? "name"))
  | _ => none

def policyText : CapturePolicy → String
  | .carrierFirst => "carrier-first"
  | .threadLocalOnly => "thread-local-only"

def perform : SettingsStep → Run Document
  | policy text => do
    match CapturePolicy.ofText? (← told text) with
    | some p => return .object [("ok", .text p.name)]
    | none => return .object [("err", .text CapturePolicy.expected)]
  | settings form name => do
    let (made, failure) ← (← told form).follow
    if let some n := ← told name then alter fun s => { s with settings := s.settings.insert n made }
    return .object [
      ("policy", .text (policyText made.policy)), ("clear", .bool made.clearMissing),
      ("default", .bool (decide (made = {}))), ("err", shownFailure failure)]

end SettingsStep

end Ambient.Scenario
