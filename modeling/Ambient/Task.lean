import Ambient.Bridge

/-! Tasks. A task is an inner computation that is run in parts, each part inside its
bridge's context. Every poll opens a window of its own and ends it by every exit, so no
window outlives a poll and the task may move between threads. -/

namespace Ambient

variable {η ν ω : Type} (H : Host η ν)

/-- How far a computation has come. -/
inductive Progress (ω : Type) where
  | pending
  | ready (output : ω)
  deriving DecidableEq, Repr

namespace Progress

def isReady : Progress ω → Bool
  | pending => false
  | ready _ => true

end Progress

/-- A task, apart from its inner computation. -/
structure Task where
  bridge : Bridge
  label : Option String := none
  /-- How often it was polled; the count starts again from zero after `2 ^ 64` polls. -/
  polls : UInt64 := 0
  deriving DecidableEq, Repr

namespace Task

/-- The task after one more poll was begun. -/
def advance (t : Task) : Task := { t with polls := t.polls + 1 }

/-- What the task says of itself in the log. -/
def site (t : Task) : CallSite := ⟨t.label, t.polls⟩

/-- Ends the window of a poll that panicked with `text`; the panic goes on. A restoration that panics
while another panic is under way aborts the process; here the first panic goes on instead, and what
follows it is nothing that a process can come to. -/
def unwind (t : Task) (i : Nat) (text : String) : Action η ν (Except Failure (Progress ω)) := do
  match ← Action.attempt (Bridge.suspend H t.site i) with
  | .returned (.error failure) => Action.log (.unwindFailed failure)
  | .returned (.ok ()) => pure ()
  | .panicked _ => pure ()
  Action.panic text

/-- Runs one part of the inner computation in a window. An installation that fails keeps
it from running; a restoration that fails loses what it answered. -/
def window (t : Task) (inner : Action η ν (Progress ω)) :
    Action η ν (Except Failure (Progress ω)) := do
  match ← t.bridge.resume H t.site with
  | .error failure => return .error failure
  | .ok i =>
    match ← Action.attempt inner with
    | .panicked text => t.unwind H i text
    | .returned progress =>
      match ← Bridge.suspend H t.site i with
      | .ok () => return .ok progress
      | .error failure =>
        if progress.isReady then Action.log (.discarding t.site failure)
        return .error failure

/-- A task without a label over what the registry in force finds on the running thread. -/
def propagate : Action η ν Task := do return { bridge := ← Bridge.current H }

/-- One poll: the task as it is from now on, and what the poll does. -/
def poll (t : Task) (inner : Action η ν (Progress ω)) :
    Task × Action η ν (Except Failure (Progress ω)) :=
  (t.advance, t.advance.window H inner)

@[simp] theorem bridge_advance (t : Task) : t.advance.bridge = t.bridge := rfl

variable {H} {t : Task} {inner : Action η ν (Progress ω)} {i : Nat} {p q r : Process η ν}

theorem window_of_returned {progress : Progress ω}
    (hi : t.bridge.resume H t.site p = (.returned (.ok i), q))
    (hr : inner q = (.returned progress, r)) :
    t.window H inner p = match Bridge.suspend H t.site i r with
      | (.returned (.ok ()), r') => (.returned (.ok progress), r')
      | (.returned (.error failure), r') => (.returned (.error failure),
          if progress.isReady then r'.record (.logged (.discarding t.site failure)) else r')
      | (.panicked text, r') => (.panicked text, r') := by
  simp only [window, Action.bind_apply, hi, Action.attempt_apply, hr]
  rcases Bridge.suspend H t.site i r with ⟨(failure | ⟨⟩) | text, r'⟩
  · cases h : progress.isReady <;> rfl
  · rfl
  · rfl

theorem window_of_panicked {text : String}
    (hi : t.bridge.resume H t.site p = (.returned (.ok i), q))
    (hr : inner q = (.panicked text, r)) :
    t.window H inner p = (.panicked text, match Bridge.suspend H t.site i r with
      | (.returned (.error failure), r') => r'.record (.logged (.unwindFailed failure))
      | (_, r') => r') := by
  simp only [window, unwind, Action.bind_apply, hi, Action.attempt_apply, hr]
  rcases Bridge.suspend H t.site i r with ⟨(failure | ⟨⟩) | text, r'⟩ <;> rfl

end Task

end Ambient
