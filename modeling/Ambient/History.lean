import Ambient.Failure
import Ambient.Snapshot

/-! What happens, in order: the events that are logged, the calls made of accessors,
the values released, and whatever the embedding program notes itself. -/

namespace Ambient

/-! ### Log events -/

/-- What a scheduler may say about a resumption; it labels log events and decides nothing. -/
structure CallSite where
  label : Option String := none
  /-- How often the task has been resumed, this time included. -/
  poll : UInt64 := 0
  deriving DecidableEq, Repr

/-- An event worth a line in the log. -/
inductive LogEvent where
  | replaced (key : Key)
  | captured (fromCarrier : Bool) (keys : Nat)
  | installed (keys : Nat)
  | installFailed (key : Key) (failure : Failure)
  /-- Undoing an installation that failed met a failure of its own. -/
  | rollbackFailed (failure : Failure)
  | restoreFailed (key : Key) (failure : Failure)
  | closed (keys : Nat)
  /-- A window that was dropped did not restore everything. -/
  | dropFailed (failure : Failure)
  | resuming (site : CallSite)
  | suspending (site : CallSite)
  /-- A task was done, but its context could not be restored. -/
  | discarding (site : CallSite) (failure : Failure)
  /-- The context of a task that panicked could not be restored. -/
  | unwindFailed (failure : Failure)
  deriving DecidableEq, Repr

namespace LogEvent

def siteFields (site : CallSite) : List (String × String) :=
  [("task", site.label.getD "-"), ("poll", toString site.poll)]

def parts : LogEvent → String × String × List (String × String)
  | replaced key => ("DEBUG", "replaced thread-local accessor", [("key", key)])
  | captured fromCarrier keys =>
    ("DEBUG", "captured context snapshot",
      [("source", if fromCarrier then "carrier" else "thread_local"), ("keys", toString keys)])
  | installed keys => ("TRACE", "installed context snapshot", [("keys", toString keys)])
  | installFailed key failure =>
    ("DEBUG", "install failed, rolling back", [("key", key), ("error", failure.message)])
  | rollbackFailed failure =>
    ("WARN", "rollback of partial install failed", [("error", failure.message)])
  | restoreFailed key failure =>
    ("DEBUG", "restore failed", [("key", key), ("error", failure.message)])
  | closed keys => ("TRACE", "closed context scope", [("keys", toString keys)])
  | dropFailed failure =>
    ("WARN", "scope dropped without close failed to restore context",
      [("error", failure.message)])
  | resuming site => ("TRACE", "resuming task", siteFields site)
  | suspending site => ("TRACE", "suspending task", siteFields site)
  | discarding site failure =>
    ("WARN", "discarding completed output: context restore failed",
      siteFields site ++ [("error", failure.message)])
  | unwindFailed failure =>
    ("WARN", "failed to restore context while unwinding", [("error", failure.message)])

def render (e : LogEvent) : String :=
  let (level, message, fields) := e.parts
  level ++ " " ++ message ++ String.join (fields.map fun f => " " ++ f.1 ++ "=" ++ f.2)

end LogEvent

/-! ### Calls and releases -/

abbrev ThreadName := String

/-- A window, by the thread it is on and its number in the order of opening there. -/
structure WindowRef where
  thread : ThreadName
  index : Nat
  deriving DecidableEq, Repr

inductive Request where
  | read
  | write (content : Option Value)
  deriving DecidableEq, Repr

structure Call where
  accessor : Accessor
  request : Request
  /-- The window whose restoration made the call, if one did. -/
  restoring : Option WindowRef := none
  deriving DecidableEq, Repr

/-- Something that happened. `ν` is what the embedding program notes. -/
inductive Event (ν : Type) where
  | logged (event : LogEvent)
  | called (call : Call)
  /-- Nobody held a value any more, and its own code read these slots. -/
  | released (value : Value) (readings : List (Key × Option Value))
  | noted (note : ν)

end Ambient
