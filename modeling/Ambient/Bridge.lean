import Ambient.Window

/-! Bridges. A bridge carries the context of one task over its suspensions: the snapshot
is captured once, when the bridge is made; whoever schedules the task calls `resume`
before the task runs on a thread and `suspend` when it stops. -/

namespace Ambient

variable {η ν : Type} (H : Host η ν)

structure Bridge where
  /-- The snapshot to be installed while the task runs. -/
  snapshot : Snapshot
  deriving DecidableEq, Repr

namespace Bridge

def capture (r : RegistryId) (carrier : Option Carrier) (settings : Settings) :
    Action η ν Bridge := do
  return ⟨← Snapshot.capture H r carrier settings⟩

/-- A bridge over what the registry in force finds on the running thread. -/
def current : Action η ν Bridge := do capture H (← Registry.current) none {}

/-- The task is about to run on the running thread: its context is installed. -/
def resume (b : Bridge) (site : CallSite) : Action η ν (Except Failure Nat) := do
  Action.log (.resuming site)
  b.snapshot.install H

/-- The task has stopped running: the window opened by the matching `resume` ends. -/
def suspend (site : CallSite) (i : Nat) : Action η ν (Except Failure Unit) := do
  Action.log (.suspending site)
  Window.close H i

theorem resume_apply (b : Bridge) (site : CallSite) (p : Process η ν) :
    b.resume H site p = b.snapshot.install H (p.record (.logged (.resuming site))) := rfl

theorem suspend_apply (site : CallSite) (i : Nat) (p : Process η ν) :
    suspend H site i p = Window.close H i (p.record (.logged (.suspending site))) := rfl

end Bridge

end Ambient
