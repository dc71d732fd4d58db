import Ambient.Capture

/-! Windows. Installing a snapshot opens a window: entry by entry, what is there is read
and remembered, and the captured value is put in its place. Ending the window puts back
what was remembered, last entry first, past accessors that fail. An installation that
fails is undone the same way; one that panics is not, and a restoration that panics
stops there. -/

namespace Ambient

variable {η ν α : Type} (H : Host η ν)

namespace Window

/-! ### The list of windows -/

def look (i : Nat) : Action η ν (Option Window) := Action.inspect fun p => p.current.windows[i]?

/-- Adds a window to those of the running thread, and answers its number. -/
def add (snapshot : Snapshot) (priors : List Entry) : Action η ν Nat := fun p =>
  (.returned p.current.windows.length,
    p.modifyCurrent fun t => { t with windows := t.windows ++ [{ snapshot, priors }] })

def setStatus (i : Nat) (status : WindowStatus) : Action η ν Unit :=
  Action.change (·.modifyCurrent fun t =>
    { t with windows := t.windows.modify i fun win => { win with status } })

theorem look_apply (i : Nat) (p : Process η ν) :
    look i p = (.returned p.current.windows[i]?, p) := rfl

/-! ### Ending a window -/

/-- Writes entries back one after another, and answers the first failure; `first` is the
one met before. -/
def putBack (ref : WindowRef) : List Entry → Option Failure → Action η ν (Option Failure)
  | [], first => pure first
  | e :: rest, first => do
    match ← e.accessor.write H e.value (some ref) with
    | .ok () => putBack ref rest first
    | .error failure =>
      Action.log (.restoreFailed e.key failure)
      putBack ref rest (first <|> some failure)

/-- Puts back what a window displaced, once: a window that is not standing is left alone. -/
def restore (i : Nat) : Action η ν (Except Failure Unit) := do
  match ← look i with
  | none => return .ok ()
  | some win =>
    if win.status = .standing then
      setStatus i .closing
      let thread ← Action.inspect Process.here
      let first ← putBack H ⟨thread, i⟩ win.priors.reverse none
      Action.log (.closed win.priors.length)
      match first with
      | none => return .ok ()
      | some failure => return .error failure
    else return .ok ()

theorem restore_of_none {i : Nat} {p : Process η ν} (h : p.current.windows[i]? = none) :
    restore H i p = (.returned (.ok ()), p) := by
  rw [restore, Action.bind_of_returned (look_apply i p), h]
  rfl

/-- A window is restored at most once: one that is not standing is left as it is. -/
theorem restore_of_not_standing {i : Nat} {win : Window} {p : Process η ν}
    (h : p.current.windows[i]? = some win) (hs : win.status ≠ .standing) :
    restore H i p = (.returned (.ok ()), p) := by
  rw [restore, Action.bind_of_returned (look_apply i p), h]
  simp only [hs, if_false]
  rfl

/-- Gives a window up: it holds its values no longer. -/
def retire (i : Nat) : Action η ν Unit := do
  setStatus i .ended
  Action.change (Process.sweep H)

/-- Restores a window and gives it up, however the restoration ends; a failure is
reported by `report`. -/
def endWith (i : Nat) (report : Failure → LogEvent) : Action η ν Unit :=
  Action.ensuring
    (do match ← restore H i with
        | .ok () => pure ()
        | .error failure => Action.log (report failure))
    (retire H i)

/-- Ends a window, and answers the first failure of its restoration. -/
def close (i : Nat) : Action η ν (Except Failure Unit) :=
  Action.ensuring (restore H i) (retire H i)

/-- Ends a window that nobody closed; a failure is only logged. -/
def drop (i : Nat) : Action η ν Unit := endWith H i .dropFailed

/-- Ends the window of an installation that failed; a failure is only logged. -/
def discard (i : Nat) : Action η ν Unit := endWith H i .rollbackFailed

end Window

/-! ### Installing -/

namespace Snapshot

/-- Installs the entries that are left, the priors of those before being `priors`. -/
def installFrom (s : Snapshot) : List Entry → List Entry → Action η ν (Except Failure Nat)
  | [], priors => do
    Action.log (.installed priors.length)
    return .ok (← Window.add s priors)
  | e :: rest, priors => do
    let prior ← e.accessor.read H
    let priors := priors ++ [⟨e.accessor, prior⟩]
    Action.holding prior.toList do
      match ← e.accessor.write H e.value with
      | .ok () => installFrom s rest priors
      | .error failure =>
        Action.log (.installFailed e.key failure)
        Window.discard H (← Window.add s priors)
        return .error failure

/-- Installs the snapshot on the running thread and answers the number of the window. The
installation holds what it puts in place. -/
def install (s : Snapshot) : Action η ν (Except Failure Nat) :=
  Action.holding s.values (s.installFrom H s.entries [])

/-- Runs `body` with the snapshot installed, and ends the window however `body` ends.
Where `body` panics its panic goes on, whether the restoration failed or not. -/
def within (s : Snapshot) (body : Action η ν α) : Action η ν (Except Failure α) := do
  match ← s.install H with
  | .error failure => return .error failure
  | .ok i =>
    let exit ← Action.attempt body
    let closed ← Window.close H i
    match exit with
    | .panicked text => Action.panic text
    | .returned a => return closed.map fun _ => a

/-- What a function wrapped with the snapshot does when it is called. -/
def wrap (s : Snapshot) (body : Action η ν α) : Action η ν (Except Failure α) := s.within H body

variable {H} {s : Snapshot} {body : Action η ν α} {i : Nat} {p q r : Process η ν}

theorem within_of_returned {a : α} (hi : s.install H p = (.returned (.ok i), q))
    (hb : body q = (.returned a, r)) :
    s.within H body p = match Window.close H i r with
      | (.returned closed, r') => (.returned (closed.map fun _ => a), r')
      | (.panicked text, r') => (.panicked text, r') := by
  simp only [within, Action.bind_apply, hi, Action.attempt_apply, hb]
  rcases Window.close H i r with ⟨closed | text, r'⟩ <;> rfl

theorem within_of_panicked {text : String} (hi : s.install H p = (.returned (.ok i), q))
    (hb : body q = (.panicked text, r)) :
    s.within H body p = match Window.close H i r with
      | (.returned _, r') => (.panicked text, r')
      | (.panicked later, r') => (.panicked later, r') := by
  simp only [within, Action.bind_apply, hi, Action.attempt_apply, hb]
  rcases Window.close H i r with ⟨closed | text, r'⟩ <;> rfl

/-- However the body of a window ended, closing the window is the last thing that is done. -/
theorem within_snd {exit : Exit α} (hi : s.install H p = (.returned (.ok i), q))
    (hb : body q = (exit, r)) : (s.within H body p).2 = (Window.close H i r).2 := by
  cases exit with
  | returned a =>
    rw [within_of_returned hi hb]
    rcases Window.close H i r with ⟨closed | text, r'⟩ <;> rfl
  | panicked text =>
    rw [within_of_panicked hi hb]
    rcases Window.close H i r with ⟨closed | text, r'⟩ <;> rfl

end Snapshot

end Ambient
