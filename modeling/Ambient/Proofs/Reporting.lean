import Ambient.Proofs.Interruption
import Ambient.Proofs.Rollback

/-! What becomes of a restoration's failures. A restoration that met failures answers the first
of them, and whoever set it off hands that on to its caller, or logs a warning of it. There is
one exception: a body that panics inside a snapshot takes the place of what the restoration
answers, and there is no warning. Proved: for each way in which a restoration is set off,
whether its first failure is handed on or warned of. Restorations that panic are left to other
modules. -/

namespace Ambient

variable {η ν : Type} (H : Host η ν)

/-! ### The log -/

/-- The log event that an event is. -/
def Event.log? : Event ν → Option LogEvent
  | .logged event => some event
  | _ => none

/-- The event is a warning whose error is the failure. -/
def LogEvent.Warns (failure : Failure) (e : LogEvent) : Prop :=
  e.parts.1 = "WARN" ∧ ("error", failure.message) ∈ e.parts.2.2

namespace Process

/-- What was logged, first to last. -/
def logs (p : Process η ν) : List LogEvent := p.history.reverse.filterMap Event.log?

@[simp] theorem logs_record (p : Process η ν) (e : Event ν) :
    (p.record e).logs = p.logs ++ e.log?.toList := by
  rw [logs, logs, record, List.reverse_cons, List.filterMap_append]
  cases h : e.log? <;> simp [h]

@[simp] theorem logs_unhold (p : Process η ν) (n : Nat) : (p.unhold n).logs = p.logs := rfl

@[simp] theorem logs_marked (p : Process η ν) (i : Nat) (status : WindowStatus) :
    (p.marked i status).logs = p.logs := rfl

/-- Releasing values logs nothing. -/
@[simp] theorem logs_sweep (p : Process η ν) : (p.sweep H).logs = p.logs := by
  have hnone : ∀ gone : List Value, (gone.map p.releaseEvent).filterMap Event.log? = [] := by
    intro gone
    induction gone with
    | nil => rfl
    | cons v rest ih => simp [releaseEvent, Event.log?]
  simp only [logs, sweep, List.reverse_append, List.reverse_reverse, List.filterMap_append, hnone,
    List.append_nil]

end Process

/-! ### Ways in which a restoration is set off -/

/-- What sets a restoration off. -/
inductive Trigger where
  | close
  | drop
  | suspend
  /-- An installation that failed. -/
  | rollback
  /-- The end of a body inside a snapshot, by a panic or not. -/
  | within (panicked : Bool)
  /-- The end of the inner computation of a poll, by a panic or not. -/
  | poll (panicked : Bool)
  deriving DecidableEq, Repr

/-- The failure that an action answers, if it answers one. -/
def Exit.failure? {α : Type} : Exit (Except Failure α) → Option Failure
  | .returned (.error failure) => some failure
  | _ => none

/-- The window `i` ends: its restoration begins in `p`, and in the end the state is the last one
and the caller was answered the failure told, if one. -/
inductive Concludes : Nat → Trigger → Process η ν → Option Failure → Process η ν → Prop
  | close (i p) :
      Concludes i .close p (Window.close H i p).1.failure? (Window.close H i p).2
  | drop (i p) : Concludes i .drop p none (Window.drop H i p).2
  | suspend (i site p) : Concludes i .suspend (p.record (.logged (.suspending site)))
      (Bridge.suspend H site i p).1.failure? (Bridge.suspend H site i p).2
  | rollback {s : Snapshot} {p : Process η ν} {failure : Failure} (f : s.Failing H p failure) :
      Concludes f.index .rollback f.opened (s.install H p).1.failure? (s.install H p).2
  | within {α : Type} {s : Snapshot} {body : Action η ν α} {exit : Exit α} {i p q r}
      (hi : s.install H p = (.returned (.ok i), q)) (hb : body q = (exit, r)) :
      Concludes i (.within exit.panic?.isSome) r
        (s.within H body p).1.failure? (s.within H body p).2
  | poll {ω : Type} {t : Task} {inner : Action η ν (Progress ω)} {exit : Exit (Progress ω)}
      {i p q r} (hi : t.advance.bridge.resume H t.advance.site p = (.returned (.ok i), q))
      (hb : inner q = (exit, r)) :
      Concludes i (.poll exit.panic?.isSome) (r.record (.logged (.suspending t.advance.site)))
        ((t.poll H inner).2 p).1.failure? ((t.poll H inner).2 p).2

variable {H} {i : Nat} {p q last : Process η ν} {failure : Failure} {answer : Option Failure}
  {trigger : Trigger}

/-- An installation that fails at an entry comes to the discarding of its window. -/
theorem Snapshot.Failing.install_eq {s : Snapshot} (f : s.Failing H p failure) :
    ∃ n, s.install H p = (match (Window.discard H f.index f.opened).1 with
        | .returned () => .returned (.error failure)
        | .panicked text => .panicked text,
      (Window.discard H f.index f.opened).2.unhold n) := by
  obtain ⟨n, hn⟩ := installFrom_of_placed (s := s) f.placed (f.entry :: f.after) []
  rw [List.nil_append, ← f.split, installFrom_of_error f.read f.write] at hn
  refine ⟨f.prior.toList.length + n + s.values.length, ?_⟩
  rw [install, Action.holding_apply, hn]
  simp only [Process.unhold_unhold]
  rfl

/-! ### Whether a failure is heard of -/

/-- A restoration has answered a failure in `q`. Unless it ended the window of a body that
panicked, its failure is answered in turn or warned of. -/
theorem Concludes.reported (h : Concludes H i trigger p answer last)
    (hr : Window.restore H i p = (.returned (.error failure), q)) :
    ∃ told, last.logs = q.logs ++ told ∧
      ((answer = some failure ∨ ∃ e ∈ told, e.Warns failure) ↔ trigger ≠ .within true) := by
  have hclose : Window.close H i p = (.returned (.error failure), (q.marked i .ended).sweep H) := by
    rw [Window.close_apply, hr]
  have hend : ∀ report, Window.endWith H i report p =
      (.returned (), ((q.record (.logged (report failure))).marked i .ended).sweep H) := by
    intro report
    rw [Window.endWith_apply, hr]
  cases h with
  | close i p =>
    rw [hclose]
    exact ⟨[], by simp, by simp [Exit.failure?]⟩
  | drop i p =>
    rw [Window.drop, hend]
    refine ⟨[.dropFailed failure], by simp [Event.log?], ?_⟩
    simp [LogEvent.Warns, LogEvent.parts]
  | suspend i site p =>
    rw [Bridge.suspend_apply, hclose]
    exact ⟨[], by simp, by simp [Exit.failure?]⟩
  | rollback f =>
    obtain ⟨n, hn⟩ := f.install_eq
    rw [hn, Window.discard, hend]
    refine ⟨[.rollbackFailed failure], by simp [Event.log?], ?_⟩
    simp [LogEvent.Warns, LogEvent.parts]
  | @within _ _ _ exit _ _ _ _ hi hb =>
    cases exit with
    | returned a =>
      rw [Snapshot.within_of_returned hi hb, hclose]
      exact ⟨[], by simp, by simp [Exit.failure?, Exit.panic?, Except.map]⟩
    | panicked text =>
      -- the panic goes on, and what closing answered is not looked at
      rw [Snapshot.within_of_panicked hi hb, hclose]
      exact ⟨[], by simp, by simp [Exit.failure?, Exit.panic?]⟩
  | @poll _ t _ exit _ _ _ r hi hb =>
    have hsuspend : Bridge.suspend H t.advance.site i r =
        (.returned (.error failure), (q.marked i .ended).sweep H) := by
      rw [Bridge.suspend_apply, hclose]
    cases exit with
    | returned progress =>
      have hwindow := Task.window_of_returned hi hb
      rw [hsuspend] at hwindow
      simp only [Task.poll, hwindow]
      refine ⟨if progress.isReady then [.discarding t.advance.site failure] else [], ?_, ?_⟩
      · cases progress <;> simp [Progress.isReady, Event.log?]
      · simp [Exit.failure?]
    | panicked text =>
      have hwindow := Task.window_of_panicked hi hb
      rw [hsuspend] at hwindow
      simp only [Task.poll, hwindow]
      refine ⟨[.unwindFailed failure], by simp [Event.log?], ?_⟩
      simp [LogEvent.Warns, LogEvent.parts]

namespace Window

/-- A restoration, whatever set it off, in which no accessor panicked and some failed. The first
failure is answered to the caller or is the error of a warning that is logged when the
restoration is through, exactly if what set it off is not a panic of a body inside a
snapshot. -/
theorem reported_of_failure {win : Window} {done : List (Entry × Except Failure Unit)}
    (hw : p.current.windows[i]? = some win) (hs : win.status = .standing)
    (hd : done.map (·.1) = win.priors.reverse)
    (hback : WrittenBack H ⟨p.here, i⟩ (p.marked i .closing) done q)
    (hf : firstFailure done = some failure) (h : Concludes H i trigger p answer last) :
    ∃ told, last.logs = q.logs ++ told ∧
      ((answer = some failure ∨ ∃ e ∈ told, e.Warns failure) ↔ trigger ≠ .within true) := by
  have hrestore := restore_of_writtenBack hw hs hd hback
  rw [hf] at hrestore
  obtain ⟨told, htold, hiff⟩ := h.reported hrestore
  refine ⟨.closed win.priors.length :: told, by simp [htold, Event.log?], ?_⟩
  rw [← hiff]
  simp [LogEvent.Warns, LogEvent.parts]

/-- An embedding program with one cell, which cannot be cleared. -/
def sticky : Host (Table Value) Unit :=
  rack (fun _ => "cell") fun _ content =>
    if content = none then .returned (.error (.accessor "a" "stuck")) else .returned (.ok ())

/-- Its key. -/
def single : Snapshot where
  entries := [⟨.custom "a" 0, some ⟨.numbered 0, .unit⟩⟩]

/-- The cell was empty before the body, which panics, and cannot be cleared after it. Nobody is
told. -/
theorem reported_of_failure_sticky :
    ∃ r q last told, single.within sticky (Action.panic "left" : Action _ _ Unit)
        { here := "main", host := .empty } = (.panicked "left", last) ∧
      WrittenBack sticky ⟨"main", 0⟩ r
        [(⟨.custom "a" 0, none⟩, .error (.accessor "a" "stuck"))] q ∧
      last.logs = q.logs ++ told ∧ ∀ e ∈ told, ¬ e.Warns (.accessor "a" "stuck") := by
  have hi : single.install sticky { here := "main", host := .empty } = (.returned (.ok 0), _) := rfl
  have hend := Concludes.within hi (show (Action.panic "left" : Action _ _ Unit) _ = _ from rfl)
  have hback : WrittenBack sticky ⟨"main", 0⟩
      ((single.install sticky { here := "main", host := .empty }).2.marked 0 .closing)
      [(⟨.custom "a" 0, none⟩, .error (.accessor "a" "stuck"))] _ := .error rfl (.nil _)
  obtain ⟨told, htold, hiff⟩ := reported_of_failure rfl rfl rfl hback rfl hend
  refine ⟨_, _, _, told, rfl, hback, htold, fun e he hwarns => ?_⟩
  exact hiff.1 (.inr ⟨e, he, hwarns⟩) rfl

end Window

end Ambient
