import Ambient.Proofs.Coupling
import Ambient.Proofs.Polling

/-! Ways of running a body in a window. A body may be run inside a snapshot, as a function wrapped
with it, as the inner computation of a task at its first poll, or between the hooks of a bridge.
These ways log differently, and nobody looks at the log. Proved: all else comes out the same. Where
no accessor panics, either the installation fails, and so does every way without running the body;
or each runs it, restores the window in the same manner, and answers what the body answered unless
the restoration failed. -/

namespace Ambient

variable {η ν α : Type}

/-! ### States that differ in the log -/

/-- What has happened, the log left out. -/
def unlogged (h : List (Event ν)) : List (Event ν) := h.filter fun e => e.log?.isNone

theorem continues_unlogged : Event.Continues (unlogged : List (Event ν) → _) := by
  intro e h h' _ hh
  simp only [unlogged, List.filter_cons] at hh ⊢
  rw [hh]

/-- The states differ at most in what was logged. -/
abbrev Process.LogApart : Process η ν → Process η ν → Prop := Process.Same id unlogged

theorem Process.LogApart.logged (p : Process η ν) (e : LogEvent) :
    p.LogApart (p.record (.logged e)) := ⟨rfl, rfl, rfl, rfl, rfl, rfl, rfl, rfl⟩

/-- The same calls were made. -/
theorem Process.LogApart.calls {p q : Process η ν} (h : p.LogApart q) : q.calls = p.calls := by
  have hcalls : ∀ l : List (Event ν),
      l.filterMap Event.call? = (unlogged l).filterMap Event.call? := by
    intro l
    induction l with
    | nil => rfl
    | cons e rest ih =>
      cases e with
      | called call => exact congrArg (call :: ·) ih
      | _ => exact ih
  simp only [Process.calls, List.filterMap_reverse]
  rw [hcalls, hcalls p.history, show unlogged q.history = unlogged p.history from h.history]

/-- What the action does is the same whatever was logged. -/
def Action.Heedless (m : Action η ν α) : Prop := Action.Agree Process.LogApart m m

/-- The functions of the accessors do not look at the log. -/
structure Host.Heedless (H : Host η ν) : Prop where
  read : ∀ ref, (H.behaviour ref).read.Heedless
  write : ∀ ref v, ((H.behaviour ref).write v).Heedless
  clear : ∀ ref, (H.behaviour ref).clear.Heedless

theorem Host.Heedless.coupling {H : Host η ν} (hH : H.Heedless) :
    Coupling H H (fun _ => True) Process.LogApart :=
  Process.Same.coupling continues_unlogged rfl hH.read hH.write hH.clear

/-! ### Ways -/

/-- How a body is run in a window. -/
inductive Way where
  | within
  | wrapped
  /-- At the first poll of a task with this label. -/
  | polled (label : Option String)
  /-- Between the hooks of a bridge, which are called from these sites. -/
  | hooked (resumed suspended : CallSite)

namespace Way

/-- Runs the body that way. What it answers is told as a task tells it that is ready. -/
def run (H : Host η ν) (s : Snapshot) (body : Action η ν α) :
    Way → Action η ν (Except Failure (Progress α))
  | within => do return (← s.within H body).map .ready
  | wrapped => do return (← s.wrap H body).map .ready
  | polled label => (Task.poll H { bridge := ⟨s⟩, label } do return .ready (← body)).2
  | hooked resumed suspended => do
    match ← Bridge.resume H ⟨s⟩ resumed with
    | .error failure => return .error failure
    | .ok i =>
      let a ← body
      return (← Bridge.suspend H suspended i).map fun _ => .ready a

/-- Whether the way is one for bodies that end like this: between hooks, a body is to return. -/
def Takes (exit : Exit α) : Way → Prop
  | hooked _ _ => ∃ a, exit = .returned a
  | _ => True

/-- What comes of a body's end and of what the restoration answers. -/
def told : Exit α → Except Failure Unit → Exit (Except Failure (Progress α))
  | .returned a, restored => .returned (restored.map fun _ => .ready a)
  | .panicked text, _ => .panicked text

variable {H : Host η ν} {s : Snapshot} {body : Action η ν α} {p q r last : Process η ν}

/-- An action that does not look at the log goes the same from states that differ in it alone. -/
theorem follow {m m' : Action η ν α} (hm : Action.Agree Process.LogApart m m') (h : p.LogApart q)
    {exit : Exit α} (hp : m p = (exit, r)) : ∃ r', m' q = (exit, r') ∧ r.LogApart r' :=
  hm.follow h hp

theorem resume_of_install (hH : H.Heedless) {answer : Except Failure Nat}
    (hi : s.install H p = (.returned answer, q)) (site : CallSite) :
    ∃ q', Bridge.resume H ⟨s⟩ site p = (.returned answer, q') ∧ q.LogApart q' :=
  follow (hH.coupling.install fun _ _ => trivial) (.logged p _) hi

/-- Where the installation fails, every way fails, whatever the body is. -/
theorem run_of_refused (hH : H.Heedless) {failure : Failure}
    (hi : s.install H p = (.returned (.error failure), q)) (body : Action η ν α) (way : Way) :
    ∃ q', way.run H s body p = (.returned (.error failure), q') ∧ q.LogApart q' := by
  have hwithin : (do return (← s.within H body).map .ready : Action η ν (Except Failure (Progress α)))
      p = (.returned (.error failure), q) := by
    have hrefused : s.within H body p = (.returned (.error failure), q) := by
      rw [Snapshot.within, Action.bind_of_returned hi]
      rfl
    rw [Action.bind_of_returned hrefused]
    rfl
  cases way with
  | within => exact ⟨q, hwithin, .refl q⟩
  | wrapped => exact ⟨q, hwithin, .refl q⟩
  | polled label =>
    obtain ⟨q', hresume, hsame⟩ := resume_of_install hH hi ⟨label, 1⟩
    exact ⟨q', Task.poll_of_error hresume, hsame⟩
  | hooked resumed suspended =>
    obtain ⟨q', hresume, hsame⟩ := resume_of_install hH hi resumed
    refine ⟨q', ?_, hsame⟩
    rw [run, Action.bind_of_returned hresume]
    rfl

/-- Where the installation succeeds, every way runs the body once, and then ends the window. -/
theorem run_of_ran (hH : H.Heedless) (hbody : body.Heedless) {i : Nat} {exit : Exit α}
    {restored : Except Failure Unit} (hi : s.install H p = (.returned (.ok i), q))
    (hb : body q = (exit, r)) (hc : Window.close H i r = (.returned restored, last)) (way : Way)
    (hway : way.Takes exit) :
    ∃ last', way.run H s body p = (told exit restored, last') ∧ last.LogApart last' := by
  have hwithin : (do return (← s.within H body).map .ready : Action η ν (Except Failure (Progress α)))
      p = (told exit restored, last) := by
    rw [Action.bind_apply]
    cases exit with
    | returned a =>
      rw [Snapshot.within_of_returned hi hb, hc]
      cases restored <;> rfl
    | panicked text =>
      rw [Snapshot.within_of_panicked hi hb, hc]
      rfl
  -- between the hooks the window ends as it does inside the snapshot
  have hhooks : ∀ resumed suspended, ∃ q' r' last',
      Bridge.resume H ⟨s⟩ resumed p = (.returned (.ok i), q') ∧ body q' = (exit, r') ∧
        Bridge.suspend H suspended i r' = (.returned restored, last') ∧ last.LogApart last' := by
    intro resumed suspended
    obtain ⟨q', hresume, hq⟩ := resume_of_install hH hi resumed
    obtain ⟨r', hb', hr⟩ := follow hbody hq hb
    have hsuspending : r.LogApart (r'.record (.logged (.suspending suspended))) :=
      hr.trans (Process.LogApart.logged r' _)
    obtain ⟨last', hsuspend, hlast⟩ := follow (hH.coupling.close i) hsuspending hc
    exact ⟨q', r', last', hresume, hb', hsuspend, hlast⟩
  cases way with
  | within => exact ⟨last, hwithin, .refl last⟩
  | wrapped => exact ⟨last, hwithin, .refl last⟩
  | polled label =>
    obtain ⟨q', r', last', hresume, hb', hsuspend, hlast⟩ := hhooks ⟨label, 1⟩ ⟨label, 1⟩
    set t : Task := { bridge := ⟨s⟩, label, polls := 1 }
    set inner : Action η ν (Progress α) := do return .ready (← body)
    show ∃ last', t.window H inner p = _ ∧ _
    have hended : Bridge.suspend H t.site i r' = (.returned restored, last') := hsuspend
    cases exit with
    | returned a =>
      have hinner : inner q' = (.returned (.ready a), r') := Action.bind_of_returned hb' _
      rw [Task.window_of_returned hresume hinner, hended]
      cases restored with
      | ok => exact ⟨last', rfl, hlast⟩
      | error failure => exact ⟨_, rfl, hlast.trans (Process.LogApart.logged last' _)⟩
    | panicked text =>
      have hinner : inner q' = (.panicked text, r') := Action.bind_of_panicked hb' _
      rw [Task.window_of_panicked hresume hinner, hended]
      cases restored with
      | ok => exact ⟨last', rfl, hlast⟩
      | error failure => exact ⟨_, rfl, hlast.trans (Process.LogApart.logged last' _)⟩
  | hooked resumed suspended =>
    obtain ⟨a, rfl⟩ := hway
    obtain ⟨q', r', last', hresume, hb', hsuspend, hlast⟩ := hhooks resumed suspended
    refine ⟨last', ?_, hlast⟩
    rw [run, Action.bind_of_returned hresume]
    show (body >>= _) q' = _
    rw [Action.bind_of_returned hb', Action.bind_of_returned hsuspend]
    rfl

/-- All ways of running a body in a window agree, with accessors that fail as they like and do not
panic. If the installation fails, every way answers its failure, and comes to where the installation
came to: the body is not run, whatever it is. Otherwise every way runs a body in the same window,
and if that leaves the window alone, writes back what the window displaced and comes to the same
state but for the log. It answers what the body returned, or the first failure of the restoration in
its place; and a panic of the body goes on after the restoration. -/
theorem run_agree (hH : H.Heedless) (hs : ∀ e ∈ s.entries, e.accessor.Calm H) (p : Process η ν) :
    (∃ failure q, s.install H p = (.returned (.error failure), q) ∧
      ∀ (body : Action η ν α) (way : Way), ∃ q',
        way.run H s body p = (.returned (.error failure), q') ∧ q.LogApart q') ∨
    ∃ i q priors, s.install H p = (.returned (.ok i), q) ∧
      q.current.windows[i]? = some { snapshot := s, priors } ∧
      ∀ body : Action η ν α, body.Heedless →
        (body q).2.current.windows[i]? = q.current.windows[i]? →
        ∃ done r last, done.map (·.1) = priors.reverse ∧
          WrittenBack H ⟨(body q).2.here, i⟩ ((body q).2.marked i .closing) done r ∧
          last = ((r.record (.logged (.closed priors.length))).marked i .ended).sweep H ∧
          ∀ way : Way, way.Takes (body q).1 → ∃ last', way.run H s body p =
            (told (body q).1 (answerOf (firstFailure done)), last') ∧ last.LogApart last' := by
  obtain ⟨answer, q, hi, -, hopened⟩ := Snapshot.install_of_calm hs p
  cases answer with
  | error failure => exact .inl ⟨failure, q, hi, run_of_refused hH hi⟩
  | ok i =>
    obtain ⟨priors, hw, hc⟩ := hopened i rfl
    refine .inr ⟨i, q, priors, hi, hw, fun body hbody hleft => ?_⟩
    obtain ⟨done, r, hd, hback, -, hrestore⟩ := Window.restore_of_calm (hleft.trans hw) rfl hc
    have hclose : Window.close H i (body q).2 = (.returned (answerOf (firstFailure done)),
        ((r.record (.logged (.closed priors.length))).marked i .ended).sweep H) := by
      rw [Window.close_apply, hrestore]
    exact ⟨done, r, _, hd, hback, rfl, run_of_ran hH hbody hi rfl hclose⟩

theorem heedless_rack (place : Nat → Key)
    (answer : Nat → Option Value → Exit (Except Failure Unit)) :
    (rack (ν := ν) place answer).Heedless := by
  have hput : ∀ (ref : Nat) (content : Option Value), Action.Heedless (do
      Action.change fun p : Process (Table Value) ν =>
        { p with host := p.host.assign (place ref) content }
      Action.finish (answer ref content)) := by
    intro ref content p p' h
    exact ⟨rfl, h.here, h.waiting, h.threads, h.pinned, h.watchers,
      congrArg (·.assign (place ref) content) h.host, h.registries, h.history⟩
  refine ⟨fun ref => .inspect fun p p' h => ?_, fun ref v => hput ref (some v),
    fun ref => hput ref none⟩
  rw [h.host]

/-- An embedding program with a cell that says it cannot be cleared. -/
def clinging : Host (Table Value) Unit := rack (fun _ => "cell") fun _ content =>
  .returned (if content.isSome then .ok () else .error (.accessor "a" "stuck"))

/-- A value for the cell. -/
def laden : Snapshot where
  entries := [⟨.custom "a" 0, some ⟨.numbered 0, .unit⟩⟩]

/-- Reads the cell. -/
def peek : Action (Table Value) Unit (Option Value) := (Accessor.custom "a" 0).read clinging

def bare : Process (Table Value) Unit := { here := "main", host := .empty }

/-- At a first poll and between hooks, as inside the snapshot, what the body read is lost, since the
cell cannot be cleared in the end; and the same calls are made. -/
theorem run_agree_clinging : ∃ inside polled hooked,
    Way.within.run clinging laden peek bare =
      (.returned (.error (.accessor "a" "stuck")), inside) ∧
    (Way.polled none).run clinging laden peek bare =
      (.returned (.error (.accessor "a" "stuck")), polled) ∧
    (Way.hooked {} {}).run clinging laden peek bare =
      (.returned (.error (.accessor "a" "stuck")), hooked) ∧
    polled.calls = inside.calls ∧ hooked.calls = inside.calls := by
  have hcalm : ∀ a : Accessor, a.Calm clinging := calm_rack fun _ _ => ⟨_, rfl⟩
  have hheedless : clinging.Heedless := heedless_rack _ _
  have hpeek : peek.Heedless := hheedless.coupling.readAccessor trivial
  have hinstalled : laden.install clinging bare = (.returned (.ok 0), _) := rfl
  have hrun : Way.within.run clinging laden peek bare =
      (.returned (.error (.accessor "a" "stuck")), _) := rfl
  obtain ⟨failure, q, hi, -⟩ | ⟨i, q, priors, -, -, hran⟩ :=
    run_agree hheedless (fun e _ => hcalm e.accessor) bare
  · exact absurd (congrArg Prod.fst (hi.symm.trans hinstalled)) (by simp)
  · obtain ⟨done, r, last, -, -, -, hways⟩ := hran peek hpeek rfl
    obtain ⟨inside, hinside, hsame⟩ := hways .within trivial
    obtain ⟨polled, hpolled, hpolls⟩ := hways (.polled none) trivial
    obtain ⟨hooked, hhooked, hhooks⟩ := hways (.hooked {} {}) ⟨_, rfl⟩
    have htold := congrArg Prod.fst (hinside.symm.trans hrun)
    refine ⟨inside, polled, hooked, hinside.trans (Prod.ext htold rfl),
      hpolled.trans (Prod.ext htold rfl), hhooked.trans (Prod.ext htold rfl), ?_, ?_⟩
    · rw [hpolls.calls, hsame.calls]
    · rw [hhooks.calls, hsame.calls]

end Way

end Ambient
