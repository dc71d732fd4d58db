import Ambient.Proofs.Reporting

/-! Polls of a task, one after another, each on some thread, while other code does what it likes
in between. Accessors may fail at any time but do not panic, and the inner computation of a poll
has no hold of the poll's window. Proved: how polls are counted and numbered in the log, when
the inner computation is run and what it finds, what a poll answers, and that on cells which do
not fail it leaves nothing of the snapshot behind, by whichever exit. -/

namespace Ambient

variable {η ν ω κ : Type} (H : Host η ν)

/-! ### Accessors that do not panic -/

/-- The functions always return, and strike nothing from the log. -/
structure Behaviour.Calm (b : Behaviour η ν) : Prop where
  read : ∀ p, ∃ content q, b.read p = (.returned content, q) ∧ p.logs <+: q.logs
  write : ∀ v p, ∃ answer q, b.write v p = (.returned answer, q) ∧ p.logs <+: q.logs
  clear : ∀ p, ∃ answer q, b.clear p = (.returned answer, q) ∧ p.logs <+: q.logs

/-- The accessor never panics, and strikes nothing from the log. -/
structure Accessor.Calm (a : Accessor) : Prop where
  read : ∀ p, ∃ content q, a.read H p = (.returned content, q) ∧ p.logs <+: q.logs
  write : ∀ content restoring p, ∃ answer q,
    a.write H content restoring p = (.returned answer, q) ∧ p.logs <+: q.logs

@[simp] theorem Process.logs_hold (p : Process η ν) (values : List Value) :
    (p.hold values).logs = p.logs := rfl

@[simp] theorem Process.logs_modifyCurrent (p : Process η ν) (f : Thread → Thread) :
    (p.modifyCurrent f).logs = p.logs := rfl

theorem Accessor.calm_slot (k : Key) : (slot k).Calm H := by
  refine ⟨fun p => ⟨_, _, read_slot H k p, by simp [Event.log?]⟩, fun content restoring p => ?_⟩
  set call : Call := { accessor := slot k, request := .write content, restoring }
  rw [write_slot]
  cases hs : (p.record (.called call)).current.storage with
  | destroyed => exact ⟨_, _, Slot.write_destroyed H hs k content, by simp [Event.log?]⟩
  | live slots => exact ⟨_, _, Slot.write_live H hs k content, by simp [Event.log?]⟩

variable {H} in
theorem Accessor.calm_custom {ref : Nat} (h : (H.behaviour ref).Calm) (k : Key) :
    (custom k ref).Calm H := by
  constructor
  · intro p
    obtain ⟨content, q, hq, hlogs⟩ :=
      h.read (p.record (.called { accessor := custom k ref, request := .read }))
    exact ⟨content, q, hq, by simpa [Event.log?] using hlogs⟩
  · intro content restoring p
    set call : Call := { accessor := custom k ref, request := .write content, restoring }
    have hthen : ∀ m : Action η ν (Except Failure Unit),
        (∃ answer q, m (p.record (.called call)) = (.returned answer, q) ∧
          (p.record (.called call)).logs <+: q.logs) →
        ∃ answer q, Action.ensuring m (Action.change (Process.sweep H)) (p.record (.called call)) =
          (.returned answer, q) ∧ p.logs <+: q.logs := by
      rintro m ⟨answer, q, hq, hlogs⟩
      exact ⟨answer, q.sweep H, by rw [Action.ensuring_apply, hq], by simpa [Event.log?] using hlogs⟩
    cases content with
    | none => exact hthen _ (h.clear _)
    | some v => exact hthen _ (h.write v _)

theorem calm_rack {place : Nat → Key} {answer : Nat → Option Value → Exit (Except Failure Unit)}
    (h : ∀ ref content, ∃ told, answer ref content = .returned told) (a : Accessor) :
    a.Calm (rack (ν := ν) place answer) := by
  cases a with
  | slot k => exact Accessor.calm_slot _ k
  | custom k ref =>
    have hput : ∀ content (p : Process (Table Value) ν), ∃ told q,
        (answer ref content, { p with host := p.host.assign (place ref) content }) =
          (.returned told, q) ∧ p.logs <+: q.logs := by
      intro content p
      obtain ⟨told, htold⟩ := h ref content
      exact ⟨told, _, Prod.ext htold rfl, List.prefix_rfl⟩
    exact Accessor.calm_custom ⟨fun p => ⟨_, p, rfl, List.prefix_rfl⟩, fun v => hput (some v),
      hput none⟩ k

variable {H}

namespace Accessor.Calm

variable {a : Accessor} {p q : Process η ν}

theorem logs_of_read {exit : Exit (Option Value)} (h : a.Calm H) (hr : a.read H p = (exit, q)) :
    p.logs <+: q.logs := by
  obtain ⟨content, r, hr', hlogs⟩ := h.read p
  obtain rfl : q = r := congrArg Prod.snd (hr.symm.trans hr')
  exact hlogs

theorem logs_of_write {content : Option Value} {restoring : Option WindowRef}
    {exit : Exit (Except Failure Unit)} (h : a.Calm H)
    (hw : a.write H content restoring p = (exit, q)) : p.logs <+: q.logs := by
  obtain ⟨answer, r, hw', hlogs⟩ := h.write content restoring p
  obtain rfl : q = r := congrArg Prod.snd (hw.symm.trans hw')
  exact hlogs

end Accessor.Calm

/-! ### Installing and restoring where nothing panics -/

theorem Placed.logs {p q : Process η ν} {l priors : List Entry} (h : Placed H p l priors q)
    (hl : ∀ e ∈ l, e.accessor.Calm H) : p.logs <+: q.logs := by
  induction h with
  | nil p => exact List.prefix_rfl
  | @cons p p₁ p₂ q e l prior priors hr hw _ ih =>
    have hcalm := hl e List.mem_cons_self
    have hread := hcalm.logs_of_read hr
    have hwrite := hcalm.logs_of_write hw
    rw [Process.logs_hold] at hwrite
    exact (hread.trans hwrite).trans (ih fun d hd => hl d (List.mem_cons_of_mem _ hd))

theorem WrittenBack.logs {ref : WindowRef} {p q : Process η ν}
    {done : List (Entry × Except Failure Unit)} (h : WrittenBack H ref p done q)
    (hd : ∀ d ∈ done, d.1.accessor.Calm H) : p.logs <+: q.logs := by
  induction h with
  | nil p => exact List.prefix_rfl
  | @ok p p₁ q e done hw _ ih =>
    have hwrite := (hd _ List.mem_cons_self).logs_of_write hw
    exact hwrite.trans (ih fun d hd' => hd d (List.mem_cons_of_mem _ hd'))
  | @error p p₁ q e done failure hw _ ih =>
    have hwrite := (hd _ List.mem_cons_self).logs_of_write hw
    have hrest := ih fun d hd' => hd d (List.mem_cons_of_mem _ hd')
    rw [Process.logs_record] at hrest
    exact hwrite.trans ((List.prefix_append ..).trans hrest)

namespace Window

variable {i : Nat} {win : Window} {p : Process η ν}

/-- A window that stands is restored to the end where no accessor panics. -/
theorem restore_of_calm (hw : p.current.windows[i]? = some win) (hs : win.status = .standing)
    (hc : ∀ e ∈ win.priors, e.accessor.Calm H) :
    ∃ done q, done.map (·.1) = win.priors.reverse ∧
      WrittenBack H ⟨p.here, i⟩ (p.marked i .closing) done q ∧ p.logs <+: q.logs ∧
      restore H i p = (.returned (answerOf (firstFailure done)),
        q.record (.logged (.closed win.priors.length))) := by
  rcases writtenBack_or_panics (H := H) ⟨p.here, i⟩ win.priors.reverse (p.marked i .closing) with
    ⟨done, q, hd, hback⟩ | ⟨done, x, rest, q, text, q', hd, -, hx⟩
  · refine ⟨done, q, hd, hback, ?_, restore_of_writtenBack hw hs hd hback⟩
    refine hback.logs fun d hd' => hc d.1 (List.mem_reverse.1 ?_)
    rw [← hd]
    exact List.mem_map_of_mem hd'
  · obtain ⟨answer, r, hanswer, -⟩ := (hc x (List.mem_reverse.1 (by simp [hd]))).write _ _ q
    exact absurd (hx.symm.trans hanswer) (by simp)

theorem discard_of_calm (hw : p.current.windows[i]? = some win) (hs : win.status = .standing)
    (hc : ∀ e ∈ win.priors, e.accessor.Calm H) :
    ∃ q, discard H i p = (.returned (), q) ∧ p.logs <+: q.logs := by
  obtain ⟨done, q, -, -, hlogs, hrestore⟩ := restore_of_calm hw hs hc
  rw [discard, endWith_apply, hrestore]
  cases firstFailure done with
  | none => exact ⟨_, rfl, hlogs.trans (by simp)⟩
  | some failure => exact ⟨_, rfl, hlogs.trans (by simp)⟩

end Window

namespace Snapshot

/-- An installation returns where no accessor panics, and if it succeeds, the window that it
opened stands. -/
theorem install_of_calm {s : Snapshot} (hs : ∀ e ∈ s.entries, e.accessor.Calm H)
    (p : Process η ν) :
    ∃ answer q, s.install H p = (.returned answer, q) ∧ p.logs <+: q.logs ∧
      ∀ i, answer = .ok i → ∃ priors, q.current.windows[i]? = some { snapshot := s, priors } ∧
        ∀ e ∈ priors, e.accessor.Calm H := by
  rcases placed_or_stops s.entries (p.hold s.values) with
    ⟨priors, q, h⟩ | ⟨before, x, after, priors, q, hsplit, h, hx⟩
  · obtain ⟨n, hn⟩ := install_of_placed h
    refine ⟨_, _, hn, (h.logs hs).trans ?_, ?_⟩
    · simp [Process.opened]
    · rintro i hi
      obtain rfl : _ = i := by simpa using hi
      exact ⟨priors, (q.record _).window_opened s priors, h.forall_accessor.2 hs⟩
  · have hbefore : ∀ e ∈ before, e.accessor.Calm H := by
      intro e he
      exact hs e (by simp [hsplit, he])
    have hcalm : x.accessor.Calm H := hs x (by simp [hsplit])
    obtain ⟨content, r, hr, hread⟩ := hcalm.read q
    obtain ⟨answer, r', hw, hwrite⟩ := hcalm.write x.value none (r.hold content.toList)
    cases hx with
    | read hr' => exact absurd (hr'.symm.trans hr) (by simp)
    | @write prior q₁ hr' hw' =>
      obtain ⟨rfl, rfl⟩ : prior = content ∧ q₁ = r := by simpa using hr'.symm.trans hr
      cases answer with
      | ok => exact absurd (congrArg Prod.fst hw) hw'
      | error failure =>
        let f : s.Failing H p failure :=
          ⟨before, x, after, hsplit, priors, q, h, prior, q₁, hr, r', hw⟩
        have hpriors : ∀ e ∈ f.priors ++ [f.displaced], e.accessor.Calm H := by
          intro e he
          rcases List.mem_append.1 he with he | he
          · exact h.forall_accessor.2 hbefore e he
          · rw [List.mem_singleton.1 he]
            exact hcalm
        obtain ⟨t, hdiscard, hlogs⟩ := Window.discard_of_calm f.window_opened rfl hpriors
        obtain ⟨n, hn⟩ := f.install_eq
        rw [hdiscard] at hn
        refine ⟨_, _, hn, ?_, fun i hi => absurd hi (by simp)⟩
        have hopened : q₁.logs <+: f.opened.logs := by
          refine hwrite.trans ?_
          simp [Snapshot.Failing.opened, Process.opened, f]
        exact (((h.logs hbefore).trans hread).trans hopened).trans hlogs

end Snapshot

/-! ### Visits -/

/-- A poll of a task: what other code makes of the process before it, the thread that it is on,
and what the inner computation does. -/
structure Visit (η ν ω : Type) where
  meanwhile : Process η ν → Process η ν
  thread : ThreadName
  inner : Action η ν (Progress ω)

namespace Process

/-- What other code makes of `p` while the window `i` is in nobody's hands but its owner's: the
same thread runs in `q`, it has slots as before, and that window is as it was. -/
structure Spares (i : Nat) (p q : Process η ν) : Prop where
  here : q.here = p.here
  live : q.current.storage.isLive = p.current.storage.isLive
  window : q.current.windows[i]? = p.current.windows[i]?

end Process

/-- The event warns that the context of a poll could not be restored. -/
inductive LogEvent.Regrets (site : CallSite) : LogEvent → Prop
  | discarding (failure : Failure) : Regrets site (.discarding site failure)
  | unwindFailed (failure : Failure) : Regrets site (.unwindFailed failure)

namespace Task

variable (H) in
/-- The task and the process after polls, however each of them ended. -/
def visited : List (Visit η ν ω) → Task → Process η ν → Task × Process η ν
  | [], t, p => (t, p)
  | v :: rest, t, p =>
    visited rest (t.poll H v.inner).1
      (Action.onThread v.thread (t.poll H v.inner).2 (v.meanwhile p)).2

theorem visited_fst (visits : List (Visit η ν ω)) (t : Task) (p : Process η ν) :
    (visited H visits t p).1 = { t with polls := t.polls + .ofNat visits.length } := by
  induction visits generalizing t p with
  | nil => simp [visited]
  | cons v rest ih =>
    rw [visited, ih, List.length_cons, Nat.add_comm rest.length 1, UInt64.ofNat_add,
      ← UInt64.add_assoc]
    rfl

theorem toNat_polls_visited (visits : List (Visit η ν ω)) (t : Task) (p : Process η ν) :
    (visited H visits t p).1.polls.toNat = (t.polls.toNat + visits.length) % UInt64.size := by
  rw [visited_fst, UInt64.toNat_add, UInt64.toNat_ofNat', Nat.add_mod_mod]

/-! ### One poll -/

variable (H) in
/-- What a poll does when its inner computation has ended. -/
def conclude (t : Task) (i : Nat) : Exit (Progress ω) → Action η ν (Except Failure (Progress ω))
  | .panicked text => t.unwind H i text
  | .returned progress => do
    match ← Bridge.suspend H t.site i with
    | .ok () => return .ok progress
    | .error failure =>
      if progress.isReady then Action.log (.discarding t.site failure)
      return .error failure

/-- How a poll comes to an end that ran its inner computation in the window `i`, and what the
caller is told. -/
structure Concluded (H : Host η ν) (site : CallSite) (i : Nat) (win : Window)
    (ran : Exit (Progress ω) × Process η ν)
    (told : Exit (Except Failure (Progress ω)) × Process η ν) : Prop where
  logged : ∃ later, told.2.logs = ran.2.logs ++ .suspending site :: later
  restored : ∃ done r, done.map (·.1) = win.priors.reverse ∧
    WrittenBack H ⟨ran.2.here, i⟩ ((ran.2.record (.logged (.suspending site))).marked i .closing)
      done r ∧
    told.1 = match ran.1 with
      | .returned progress => .returned ((answerOf (firstFailure done)).map fun _ => progress)
      | .panicked text => .panicked text

/-- A poll which begins in `p`, and does what `call` tells with each inner computation. Either its
installation fails, and the inner computation is not run; or it is run once, in the state that
the installation leads to. -/
inductive RunsOnce (H : Host η ν) (s : Snapshot) (site : CallSite) (p : Process η ν)
    (call : Action η ν (Progress ω) → Exit (Except Failure (Progress ω)) × Process η ν) : Prop
  | refused {failure q later}
      (hi : s.install H (p.record (.logged (.resuming site))) = (.returned (.error failure), q))
      (hlogs : q.logs = p.logs ++ .resuming site :: later)
      (hcall : ∀ inner, call inner = (.returned (.error failure), q))
  | ran {i q win later}
      (after : Exit (Progress ω) × Process η ν → Exit (Except Failure (Progress ω)) × Process η ν)
      (hi : s.install H (p.record (.logged (.resuming site))) = (.returned (.ok i), q))
      (hlogs : q.logs = p.logs ++ .resuming site :: later)
      (hw : q.current.windows[i]? = some win)
      (hcall : ∀ inner, call inner = after (inner q))
      (hafter : ∀ ran, q.Spares i ran.2 → Concluded H site i win ran (after ran))

variable {t : Task} {inner : Action η ν (Progress ω)} {i : Nat} {p q r : Process η ν}

theorem poll_of_error {failure : Failure}
    (hi : t.bridge.snapshot.install H (p.record (.logged (.resuming t.advance.site))) =
      (.returned (.error failure), q)) :
    (t.poll H inner).2 p = (.returned (.error failure), q) := by
  rw [← bridge_advance t, ← Bridge.resume_apply] at hi
  change t.advance.window H inner p = _
  rw [window, Action.bind_of_returned hi]
  rfl

theorem poll_of_ok
    (hi : t.bridge.snapshot.install H (p.record (.logged (.resuming t.advance.site))) =
      (.returned (.ok i), q)) :
    (t.poll H inner).2 p = t.advance.conclude H i (inner q).1 (inner q).2 := by
  rw [← bridge_advance t, ← Bridge.resume_apply] at hi
  change t.advance.window H inner p = _
  rw [window, Action.bind_of_returned hi]
  simp only [Action.bind_apply, Action.attempt_apply]
  rcases inner q with ⟨progress | text, r⟩ <;> rfl

theorem poll_of_panicked {text : String}
    (hi : t.bridge.snapshot.install H (p.record (.logged (.resuming t.advance.site))) =
      (.panicked text, q)) : (t.poll H inner).2 p = (.panicked text, q) := by
  rw [← bridge_advance t, ← Bridge.resume_apply] at hi
  change t.advance.window H inner p = _
  rw [window, Action.bind_of_panicked hi]

/-- Where a poll leads whose inner computation has ended: to the restoration of the window, and to a
warning at most. -/
theorem conclude_snd (t : Task) (i : Nat) (exit : Exit (Progress ω)) (q : Process η ν) :
    (t.conclude H i exit q).2 = (Bridge.suspend H t.site i q).2 ∨
      ∃ e : LogEvent, e.Regrets t.site ∧
        (t.conclude H i exit q).2 = (Bridge.suspend H t.site i q).2.record (.logged e) := by
  cases exit with
  | returned progress =>
    rw [conclude, Action.bind_apply]
    rcases Bridge.suspend H t.site i q with ⟨(failure | ⟨⟩) | text, r⟩
    · cases progress with
      | pending => exact .inl rfl
      | ready output => exact .inr ⟨_, .discarding failure, rfl⟩
    · exact .inl rfl
    · exact .inl rfl
  | panicked text =>
    rw [conclude, unwind, Action.bind_apply, Action.attempt_apply]
    rcases Bridge.suspend H t.site i q with ⟨(failure | ⟨⟩) | text, r⟩
    · exact .inr ⟨_, .unwindFailed failure, rfl⟩
    · exact .inl rfl
    · exact .inl rfl

/-- What a poll answers is settled by how its inner computation ended and by what the restoration
answered. -/
theorem conclude_fst {answer : Option Failure} (exit : Exit (Progress ω))
    (hs : Bridge.suspend H t.site i q = (.returned (answerOf answer), r)) :
    (t.conclude H i exit q).1 = match exit with
      | .returned progress => .returned ((answerOf answer).map fun _ => progress)
      | .panicked text => .panicked text := by
  cases exit with
  | returned progress =>
    rw [conclude, Action.bind_of_returned hs]
    rcases answer with _ | failure
    · rfl
    · cases progress <;> rfl
  | panicked text =>
    simp only [conclude, unwind, Action.bind_apply, Action.attempt_apply, hs]
    cases answer <;> rfl

/-- A poll whose inner computation has left its window alone puts back what that displaced. -/
theorem concluded_of_spares {win : Window} (hw : q.current.windows[i]? = some win)
    (hs : win.status = .standing) (hc : ∀ e ∈ win.priors, e.accessor.Calm H)
    {ran : Exit (Progress ω) × Process η ν} (hspares : q.Spares i ran.2) :
    Concluded H t.site i win ran (t.conclude H i ran.1 ran.2) := by
  have hw' : (ran.2.record (.logged (.suspending t.site))).current.windows[i]? = some win := by
    rw [Process.current_record, hspares.window, hw]
  obtain ⟨done, r, hd, hback, ⟨more, hmore⟩, hrestore⟩ := Window.restore_of_calm hw' hs hc
  set closed := r.record (.logged (.closed win.priors.length))
  have hsuspend : Bridge.suspend H t.site i ran.2 =
      (.returned (answerOf (firstFailure done)), (closed.marked i .ended).sweep H) := by
    rw [Bridge.suspend_apply, Window.close_apply, hrestore]
  have hlogs : ((closed.marked i .ended).sweep H).logs =
      ran.2.logs ++ .suspending t.site :: (more ++ [.closed win.priors.length]) := by
    simp [closed, ← hmore, Event.log?]
  have htold := conclude_fst ran.1 hsuspend
  have hlast := t.conclude_snd (H := H) i ran.1 ran.2
  rw [hsuspend] at hlast
  rcases hlast with hlast | ⟨e, -, hlast⟩
  · exact ⟨⟨_, by rw [hlast, hlogs]⟩, done, r, hd, hback, htold⟩
  · refine ⟨⟨more ++ [.closed win.priors.length, e], ?_⟩, done, r, hd, hback, htold⟩
    rw [hlast, Process.logs_record, hlogs]
    simp [Event.log?]

/-- A poll runs its inner computation once if its installation succeeds, and else not at all. -/
theorem runsOnce_of_calm (hs : ∀ e ∈ t.bridge.snapshot.entries, e.accessor.Calm H)
    (p : Process η ν) :
    RunsOnce H t.bridge.snapshot t.advance.site p fun inner : Action η ν (Progress ω) =>
      (t.poll H inner).2 p := by
  obtain ⟨answer, q, hi, ⟨later, hlater⟩, hopened⟩ :=
    Snapshot.install_of_calm hs (p.record (.logged (.resuming t.advance.site)))
  have hlogs : q.logs = p.logs ++ .resuming t.advance.site :: later := by
    simp [← hlater, Event.log?]
  cases answer with
  | error failure => exact .refused hi hlogs fun inner => poll_of_error hi
  | ok i =>
    obtain ⟨priors, hw, hc⟩ := hopened i rfl
    exact .ran (fun ran => t.advance.conclude H i ran.1 ran.2) hi hlogs hw
      (fun inner => poll_of_ok hi) fun ran hspares => concluded_of_spares hw rfl hc hspares

/-- On cells that do not fail, the inner computation finds what was captured, and what the polling
thread held before the poll is there again after it, by whichever exit. -/
theorem poll_of_unfailing [DecidableEq κ] {V : Cells η κ}
    (hs : ∀ e ∈ t.bridge.snapshot.entries, e.accessor.IsCell H V)
    (hu : ∀ e ∈ t.bridge.snapshot.entries, e.accessor.Unfailing H p.current.storage.isLive) :
    ∃ i q, t.bridge.snapshot.install H (p.record (.logged (.resuming t.advance.site))) =
        (.returned (.ok i), q) ∧
      q.contents V = Entry.writeAll V t.bridge.snapshot.entries (p.contents V) ∧
      ∀ inner : Action η ν (Progress ω), q.Spares i (inner q).2 →
        ((t.poll H inner).2 p).2.here = p.here ∧
          ∀ c ∈ t.bridge.snapshot.entries.map (Entry.cell V),
            ((t.poll H inner).2 p).2.contents V c = p.contents V c := by
  obtain ⟨i, q, hi, hinstalled⟩ := Snapshot.install_of_unfailing
    (p := p.record (.logged (.resuming t.advance.site))) hs hu
  have hput := hinstalled.contents
  rw [Process.contents_record] at hput
  refine ⟨i, q, hi, hput, fun inner hspares => ?_⟩
  set begun := (inner q).2.record (.logged (.suspending t.advance.site))
  have hlive : begun.current.storage.isLive = p.current.storage.isLive :=
    hspares.live.trans hinstalled.frame.live
  obtain ⟨r, hrestore, hframe, hcontents⟩ := Window.restore_of_unfailing (p := begun)
    (hspares.window.trans hinstalled.window) rfl ((Entry.forall_displaced V).2 hs)
    (by rw [hlive]; exact (Entry.forall_displaced V).2 hu)
  have hhere : r.here = p.here :=
    (hframe.here.trans hspares.here).trans hinstalled.frame.here
  have hback : ∀ c ∈ t.bridge.snapshot.entries.map (Entry.cell V),
      ((r.marked i .ended).sweep H).contents V c = p.contents V c := by
    intro c hc
    rw [Process.contents_sweep, Process.contents_marked, hcontents,
      Entry.writeAll_reverse_displaced, if_pos hc, Process.contents_record]
  have hsuspend : Bridge.suspend H t.advance.site i (inner q).2 =
      (.returned (answerOf none), (r.marked i .ended).sweep H) := by
    rw [Bridge.suspend_apply, Window.close_apply, hrestore]
    rfl
  have hlast := t.advance.conclude_snd (H := H) i (inner q).1 (inner q).2
  rw [hsuspend] at hlast
  rw [poll_of_ok hi]
  rcases hlast with hlast | ⟨e, -, hlast⟩
  · rw [hlast]
    exact ⟨hhere, hback⟩
  · rw [hlast]
    exact ⟨hhere, fun c hc => by rw [Process.contents_record, hback c hc]⟩

/-! ### Polls one after another -/

/-- A poll which begins in `p`, and does what `call` tells with each inner computation. It finds what
was captured, and what the thread that runs held before it is there again after it. -/
def LeavesNothing (H : Host η ν) (V : Cells η κ) (s : Snapshot) (site : CallSite)
    (p : Process η ν)
    (call : Action η ν (Progress ω) → Exit (Except Failure (Progress ω)) × Process η ν) : Prop :=
  ∃ i q, s.install H (p.record (.logged (.resuming site))) = (.returned (.ok i), q) ∧
    (∀ e ∈ s.entries, q.contents V (e.cell V) = e.value) ∧
    ∀ inner, q.Spares i (inner q).2 → (call inner).2.here = p.here ∧
      ∀ e ∈ s.entries, (call inner).2.contents V (e.cell V) = p.contents V (e.cell V)

/-- After any polls on any threads, however each ended and whatever other code did meanwhile, the
task has counted them, as far as its counter goes, and the next poll has the next number and runs its
inner computation once or not at all. If all captured keys have cells of their own which do not
fail, it finds what was captured, and leaves on its thread what was there. -/
theorem poll_after_visits [DecidableEq κ] {V : Cells η κ} (t : Task)
    (visits : List (Visit η ν ω)) (p : Process η ν) (meanwhile : Process η ν → Process η ν)
    (n : ThreadName) (hcalm : ∀ e ∈ t.bridge.snapshot.entries, e.accessor.Calm H) :
    let t' := (visited H visits t p).1
    let start := (meanwhile (visited H visits t p).2).entered n
    let site := ⟨t.label, t.polls + .ofNat visits.length + 1⟩
    t'.polls = t.polls + .ofNat visits.length ∧
      t'.polls.toNat = (t.polls.toNat + visits.length) % UInt64.size ∧
      RunsOnce H t.bridge.snapshot site start (fun inner : Action η ν (Progress ω) =>
        (t'.poll H inner).2 start) ∧
      ((∀ e ∈ t.bridge.snapshot.entries, e.accessor.IsCell H V ∧
          e.accessor.Unfailing H start.current.storage.isLive) →
        (t.bridge.snapshot.entries.map (Entry.cell V)).Nodup →
        LeavesNothing H V t.bridge.snapshot site start fun inner : Action η ν (Progress ω) =>
          (t'.poll H inner).2 start) := by
  intro t' start site
  have ht : t' = { t with polls := t.polls + .ofNat visits.length } := visited_fst visits t p
  have hbridge : t'.bridge = t.bridge := by rw [ht]
  have hsite : t'.advance.site = site := by rw [ht]; rfl
  refine ⟨by rw [ht], toNat_polls_visited visits t p, ?_, fun hs hd => ?_⟩
  · rw [← hsite, ← hbridge]
    exact runsOnce_of_calm (hbridge ▸ hcalm) start
  · obtain ⟨i, q, hi, hput, hback⟩ := poll_of_unfailing (t := t') (ω := ω) (p := start) (V := V)
      (hbridge ▸ fun e he => (hs e he).1) (hbridge ▸ fun e he => (hs e he).2)
    rw [hbridge] at hi hput hback
    rw [hsite] at hi
    refine ⟨i, q, hi, fun e he => ?_, fun inner hspares => ?_⟩
    · rw [hput, Entry.writeAll_of_mem V hd he]
    · obtain ⟨hhere, hcells⟩ := hback inner hspares
      exact ⟨hhere, fun e he => hcells _ (List.mem_map_of_mem he)⟩

/-- An embedding program with one cell. -/
def shelf : Host (Table Value) Unit := rack (fun _ => "cell") fun _ _ => .returned (.ok ())

/-- A task that carries its content. -/
def errand : Task := { bridge := ⟨⟨[⟨.custom "a" 0, some ⟨.numbered 0, .unit⟩⟩]⟩⟩ }

/-- An inner computation that clears the cell and panics. -/
def spoil : Action (Table Value) Unit (Progress Unit) := do
  let _ ← (Accessor.custom "a" 0).write shelf none
  Action.panic "gone"

theorem spares_spoil (i : Nat) (q : Process (Table Value) Unit) : q.Spares i (spoil q).2 :=
  ⟨rfl, rfl, rfl⟩

/-- A poll that cleared the cell and panicked, and one more on another thread: it finds the content
and leaves the cell empty. -/
theorem poll_after_visits_errand :
    let after := visited shelf [⟨id, "worker", spoil⟩] errand { here := "main", host := .empty }
    let start := after.2.entered "other"
    after.1.polls = 1 ∧ RunsOnce shelf errand.bridge.snapshot ⟨none, 2⟩ start
        (fun inner : Action _ _ (Progress Unit) => (after.1.poll shelf inner).2 start) ∧
      ∃ i q, errand.bridge.snapshot.install shelf (start.record (.logged (.resuming ⟨none, 2⟩))) =
          (.returned (.ok i), q) ∧
        q.contents (rackCells fun _ => "cell") (.own "cell") = some ⟨.numbered 0, .unit⟩ ∧
        ((after.1.poll shelf spoil).2 start).2.contents (rackCells fun _ => "cell") (.own "cell") =
          none := by
  intro after start
  have hcalm : ∀ a : Accessor, a.Calm shelf := calm_rack fun _ _ => ⟨_, rfl⟩
  have hcells : ∀ e ∈ errand.bridge.snapshot.entries,
      e.accessor.IsCell shelf (rackCells fun _ => "cell") ∧
        e.accessor.Unfailing shelf start.current.storage.isLive := by
    intro e he
    obtain rfl := List.mem_singleton.1 he
    exact ⟨isCell_rack _ _ _, unfailing_rack (fun _ => rfl) _ _⟩
  obtain ⟨hpolls, -, honce, hclean⟩ := poll_after_visits (V := rackCells fun _ => "cell") errand
    [⟨id, "worker", spoil⟩] { here := "main", host := .empty } (fun q => q) "other"
    fun e _ => hcalm e.accessor
  obtain ⟨i, q, hi, hfound, hleft⟩ := hclean hcells (by decide)
  refine ⟨hpolls, honce, i, q, hi, hfound _ List.mem_cons_self, ?_⟩
  have hempty : start.contents (rackCells fun _ => "cell") (.own "cell") = none := rfl
  obtain ⟨-, hcells⟩ := hleft spoil (spares_spoil i q)
  have hlast := hcells _ List.mem_cons_self
  rw [show Entry.cell (rackCells fun _ => "cell") _ = .own "cell" from rfl, hempty] at hlast
  exact hlast

end Task

end Ambient
