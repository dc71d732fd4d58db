import Ambient.Proofs.Once

/-! The ledger of windows. The log events that tell of windows are set against the windows that
there are: each window was opened by one event, and one more tells of its end if it is over. Proved:
every operation of the library keeps such a ledger, with accessors whose functions may call the
library again, unless one of them panics. What follows for the log as a whole is left to another
module. -/

namespace Ambient

variable {η ν α ω : Type}

/-! ### Marks -/

namespace LogEvent

/-- The event tells of the opening of a window. -/
def opens : LogEvent → Bool
  | installed _ => true
  | installFailed _ _ => true
  | _ => false

/-- The event tells of the end of a window. -/
def closes : LogEvent → Bool
  | closed _ => true
  | _ => false

end LogEvent

/-- A log event with the window that it tells of. -/
structure Mark where
  ref : WindowRef
  event : LogEvent

/-- What is told of one window, first to last. -/
def eventsOf (ref : WindowRef) (marks : List Mark) : List LogEvent :=
  (marks.filter fun mark => mark.ref = ref).map Mark.event

theorem eventsOf_append (ref : WindowRef) (l r : List Mark) :
    eventsOf ref (l ++ r) = eventsOf ref l ++ eventsOf ref r := by
  simp [eventsOf]

theorem eventsOf_cons (ref : WindowRef) (mark : Mark) (l : List Mark) :
    eventsOf ref (mark :: l) =
      (if mark.ref = ref then [mark.event] else []) ++ eventsOf ref l := by
  by_cases h : mark.ref = ref <;> simp [eventsOf, h]

theorem eventsOf_map_self (ref : WindowRef) (l : List LogEvent) :
    eventsOf ref (l.map (Mark.mk ref)) = l := by
  simp [eventsOf, List.filter_map, Function.comp_def]

theorem eventsOf_map_of_ne {ref r : WindowRef} (h : r ≠ ref) (l : List LogEvent) :
    eventsOf r (l.map (Mark.mk ref)) = [] := by
  simp [eventsOf, List.filter_map, Function.comp_def, Ne.symm h]

namespace Window

/-- The event tells of the opening of this window. -/
inductive OpenedBy (win : Window) : LogEvent → Prop
  /-- All entries of the snapshot have been written. -/
  | installed (hp : win.priors.length = win.snapshot.size) :
      OpenedBy win (.installed win.snapshot.size)
  /-- The entries before `x` have been written, but `x` could not be. -/
  | refused {before x after failure} (hs : win.snapshot.entries = before ++ x :: after)
      (hp : win.priors.length = before.length + 1) : OpenedBy win (.installFailed x.key failure)

/-- What is told of the window: that it was opened, and if it is over that it was closed. -/
def Recounts (win : Window) (events : List LogEvent) : Prop :=
  ∃ opening, win.OpenedBy opening ∧
    events = opening :: if win.status = .ended then [.closed win.priors.length] else []

theorem OpenedBy.opens {win : Window} {e : LogEvent} (h : win.OpenedBy e) :
    e.opens = true ∧ e.ofWindow = true := by
  cases h <;> exact ⟨rfl, rfl⟩

/-- How a window was opened does not hang on where it is in its life. -/
theorem OpenedBy.of_status {win : Window} {e : LogEvent} (h : win.OpenedBy e)
    (status : WindowStatus) : ({ win with status } : Window).OpenedBy e := by
  cases h with
  | installed hp => exact .installed hp
  | refused hs hp => exact .refused hs hp

/-- Nothing is told when the restoration of a window begins. -/
theorem Recounts.begun {win : Window} {events : List LogEvent} (h : win.Recounts events)
    (hs : win.status = .standing) : ({ win with status := .closing } : Window).Recounts events := by
  obtain ⟨opening, hopening, rfl⟩ := h
  exact ⟨opening, hopening.of_status .closing, by simp [hs]⟩

/-- It is told when it has come to its end. -/
theorem Recounts.ended {win : Window} {events : List LogEvent}
    (h : ({ win with status := .closing } : Window).Recounts events) :
    ({ win with status := .ended } : Window).Recounts (events ++ [.closed win.priors.length]) := by
  obtain ⟨opening, hopening, rfl⟩ := h
  exact ⟨opening, hopening.of_status .ended, rfl⟩

end Window

/-- What was logged of windows, first to last. -/
def Process.windowLog (p : Process η ν) : List LogEvent := p.logs.filter LogEvent.ofWindow

/-- The marks are those of the log, and each window has the marks that it should have. -/
structure Process.Ledger (marks : List Mark) (p : Process η ν) : Prop where
  log : p.windowLog = marks.map Mark.event
  unopened : ∀ ref, p.sight.window? ref = none → eventsOf ref marks = []
  opened : ∀ ref win, p.sight.window? ref = some win → win.Recounts (eventsOf ref marks)

namespace Process.Ledger

variable {marks : List Mark} {p q : Process η ν} {ref : WindowRef} {win : Window} {e : LogEvent}

theorem of_same (h : p.Ledger marks) (hw : q.sight.windows = p.sight.windows)
    (hl : q.windowLog = p.windowLog) : q.Ledger marks := by
  have hsame : ∀ ref, q.sight.window? ref = p.sight.window? ref := fun ref => by
    rw [Sight.window?, hw, Sight.window?]
  exact ⟨hl.trans h.log, fun ref hnone => h.unopened ref (hsame ref ▸ hnone),
    fun ref win hwin => h.opened ref win (hsame ref ▸ hwin)⟩

/-- A window was put in its place, be it anew or further along in its life, and the events `more` of
it were logged. -/
theorem puts (h : p.Ledger marks) (hw : q.sight.window? ref = some win)
    (hothers : ∀ r, r ≠ ref → q.sight.window? r = p.sight.window? r) {more : List LogEvent}
    (hl : q.windowLog = p.windowLog ++ more) (hr : win.Recounts (eventsOf ref marks ++ more)) :
    q.Ledger (marks ++ more.map (Mark.mk ref)) := by
  refine ⟨?_, fun r hnone => ?_, fun r v hv => ?_⟩
  · rw [hl, h.log, List.map_append, List.map_map, List.map_id'']
    exact fun _ => rfl
  · by_cases hne : r = ref
    · subst hne
      exact absurd (hw.symm.trans hnone) (by simp)
    · rw [eventsOf_append, eventsOf_map_of_ne hne, List.append_nil]
      exact h.unopened r ((hothers r hne).symm.trans hnone)
  · by_cases hne : r = ref
    · subst hne
      obtain rfl := Option.some.inj (hw.symm.trans hv)
      rwa [eventsOf_append, eventsOf_map_self]
    · rw [eventsOf_append, eventsOf_map_of_ne hne, List.append_nil]
      exact h.opened r v ((hothers r hne).symm.trans hv)

end Process.Ledger

/-! ### What keeps the ledger -/

/-- From `p` to `q` the ledger was kept, unless a function of an accessor has panicked, and all
windows that were closing stayed so, and no others came to. -/
structure Posted (p q : Process η Note) : Prop extends Steady p q where
  logs : p.logs <+: q.logs
  rest : ¬ q.Panicked → ∀ ref win, p.sight.window? ref = some win → win.status ≠ .standing →
    q.sight.window? ref = some win
  fresh : ¬ q.Panicked → ∀ ref win, q.sight.window? ref = some win → win.status = .closing →
    p.sight.window? ref = some win
  ledger : ¬ q.Panicked → ∀ marks, p.Ledger marks → ∃ more, q.Ledger (marks ++ more)

namespace Posted

variable {p q r : Process η Note}

theorem trans (h : Posted p q) (k : Posted q r) : Posted p r := by
  have hq : ¬ r.Panicked → ¬ q.Panicked := fun hr hq => hr (k.panicked hq)
  refine ⟨h.toSteady.trans k.toSteady, h.logs.trans k.logs, fun hr ref win hw hs => ?_,
    fun hr ref win hw hc => ?_, fun hr marks hmarks => ?_⟩
  · exact k.rest hr ref win (h.rest (hq hr) ref win hw hs) hs
  · exact h.fresh (hq hr) ref win (k.fresh hr ref win hw hc) hc
  · obtain ⟨more, hmore⟩ := h.ledger (hq hr) marks hmarks
    obtain ⟨yet, hyet⟩ := k.ledger hr _ hmore
    exact ⟨more ++ yet, by rwa [← List.append_assoc]⟩

theorem of_same (hh : q.here = p.here) (hn : p.Panicked → q.Panicked) (hl : p.logs <+: q.logs)
    (hw : q.sight.windows = p.sight.windows) (hlog : q.windowLog = p.windowLog) : Posted p q := by
  have hsame : ∀ ref, q.sight.window? ref = p.sight.window? ref := fun ref => by
    rw [Sight.window?, hw, Sight.window?]
  refine ⟨⟨hh, hn⟩, hl, fun _ ref win h _ => (hsame ref).trans h,
    fun _ ref win h _ => (hsame ref).symm.trans h, fun _ marks h => ⟨[], ?_⟩⟩
  rw [List.append_nil]
  exact h.of_same hw hlog

theorem of_aside (h : p.Aside q) : Posted p q := by
  refine of_same h.here (h.noted _).2 (h.logs ▸ List.prefix_rfl) (funext h.windows) ?_
  rw [Process.windowLog, h.logs, Process.windowLog]

theorem called (p : Process η Note) {call : Call} : Posted p (p.record (.called call)) := by
  have hlogs : (p.record (.called call)).logs = p.logs := by simp [Event.log?]
  refine of_same rfl (List.mem_cons_of_mem _) (hlogs ▸ List.prefix_rfl) rfl ?_
  rw [Process.windowLog, hlogs, Process.windowLog]

/-- What is logged of other things than windows. -/
theorem logged (p : Process η Note) {e : LogEvent} (he : e.ofWindow = false) :
    Posted p (p.record (.logged e)) := by
  refine of_same rfl (List.mem_cons_of_mem _) ?_ rfl ?_
  · simp [Event.log?]
  · simp [Process.windowLog, Event.log?, he]

theorem of_untouched (h : p.Untouched q) : Posted p q := by
  have hlogs : q.logs = p.logs := by rw [Process.logs, h.history, Process.logs]
  refine of_same h.here ?_ (hlogs ▸ List.prefix_rfl) (funext h.windows) ?_
  · rw [Process.Panicked, Process.Noted, Process.Panicked, Process.Noted, h.history]
    exact id
  · rw [Process.windowLog, hlogs, Process.windowLog]

/-- Once a function has panicked nothing more is asked. -/
theorem of_panicked (hh : q.here = p.here) (hl : p.logs <+: q.logs) (hq : q.Panicked) :
    Posted p q :=
  ⟨⟨hh, fun _ => hq⟩, hl, fun h => absurd hq h, fun h => absurd hq h, fun h => absurd hq h⟩

/-- A window is opened, and the log tells of it. -/
theorem opened (p : Process η Note) {s : Snapshot} {priors : List Entry} {e : LogEvent}
    (he : ({ snapshot := s, priors } : Window).OpenedBy e) :
    Posted p ((p.record (.logged e)).opened s priors) := by
  obtain ⟨-, hof⟩ := he.opens
  set new : WindowRef := ⟨p.here, p.current.windows.length⟩
  have hputs : Sight.Puts new { snapshot := s, priors } (p.record (.logged e)).sight _ :=
    (p.record (.logged e)).puts_opened s priors
  have hnone : p.sight.window? new = none := List.getElem?_eq_none (Nat.le_refl _)
  have hlogs : ((p.record (.logged e)).opened s priors).logs = p.logs ++ [e] :=
    p.logs_record (.logged e)
  refine ⟨⟨rfl, fun hp => List.mem_cons_of_mem _ hp⟩, ?_, fun _ ref win hw _ => ?_,
    fun _ ref win hw hc => ?_, fun _ marks hmarks => ⟨[e].map (Mark.mk new), ?_⟩⟩
  · rw [hlogs]
    exact List.prefix_append ..
  · refine (hputs.others ref fun heq => ?_).trans hw
    exact absurd (hw.symm.trans (heq ▸ hnone)) (by simp)
  · by_cases heq : ref = new
    · obtain rfl := Option.some.inj (hputs.window.symm.trans (heq ▸ hw))
      exact absurd hc (by simp)
    · exact (hputs.others ref heq).symm.trans hw
  · refine hmarks.puts hputs.window hputs.others ?_ ⟨e, he, ?_⟩
    · rw [Process.windowLog, hlogs, Process.windowLog, List.filter_append]
      simp [hof]
    · rw [hmarks.unopened _ hnone]
      rfl

/-- A window that stands is restored, and the log tells of its end. -/
theorem closed {i : Nat} {win : Window} (hw : p.current.windows[i]? = some win)
    (hs : win.status = .standing) (h : Posted (p.marked i .closing) r) :
    Posted p ((r.record (.logged (.closed win.priors.length))).marked i .ended) := by
  set ref : WindowRef := ⟨p.here, i⟩
  set logged := r.record (.logged (.closed win.priors.length))
  have hhere : r.here = p.here := h.here
  have hclosing : Sight.Puts ref { win with status := .closing } p.sight _ :=
    Process.puts_marked (p.window?_sight i ▸ hw) .closing
  have hlogs : (logged.marked i .ended).logs = r.logs ++ [.closed win.priors.length] :=
    r.logs_record (.logged (.closed win.priors.length))
  have hcalm : ¬ (logged.marked i .ended).Panicked → ¬ r.Panicked := fun hq hr =>
    hq (List.mem_cons_of_mem _ hr)
  have hstill : ¬ r.Panicked → r.sight.window? ref = some { win with status := .closing } :=
    fun hr => h.rest hr ref _ hclosing.window (by simp)
  have hended : ¬ r.Panicked → Sight.Puts ref { win with status := .ended } logged.sight
      (logged.marked i .ended).sight := by
    intro hr
    have hlast : ref = ⟨logged.here, i⟩ := by rw [show logged.here = p.here from hhere]
    have hwindow : logged.sight.window? ⟨logged.here, i⟩ = some { win with status := .closing } :=
      hlast ▸ hstill hr
    rw [hlast]
    exact Process.puts_marked hwindow .ended
  refine ⟨⟨hhere, fun hp => List.mem_cons_of_mem _ (h.panicked hp)⟩, ?_, fun hq v win' hv hs' => ?_,
    fun hq v win' hv hc => ?_, fun hq marks hmarks => ?_⟩
  · rw [hlogs]
    exact h.logs.trans (List.prefix_append ..)
  · have hne : v ≠ ref := by
      rintro rfl
      obtain rfl := Option.some.inj (hw.symm.trans hv)
      exact hs' hs
    exact ((hended (hcalm hq)).others v hne).trans
      (h.rest (hcalm hq) v win' ((hclosing.others v hne).trans hv) hs')
  · have hne : v ≠ ref := by
      rintro rfl
      obtain rfl := Option.some.inj ((hended (hcalm hq)).window.symm.trans hv)
      exact absurd hc (by simp)
    rw [← hclosing.others v hne]
    exact h.fresh (hcalm hq) v win' (((hended (hcalm hq)).others v hne).symm.trans hv) hc
  · have hbegun := hmarks.puts hclosing.window hclosing.others (List.append_nil _).symm
      (by rw [List.append_nil]; exact (hmarks.opened ref win hw).begun hs)
    obtain ⟨more, hmore⟩ := h.ledger (hcalm hq) _ hbegun
    have hevents := (hmore.opened ref _ (hstill (hcalm hq))).ended
    have hlast := hmore.puts (hended (hcalm hq)).window (hended (hcalm hq)).others ?_ hevents
    · rw [List.map_nil, List.append_nil, List.append_assoc] at hlast
      exact ⟨_, hlast⟩
    · rw [Process.windowLog, hlogs, Process.windowLog, List.filter_append]
      rfl

end Posted

theorem Posted.watched {m : Action η Note α} (hm : m.Lasts Posted) : m.watched.Lasts Posted := by
  intro p
  have h := hm p
  rw [Action.watched_apply]
  rcases hq : m p with ⟨a | text, q⟩ <;> rw [hq] at h
  · exact h
  · refine .of_panicked h.here (h.logs.trans ?_) List.mem_cons_self
    rw [Process.logs_record]
    exact List.prefix_append ..

/-- The library keeps the ledger, if the functions behind its accessors do. -/
theorem Posted.lasting {H : Host η Note} (h : ∀ ref, (H.behaviour ref).Lasts Posted) :
    Lasting H.watched Process.Panicked Posted where
  aside := .of_aside
  called p _ _ := .called p
  logged p _ he _ := .logged p he
  trans := .trans
  installed p _ _ hp := hp ▸ Posted.opened p (.installed hp)
  refused p _ _ _ _ _ _ hs hp := Posted.opened p (.refused hs hp)
  functions ref := ⟨.watched (h ref).read, fun v => .watched ((h ref).write v),
    .watched (h ref).clear⟩
  restoring p _ := .called p
  closed := .closed
  aborted _ _ h hspoilt := .of_panicked h.here h.logs hspoilt
  spoils := H.spoils_watched

/-- A window that stood may be ended after something that keeps the ledger. -/
theorem Posted.freeing : Freeing (Posted (η := η)) := by
  intro p q i win hw hs h v hv hc
  by_cases hq : q.Panicked
  · exact .of_panicked rfl List.prefix_rfl hq
  · rw [← Process.window?_sight, h.here] at hv
    have hbefore := h.fresh hq _ v hv hc
    rw [Process.window?_sight, hw] at hbefore
    rw [← Option.some.inj hbefore, hs] at hc
    exact absurd hc (by simp)

theorem Posted.onThread {p q : Process η Note} {n : ThreadName} (h : Posted (p.entered n) q) :
    Posted p (q.reentered p.here) := by
  refine ⟨⟨rfl, h.panicked⟩, h.logs, h.rest, h.fresh, fun hq marks hmarks => ?_⟩
  obtain ⟨more, hmore⟩ := h.ledger hq marks (hmarks.of_same rfl rfl)
  exact ⟨more, hmore.of_same rfl rfl⟩

theorem Posted.stacked (p : Process η Note) (f : List RegistryId → List RegistryId) :
    Posted p (p.modifyCurrent fun t => { t with registries := f t.registries }) := by
  refine .of_untouched ⟨rfl, fun n => ?_, rfl⟩
  rw [Process.thread_modifyCurrent]
  split
  · next h => rw [h]; rfl
  · rfl

/-! ### Programs keep the ledger -/

/-- How programs use the library that leave windows alone otherwise, and log nothing of their own. -/
def Regular.usage : Usage η Note where
  own := fun m => ∀ p : Process η Note, p.Untouched (m p).2
  seen := Host.watched
  careful := true

/-- Programs that use the library on any thread. Whatever they do besides leaves windows alone, and
they log nothing of their own. -/
abbrev Regular (m : Action η Note α) : Prop := Routine Regular.usage m

/-- The functions behind the accessors are such programs. -/
abbrev Host.Regular (H : Host η Note) : Prop := H.Runs Ambient.Regular.usage

theorem Regular.preserves : Usage.Preserves Regular.usage (Posted (η := η)) where
  own h p := .of_untouched (h p)
  library h := (Posted.lasting h).enduring
  freeing := Posted.freeing
  aside := .of_aside
  task p _ he := .logged p (LogEvent.ofWindow_of_ofTask he)
  trans := .trans
  moved := .onThread
  stacked := .stacked

/-- Programs keep the ledger. -/
theorem Regular.posts {m : Action η Note α} (hm : Regular m) : m.Lasts Posted :=
  hm.lasts preserves rfl

/-- The library does, with accessors whose functions are programs. -/
theorem Host.Regular.lasting {H : Host η Note} (hH : H.Regular) :
    Lasting H.watched Process.Panicked Posted :=
  Posted.lasting fun ref => ⟨Ambient.Regular.posts (hH ref).read,
    fun v => Ambient.Regular.posts ((hH ref).write v), Ambient.Regular.posts (hH ref).clear⟩

end Ambient
