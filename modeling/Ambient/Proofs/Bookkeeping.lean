import Ambient.Proofs.Restoring

/-! The books of windows. The calls made for the restoration of a window are set against what the
window displaced: there are none while it stands, a first part of those due while it is being
restored, and exactly those due when it is over. Proved: what the single changes of a process do
to its books, and that keeping them is preserved by putting actions together. What the library's
operations do to them is left to other modules. -/

namespace Ambient

variable {η ν α β : Type}

/-! ### Sights -/

/-- How far a window is in its life. -/
def WindowStatus.rank : WindowStatus → Nat
  | standing => 0
  | closing => 1
  | ended => 2

namespace Window

/-- The calls due for the restoration of a window, in their order. -/
def restoration (ref : WindowRef) (win : Window) : List Call :=
  win.priors.reverse.map (Entry.writing (some ref))

/-- The calls made for the restoration of a window are as they should be, by where it is in its
life. -/
def Tallies (ref : WindowRef) (made : List Call) (win : Window) : Prop :=
  match win.status with
  | .standing => made = []
  | .closing => made <+: win.restoration ref
  | .ended => made = win.restoration ref

end Window

/-- The windows of all threads and the calls made so far, at one moment. -/
structure Sight where
  windows : ThreadName → List Window
  calls : List Call

namespace Sight

def window? (s : Sight) (ref : WindowRef) : Option Window := (s.windows ref.thread)[ref.index]?

/-- The calls made so far for the restoration of a window. -/
def writeBacks (s : Sight) (ref : WindowRef) : List Call :=
  s.calls.filter fun c => c.restoring = some ref

/-- The books are right. -/
structure Accounted (s : Sight) : Prop where
  unopened : ∀ ref, s.window? ref = none → s.writeBacks ref = []
  opened : ∀ ref win, s.window? ref = some win → win.Tallies ref (s.writeBacks ref)

/-- What is seen at one moment and at a later one: calls stay made, and windows stay what they are,
but for where they are in their life. -/
structure Precedes (s s' : Sight) : Prop where
  calls : s.calls <+: s'.calls
  windows : ∀ ref win, s.window? ref = some win → ∃ win', s'.window? ref = some win' ∧
    win'.snapshot = win.snapshot ∧ win'.priors = win.priors ∧ win.status.rank ≤ win'.status.rank

/-- What is seen before and after something that leaves restorations alone which are under way or
over, that of the window `busy` apart if one is told. -/
structure Leads (busy : Option WindowRef) (s s' : Sight) : Prop where
  precedes : s.Precedes s'
  closing : ∀ ref win, some ref ≠ busy → s'.window? ref = some win → win.status = .closing →
    s.window? ref = some win
  rest : ∀ ref win, some ref ≠ busy → s.window? ref = some win → win.status ≠ .standing →
    s'.window? ref = some win ∧ s'.writeBacks ref = s.writeBacks ref

variable {s s' s'' : Sight} {busy : Option WindowRef} {ref : WindowRef} {win : Window} {call : Call}

theorem Precedes.refl (s : Sight) : s.Precedes s :=
  ⟨List.prefix_rfl, fun _ win h => ⟨win, h, rfl, rfl, Nat.le_refl _⟩⟩

theorem Precedes.trans (h : s.Precedes s') (k : s'.Precedes s'') : s.Precedes s'' := by
  refine ⟨h.calls.trans k.calls, fun ref win hw => ?_⟩
  obtain ⟨win', hw', hs, hp, hr⟩ := h.windows ref win hw
  obtain ⟨win'', hw'', hs', hp', hr'⟩ := k.windows ref win' hw'
  exact ⟨win'', hw'', hs'.trans hs, hp'.trans hp, Nat.le_trans hr hr'⟩

theorem Leads.refl (busy : Option WindowRef) (s : Sight) : s.Leads busy s :=
  ⟨.refl s, fun _ _ _ h _ => h, fun _ _ _ h _ => ⟨h, rfl⟩⟩

theorem Leads.trans (h : s.Leads busy s') (k : s'.Leads busy s'') : s.Leads busy s'' := by
  refine ⟨h.precedes.trans k.precedes, fun ref win hb hw hc => ?_, fun ref win hb hw hs => ?_⟩
  · exact h.closing ref win hb (k.closing ref win hb hw hc) hc
  · obtain ⟨hw', hmade⟩ := h.rest ref win hb hw hs
    obtain ⟨hw'', hmade'⟩ := k.rest ref win hb hw' hs
    exact ⟨hw'', hmade'.trans hmade⟩

theorem Leads.weaken (h : s.Leads none s') (busy : Option WindowRef) : s.Leads busy s' :=
  ⟨h.precedes, fun ref win _ => h.closing ref win nofun, fun ref win _ => h.rest ref win nofun⟩

/-- A restoration that came to its end was none under way before. -/
theorem Leads.finish (h : s.Leads (some ref) s') (hw : s.window? ref = some win)
    (hs : win.status = .standing) {win' : Window} (hw' : s'.window? ref = some win')
    (hs' : win'.status ≠ .closing) : s.Leads none s' := by
  refine ⟨h.precedes, fun r v _ hv hc => ?_, fun r v _ hv hr => ?_⟩
  · by_cases hr : r = ref
    · subst hr
      obtain rfl : win' = v := Option.some.inj (hw'.symm.trans hv)
      exact absurd hc hs'
    · exact h.closing r v (fun e => hr (Option.some.inj e)) hv hc
  · by_cases he : r = ref
    · subst he
      obtain rfl : win = v := Option.some.inj (hw.symm.trans hv)
      exact absurd hs hr
    · exact h.rest r v (fun e => he (Option.some.inj e)) hv hr

/-! ### Changes of a sight -/

/-- One more call was made. -/
def called (s : Sight) (call : Call) : Sight := { s with calls := s.calls ++ [call] }

theorem writeBacks_called (s : Sight) (call : Call) (ref : WindowRef) :
    (s.called call).writeBacks ref =
      s.writeBacks ref ++ if call.restoring = some ref then [call] else [] := by
  by_cases h : call.restoring = some ref <;> simp [writeBacks, called, h]

theorem writeBacks_called_of_ne (s : Sight) {ref : WindowRef} (h : call.restoring ≠ some ref) :
    (s.called call).writeBacks ref = s.writeBacks ref := by
  rw [writeBacks_called, if_neg h, List.append_nil]

theorem leads_called (s : Sight) (call : Call) : s.Leads call.restoring (s.called call) := by
  refine ⟨⟨List.prefix_append .., fun ref win h => ⟨win, h, rfl, rfl, Nat.le_refl _⟩⟩,
    fun _ _ _ h _ => h, fun ref win hb h _ => ⟨h, ?_⟩⟩
  exact s.writeBacks_called_of_ne fun e => hb e.symm

/-- A call that restores no window leaves the books right. -/
theorem Accounted.called (h : s.Accounted) (hc : call.restoring = none) :
    (s.called call).Accounted := by
  have hsame : ∀ ref, (s.called call).writeBacks ref = s.writeBacks ref := fun ref =>
    s.writeBacks_called_of_ne (by simp [hc])
  refine ⟨fun ref hw => ?_, fun ref win hw => ?_⟩
  · rw [hsame]
    exact h.unopened ref hw
  · rw [hsame]
    exact h.opened ref win hw

/-- A call that is due leaves the books right. -/
theorem Accounted.called_due (h : s.Accounted) (hc : call.restoring = some ref)
    (hw : s.window? ref = some win) (hs : win.status = .closing)
    (hdue : s.writeBacks ref ++ [call] <+: win.restoration ref) : (s.called call).Accounted := by
  refine ⟨fun r hr => ?_, fun r v hv => ?_⟩
  · have hne : call.restoring ≠ some r := by
      rintro e
      obtain rfl : ref = r := Option.some.inj (hc.symm.trans e)
      exact absurd (hw.symm.trans hr) (by simp)
    rw [s.writeBacks_called_of_ne hne]
    exact h.unopened r hr
  · by_cases hr : r = ref
    · subst hr
      obtain rfl : win = v := Option.some.inj (hw.symm.trans hv)
      rw [writeBacks_called, if_pos hc, Window.Tallies, hs]
      exact hdue
    · rw [s.writeBacks_called_of_ne fun e => hr (Option.some.inj (e.symm.trans hc))]
      exact h.opened r v hv

/-- The second sight shows one window in place of what the first shows there. -/
structure Puts (ref : WindowRef) (win : Window) (s s' : Sight) : Prop where
  calls : s'.calls = s.calls
  window : s'.window? ref = some win
  others : ∀ r, r ≠ ref → s'.window? r = s.window? r

theorem Puts.writeBacks (h : Puts ref win s s') (r : WindowRef) :
    s'.writeBacks r = s.writeBacks r := by rw [Sight.writeBacks, h.calls, Sight.writeBacks]

theorem Puts.accounted (h : Puts ref win s s') (hs : s.Accounted)
    (ht : win.Tallies ref (s.writeBacks ref)) : s'.Accounted := by
  refine ⟨fun r hr => ?_, fun r v hv => ?_⟩
  · by_cases he : r = ref
    · subst he
      exact absurd (h.window.symm.trans hr) (by simp)
    · rw [h.writeBacks]
      exact hs.unopened r ((h.others r he).symm.trans hr)
  · rw [h.writeBacks]
    by_cases he : r = ref
    · subst he
      obtain rfl : win = v := Option.some.inj (h.window.symm.trans hv)
      exact ht
    · exact hs.opened r v ((h.others r he).symm.trans hv)

/-- A window was put in a free place, or further along in its life. -/
theorem Puts.leads (h : Puts ref win s s')
    (hold : ∀ old, s.window? ref = some old → win.snapshot = old.snapshot ∧
      win.priors = old.priors ∧ old.status.rank ≤ win.status.rank) : s.Leads (some ref) s' := by
  refine ⟨⟨h.calls ▸ List.prefix_rfl, fun r v hv => ?_⟩, fun r v hb hv _ => ?_, fun r v hb hv _ => ?_⟩
  · by_cases he : r = ref
    · subst he
      exact ⟨win, h.window, hold v hv⟩
    · exact ⟨v, (h.others r he).trans hv, rfl, rfl, Nat.le_refl _⟩
  · exact (h.others r fun e => hb (e ▸ rfl)).symm.trans hv
  · exact ⟨(h.others r fun e => hb (e ▸ rfl)).trans hv, h.writeBacks r⟩

/-- A new window, which stands. -/
theorem Puts.leads_new (h : Puts ref win s s') (hnone : s.window? ref = none)
    (hs : win.status = .standing) : s.Leads none s' := by
  have hleads := h.leads fun old hold => absurd (hnone.symm.trans hold) (by simp)
  refine ⟨hleads.precedes, fun r v _ hv hc => ?_, fun r v _ hv hr => ?_⟩
  · by_cases he : r = ref
    · subst he
      obtain rfl : win = v := Option.some.inj (h.window.symm.trans hv)
      rw [hs] at hc
      exact absurd hc (by simp)
    · exact hleads.closing r v (fun e => he (Option.some.inj e)) hv hc
  · by_cases he : r = ref
    · subst he
      exact absurd (hnone.symm.trans hv) (by simp)
    · exact hleads.rest r v (fun e => he (Option.some.inj e)) hv hr

end Sight

/-! ### The books of a process -/

/-- What is noted of a run. -/
inductive Note where
  /-- What was to be seen at one moment. -/
  | seen (sight : Sight)
  /-- A function of an accessor panicked. -/
  | panicked

namespace Process

def sight (p : Process η ν) : Sight := ⟨fun n => (p.thread n).windows, p.calls⟩

def Noted (note : ν) (p : Process η ν) : Prop := Event.noted note ∈ p.history

/-- Some function of an accessor has panicked. -/
def Panicked (p : Process η Note) : Prop := p.Noted .panicked

/-- The books are right, and were at each moment of which it is noted what was to be seen. -/
structure Sound (p : Process η Note) : Prop where
  now : p.sight.Accounted
  seen : ∀ s, p.Noted (.seen s) → s.Accounted ∧ s.Precedes p.sight

/-- From `p` to `q` nothing was done to windows, no accessor was called, and nothing was noted. -/
structure Alike (p q : Process η ν) : Prop where
  sight : q.sight = p.sight
  noted : ∀ note, q.Noted note ↔ p.Noted note

theorem alike_of_eq {p q : Process η ν} (ht : q.threads = p.threads)
    (hh : q.history = p.history) : p.Alike q := by
  refine ⟨?_, fun note => by rw [Noted, hh, Noted]⟩
  have hthread : q.thread = p.thread := by
    funext n
    rw [thread, thread, ht]
  rw [Process.sight, Process.sight, hthread, calls, calls, hh]

theorem alike_log (p : Process η ν) (e : LogEvent) : p.Alike (p.record (.logged e)) := by
  refine ⟨?_, fun note => by simp [Noted, record]⟩
  rw [Process.sight, calls_record]
  simp [Event.call?, Process.sight, thread, record]

theorem alike_sweep (H : Host η ν) (p : Process η ν) : p.Alike (p.sweep H) := by
  refine ⟨?_, fun note => by simp [Noted, sweep, releaseEvent]⟩
  rw [Process.sight, calls_sweep]
  rfl

theorem alike_modifyCurrent (p : Process η ν) {f : Thread → Thread}
    (hf : (f p.current).windows = p.current.windows) : p.Alike (p.modifyCurrent f) := by
  refine ⟨?_, fun note => Iff.rfl⟩
  rw [Process.sight, Process.sight, calls_modifyCurrent, Sight.mk.injEq]
  refine ⟨funext fun n => ?_, rfl⟩
  rw [thread_modifyCurrent]
  split
  · next h => rw [hf, h, current]
  · rfl

theorem sight_called (p : Process η ν) (call : Call) :
    (p.record (.called call)).sight = p.sight.called call := by
  rw [Process.sight, calls_record]
  rfl

theorem window?_sight (p : Process η ν) (i : Nat) :
    p.sight.window? ⟨p.here, i⟩ = p.current.windows[i]? := rfl

/-- What is done to the windows of the running thread shows in its windows only. -/
theorem window?_modifyCurrent_of_ne (p : Process η ν) (f : Thread → Thread) {ref : WindowRef}
    (h : ref.thread ≠ p.here) : (p.modifyCurrent f).sight.window? ref = p.sight.window? ref := by
  simp only [Sight.window?, Process.sight, thread_modifyCurrent, if_neg h]

theorem window?_modifyCurrent (p : Process η ν) (f : Thread → Thread) (i : Nat) :
    (p.modifyCurrent f).sight.window? ⟨p.here, i⟩ = (f p.current).windows[i]? := by
  simp only [Sight.window?, Process.sight, thread_modifyCurrent, if_true]

theorem puts_opened (p : Process η ν) (s : Snapshot) (priors : List Entry) :
    Sight.Puts ⟨p.here, p.current.windows.length⟩ { snapshot := s, priors } p.sight
      (p.opened s priors).sight := by
  refine ⟨rfl, ?_, ?_⟩
  · rw [opened, window?_modifyCurrent]
    simp
  · rintro ⟨n, i⟩ h
    by_cases hn : n = p.here
    · subst hn
      have hi : i ≠ p.current.windows.length := fun e => h (by rw [e])
      rw [opened, window?_modifyCurrent, window?_sight]
      rcases Nat.lt_or_gt_of_ne hi with hlt | hgt
      · rw [List.getElem?_append_left hlt]
      · rw [List.getElem?_eq_none (by simp; omega), List.getElem?_eq_none (by omega)]
    · exact window?_modifyCurrent_of_ne p _ hn

theorem puts_marked {p : Process η ν} {i : Nat} {win : Window}
    (hw : p.sight.window? ⟨p.here, i⟩ = some win) (status : WindowStatus) :
    Sight.Puts ⟨p.here, i⟩ { win with status } p.sight (p.marked i status).sight := by
  refine ⟨rfl, ?_, ?_⟩
  · rw [marked, window?_modifyCurrent, List.getElem?_modify, ← window?_sight, hw]
    simp
  · rintro ⟨n, j⟩ h
    by_cases hn : n = p.here
    · subst hn
      have hj : i ≠ j := fun e => h (by rw [e])
      rw [marked, window?_modifyCurrent, List.getElem?_modify, window?_sight]
      simp [hj]
    · exact window?_modifyCurrent_of_ne p _ hn

namespace Sound

variable {p q : Process η Note}

/-- Right books stay right where nothing is noted, if they are right in the end. -/
theorem of_precedes (h : p.Sound) (hn : ∀ note, q.Noted note ↔ p.Noted note)
    (hq : q.sight.Accounted) (hs : p.sight.Precedes q.sight) : q.Sound := by
  refine ⟨hq, fun s hseen => ?_⟩
  obtain ⟨ha, hp⟩ := h.seen s ((hn _).1 hseen)
  exact ⟨ha, hp.trans hs⟩

theorem of_alike (h : p.Sound) (ha : p.Alike q) : q.Sound :=
  h.of_precedes ha.noted (ha.sight ▸ h.now) (ha.sight ▸ .refl _)

end Sound

end Process

/-- The same thread runs in `q` as in `p`, and it stays noted if a function has panicked. -/
structure Steady (p q : Process η Note) : Prop where
  here : q.here = p.here
  panicked : p.Panicked → q.Panicked

/-- From `p` to `q` no restoration that is under way or over was touched, and the books were kept,
unless a function of an accessor has panicked. -/
structure Kept (p q : Process η Note) : Prop extends Steady p q where
  leads : ¬ q.Panicked → p.sight.Leads none q.sight
  sound : ¬ q.Panicked → p.Sound → q.Sound

theorem Steady.trans {p q r : Process η Note} (h : Steady p q) (k : Steady q r) : Steady p r :=
  ⟨k.here.trans h.here, fun hp => k.panicked (h.panicked hp)⟩

namespace Kept

variable {p q r : Process η Note}

theorem trans (h : Kept p q) (k : Kept q r) : Kept p r := by
  have hq : ¬ r.Panicked → ¬ q.Panicked := fun hr hq => hr (k.panicked hq)
  exact ⟨h.toSteady.trans k.toSteady, fun hr => (h.leads (hq hr)).trans (k.leads hr),
    fun hr hp => k.sound hr (h.sound (hq hr) hp)⟩

theorem of_alike (hh : q.here = p.here) (ha : p.Alike q) : Kept p q :=
  ⟨⟨hh, (ha.noted _).2⟩, fun _ => ha.sight ▸ .refl none _, fun _ hp => hp.of_alike ha⟩

/-- Once a function has panicked nothing more is asked. -/
theorem of_panicked (hh : q.here = p.here) (hq : q.Panicked) : Kept p q :=
  ⟨⟨hh, fun _ => hq⟩, fun h => absurd hq h, fun h => absurd hq h⟩

theorem log (p : Process η Note) (e : LogEvent) : Kept p (p.record (.logged e)) :=
  of_alike rfl (p.alike_log e)

/-- An accessor is called, but not to restore a window. -/
theorem called (p : Process η Note) {call : Call} (hc : call.restoring = none) :
    Kept p (p.record (.called call)) := by
  have hn : ∀ note, (p.record (.called call)).Noted note ↔ p.Noted note := fun note => by
    simp [Process.Noted, Process.record]
  have hleads := p.sight.leads_called call
  rw [hc, ← Process.sight_called] at hleads
  refine ⟨⟨rfl, (hn _).2⟩, fun _ => hleads, fun _ hp => hp.of_precedes hn ?_ hleads.precedes⟩
  rw [Process.sight_called]
  exact hp.now.called hc

/-- What is to be seen is noted. -/
theorem seen (p : Process η Note) : Kept p (p.record (.noted (.seen p.sight))) := by
  have hsight : (p.record (.noted (.seen p.sight))).sight = p.sight := by
    rw [Process.sight, Process.calls_record]
    simp [Event.call?, Process.sight, Process.thread, Process.record]
  refine ⟨⟨rfl, fun hp => List.mem_cons_of_mem _ hp⟩, fun _ => ?_, fun _ hp => ⟨?_, fun s hs => ?_⟩⟩
  · rw [hsight]
    exact .refl none _
  · rw [hsight]
    exact hp.now
  · rw [hsight]
    rcases List.mem_cons.1 hs with heq | hs
    · obtain rfl : s = p.sight := by simpa using heq
      exact ⟨hp.now, .refl _⟩
    · exact hp.seen s hs

theorem opened (p : Process η Note) (s : Snapshot) (priors : List Entry) :
    Kept p (p.opened s priors) := by
  have hnone : p.sight.window? ⟨p.here, p.current.windows.length⟩ = none := by
    rw [Process.window?_sight, List.getElem?_eq_none (Nat.le_refl _)]
  have hputs := p.puts_opened s priors
  have hleads := hputs.leads_new hnone rfl
  refine ⟨⟨rfl, id⟩, fun _ => hleads, fun _ hp => ?_⟩
  exact hp.of_precedes (fun _ => Iff.rfl) (hputs.accounted hp.now (hp.now.unopened _ hnone))
    hleads.precedes

/-- What is kept on one thread is kept when another one waits for it. -/
theorem onThread {n : ThreadName} (h : Kept (p.entered n) q) : Kept p (q.reentered p.here) := by
  have hentered : p.Alike (p.entered n) := Process.alike_of_eq rfl rfl
  have hleft : q.Alike (q.reentered p.here) := Process.alike_of_eq rfl rfl
  have hcalm : ¬ (q.reentered p.here).Panicked → ¬ q.Panicked := mt (hleft.noted _).2
  refine ⟨⟨rfl, fun hp => ?_⟩, fun hq => ?_, fun hq hp => ?_⟩
  · exact (hleft.noted _).2 (h.panicked ((hentered.noted _).2 hp))
  · rw [hleft.sight, ← hentered.sight]
    exact h.leads (hcalm hq)
  · exact (h.sound (hcalm hq) (hp.of_alike hentered)).of_alike hleft

/-- A window that stood is not being restored after something that kept the books. -/
theorem not_closing {i : Nat} {win : Window} (h : Kept p q) (hw : p.current.windows[i]? = some win)
    (hs : win.status = .standing) (hq : ¬ q.Panicked) :
    ∀ v, q.current.windows[i]? = some v → v.status ≠ .closing := by
  intro v hv hc
  rw [← Process.window?_sight, h.here] at hv
  have hbefore := (h.leads hq).closing _ v nofun hv hc
  rw [Process.window?_sight, hw] at hbefore
  rw [← Option.some.inj hbefore, hs] at hc
  exact absurd hc (by simp)

end Kept

end Ambient
