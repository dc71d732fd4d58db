import Ambient.Proofs.Routines

/-! The library keeps the books. A restoration is followed through entry by entry, with accessors
whose functions keep the books in turn and may call the library themselves; a panic of theirs is
noted. Proved: where no function panics, the restoration of a window writes back what this displaced,
each entry once, and touches no other restoration. Keeping the books is thereby something that
endures, and whatever uses the library keeps them. -/

namespace Ambient

variable {η α : Type} {H : Host η Note}

/-! ### Functions that are watched -/

/-- Runs a function of an accessor; a panic is noted and goes on. -/
def Action.watched (m : Action η Note α) : Action η Note α := do
  match ← Action.attempt m with
  | .returned a => return a
  | .panicked text =>
    Action.record (.noted .panicked)
    Action.panic text

/-- The embedding program, with the functions of its accessors watched. -/
def Host.watched (H : Host η Note) : Host η Note where
  behaviour ref :=
    { read := (H.behaviour ref).read.watched
      write := fun v => ((H.behaviour ref).write v).watched
      clear := (H.behaviour ref).clear.watched }
  holds := H.holds

theorem Action.watched_apply (m : Action η Note α) (p : Process η Note) :
    m.watched p = match m p with
      | (.returned a, q) => (.returned a, q)
      | (.panicked text, q) => (.panicked text, q.record (.noted .panicked)) := by
  rw [watched, bind_apply, attempt_apply]
  rcases m p with ⟨a | text, q⟩ <;> rfl

theorem Action.watched_panicked {m : Action η Note α} {p : Process η Note} {text : String}
    (h : (m.watched p).1 = .panicked text) : (m.watched p).2.Panicked := by
  rw [watched_apply] at h ⊢
  rcases hq : m p with ⟨a | text, q⟩ <;> rw [hq] at h
  · exact absurd h (by simp)
  · exact List.mem_cons_self

theorem Host.spoils_watched (H : Host η Note) : H.watched.Spoils Process.Panicked where
  aside h := (h.noted _).2
  write _ _ _ _ := Action.watched_panicked
  clear _ _ _ := Action.watched_panicked

/-- A function that is watched keeps the books if it does so otherwise. -/
theorem Kept.watched {m : Action η Note α} (hm : m.Lasts Kept) : m.watched.Lasts Kept := by
  intro p
  have h := hm p
  rw [Action.watched_apply]
  rcases hq : m p with ⟨a | text, q⟩ <;> rw [hq] at h
  · exact h
  · exact .of_panicked h.here List.mem_cons_self

/-! ### What keeps the books -/

theorem Kept.of_aside {p q : Process η Note} (h : p.Aside q) : Kept p q := by
  refine .of_alike h.here ⟨?_, h.noted⟩
  rw [Process.sight, Process.sight, h.calls, funext h.windows]

theorem Kept.abiding (h : ∀ ref, (H.behaviour ref).Lasts Kept) : Abiding H Kept where
  aside := .of_aside
  called p _ := .called p
  logged p e _ _ := .log p e
  trans := .trans
  installed p s priors _ := (Kept.log p _).trans (.opened _ s priors)
  refused p s _ _ _ priors _ _ _ := (Kept.log p _).trans (.opened _ s priors)
  functions := h

/-- Which thread runs, and that a panic is noted, nothing changes at all. -/
theorem Steady.lasting (h : ∀ ref, (H.behaviour ref).Lasts Kept) :
    Lasting H (fun _ => True) Steady where
  aside h := ⟨h.here, (h.noted _).2⟩
  called _ _ _ := ⟨rfl, List.mem_cons_of_mem _⟩
  logged _ _ _ _ := ⟨rfl, List.mem_cons_of_mem _⟩
  trans := .trans
  installed _ _ _ _ := ⟨rfl, List.mem_cons_of_mem _⟩
  refused _ _ _ _ _ _ _ _ _ := ⟨rfl, List.mem_cons_of_mem _⟩
  functions ref := ⟨fun p => ((h ref).read p).toSteady, fun v p => ((h ref).write v p).toSteady,
    fun p => ((h ref).clear p).toSteady⟩
  restoring _ _ := ⟨rfl, List.mem_cons_of_mem _⟩
  closed _ _ h := ⟨h.here, fun hp => List.mem_cons_of_mem _ (h.panicked hp)⟩
  aborted _ _ h _ := ⟨h.here, h.panicked⟩
  spoils := H.spoils_true

/-! ### Restorations -/

/-- From `p` on the window is being restored, and in `q` the entries told have been written back. -/
structure UnderWay (ref : WindowRef) (win : Window) (done : List Entry) (p q : Process η Note) :
    Prop where
  leads : p.sight.Leads (some ref) q.sight
  window : q.sight.window? ref = some win
  books : p.Sound → q.Sound ∧ q.sight.writeBacks ref = done.map (Entry.writing (some ref))

namespace UnderWay

variable {ref : WindowRef} {win : Window} {done rest : List Entry} {e : Entry}
  {p q r : Process η Note}

/-- What keeps the books does not go on with the restoration. -/
theorem kept (h : UnderWay ref win done p q) (hc : win.status = .closing) (hk : Kept q r)
    (hr : ¬ r.Panicked) : UnderWay ref win done p r := by
  have hleads := hk.leads hr
  obtain ⟨hw, hmade⟩ := hleads.rest ref win nofun h.window (by simp [hc])
  refine ⟨h.leads.trans (hleads.weaken _), hw, fun hp => ?_⟩
  exact ⟨hk.sound hr (h.books hp).1, hmade.trans (h.books hp).2⟩

/-- The call that writes the next entry back. -/
theorem called (h : UnderWay ref win done p q) (hc : win.status = .closing)
    (hdue : win.priors.reverse = done ++ e :: rest) :
    UnderWay ref win (done ++ [e]) p (q.record (.called (e.writing (some ref)))) := by
  have hsight := q.sight_called (e.writing (some ref))
  have hleads : q.sight.Leads (some ref) (q.record (.called (e.writing (some ref)))).sight := by
    rw [hsight]
    exact q.sight.leads_called (e.writing (some ref))
  refine ⟨h.leads.trans hleads, h.window, fun hp => ⟨?_, ?_⟩⟩
  · have hnoted : ∀ note, (q.record (.called (e.writing (some ref)))).Noted note ↔ q.Noted note :=
      fun note => by simp [Process.Noted, Process.record]
    refine (h.books hp).1.of_precedes hnoted ?_ hleads.precedes
    rw [hsight]
    refine (h.books hp).1.now.called_due rfl h.window hc ?_
    rw [(h.books hp).2, Window.restoration, hdue]
    simp
  · rw [hsight, Sight.writeBacks_called, if_pos (by rfl), (h.books hp).2, List.map_append]
    rfl

/-- The next entry is written back. Whether the write succeeds makes no difference. -/
theorem write (hH : ∀ ref, (H.behaviour ref).Lasts Kept) (h : UnderWay ref win done p q)
    (hc : win.status = .closing) (hdue : win.priors.reverse = done ++ e :: rest)
    (hq : ¬ (e.accessor.write H e.value (some ref) q).2.Panicked) :
    UnderWay ref win (done ++ [e]) p (e.accessor.write H e.value (some ref) q).2 :=
  (h.called hc hdue).kept hc ((Kept.abiding hH).persisting.afterCall ..) hq

/-- The window is marked as over. -/
theorem leads_marked {win : Window} (h : UnderWay ref { win with status := .closing } done p q)
    (hputs : Sight.Puts ref { win with status := .ended } q.sight r.sight) :
    q.sight.Leads (some ref) r.sight := by
  refine hputs.leads fun old hold => ?_
  obtain rfl := Option.some.inj (h.window.symm.trans hold)
  exact ⟨rfl, rfl, Nat.le_succ _⟩

end UnderWay

namespace Window

variable {ref : WindowRef} {i : Nat} {win : Window} {p q : Process η Note}

/-- Unless a function panics, a restoration goes through all entries that are left. -/
theorem putBack_underWay (hH : ∀ ref, (H.behaviour ref).Lasts Kept)
    (hpanic : H.Spoils Process.Panicked) (hc : win.status = .closing) {l done : List Entry}
    (first : Option Failure) (h : UnderWay ref win done p q)
    (hdue : win.priors.reverse = done ++ l) (hq : ¬ (putBack H ref l first q).2.Panicked) :
    UnderWay ref win (done ++ l) p (putBack H ref l first q).2 := by
  induction l generalizing done first q with
  | nil =>
    rw [List.append_nil]
    exact h
  | cons e rest ih =>
    have hdue' : win.priors.reverse = (done ++ [e]) ++ rest := by rw [hdue]; simp
    have hwrite := h.write hH hc hdue
    have hsteady := fun first (r : Process η Note) =>
      ((Steady.lasting hH).putBack ref rest first r).panicked
    rw [putBack, Action.bind_apply] at hq ⊢
    rcases hw : e.accessor.write H e.value (some ref) q with ⟨(failure | ⟨⟩) | text, r⟩ <;>
      rw [hw] at hq hwrite
    · have hlogged : Kept r (r.record (.logged (.restoreFailed e.key failure))) := .log r _
      have hcalm : ¬ (r.record (.logged (.restoreFailed e.key failure))).Panicked :=
        fun h => hq (hsteady _ _ h)
      have hunder := (hwrite fun h => hcalm (hlogged.panicked h)).kept hc hlogged hcalm
      have hend := ih (first <|> some failure) hunder hdue' hq
      rwa [List.append_assoc] at hend
    · have hend := ih first (hwrite fun h => hq (hsteady _ _ h)) hdue' hq
      rwa [List.append_assoc] at hend
    · exact absurd (hpanic.of_write hw) hq

/-- A window that stands is restored: each entry is written back once. -/
theorem restore_underWay (hH : ∀ ref, (H.behaviour ref).Lasts Kept)
    (hpanic : H.Spoils Process.Panicked) (hw : p.current.windows[i]? = some win)
    (hs : win.status = .standing) (hq : ¬ (restore H i p).2.Panicked) :
    UnderWay ⟨p.here, i⟩ { win with status := .closing } win.priors.reverse p (restore H i p).2 := by
  have hclosing := Process.puts_marked (p.window?_sight i ▸ hw) .closing
  have hbegun : UnderWay ⟨p.here, i⟩ { win with status := .closing } [] p (p.marked i .closing) := by
    have hleads := hclosing.leads fun old hold => by
      obtain rfl : win = old := Option.some.inj (hw.symm.trans hold)
      exact ⟨rfl, rfl, by rw [hs]; exact Nat.zero_le _⟩
    refine ⟨hleads, hclosing.window, fun hp => ?_⟩
    have hnone : p.sight.writeBacks ⟨p.here, i⟩ = [] := by
      have htally := hp.now.opened ⟨p.here, i⟩ win hw
      rwa [Window.Tallies, hs] at htally
    refine ⟨hp.of_precedes (fun _ => Iff.rfl) (hclosing.accounted hp.now ?_) hleads.precedes,
      (hclosing.writeBacks _).trans hnone⟩
    rw [hnone]
    exact List.nil_prefix
  rw [restore_standing hw hs] at hq ⊢
  have hback := putBack_underWay hH hpanic rfl none hbegun (l := win.priors.reverse) rfl
  rcases hput : putBack H ⟨p.here, i⟩ win.priors.reverse none (p.marked i .closing) with
    ⟨first | text, r⟩ <;> rw [hput] at hq hback
  · exact (hback fun h => hq (List.mem_cons_of_mem _ h)).kept rfl (.log r _) hq
  · exact absurd (hpanic.of_putBack hput) hq

/-- Then it is over. -/
theorem restore_puts (hH : ∀ ref, (H.behaviour ref).Lasts Kept)
    (hpanic : H.Spoils Process.Panicked) (hw : p.current.windows[i]? = some win)
    (hs : win.status = .standing) (hq : ¬ (restore H i p).2.Panicked) :
    Sight.Puts ⟨p.here, i⟩ { win with status := .ended } (restore H i p).2.sight
      ((restore H i p).2.marked i .ended).sight := by
  have hhere : (restore H i p).2.here = p.here := ((Steady.lasting hH).enduring.restored hw hs).here
  have hwindow := (restore_underWay hH hpanic hw hs hq).window
  rw [← hhere] at hwindow ⊢
  exact Process.puts_marked hwindow .ended

end Window

/-- Keeping the books endures. -/
theorem Kept.enduring (hH : ∀ ref, (H.behaviour ref).Lasts Kept)
    (hpanic : H.Spoils Process.Panicked) : Enduring H Kept where
  toAbiding := Kept.abiding hH
  restored {p i win} hw hs := by
    refine ⟨(Steady.lasting hH).enduring.restored hw hs, fun hq => ?_, fun hq hp => ?_⟩
    · have hputs := Window.restore_puts hH hpanic hw hs hq
      have hunder := Window.restore_underWay hH hpanic hw hs hq
      exact (hunder.leads.trans (hunder.leads_marked hputs)).finish hw hs hputs.window (by simp)
    · have hputs := Window.restore_puts hH hpanic hw hs hq
      have hunder := Window.restore_underWay hH hpanic hw hs hq
      obtain ⟨hsound, hmade⟩ := hunder.books hp
      -- all that is due has been called, so the window may be marked as over
      exact hsound.of_precedes (fun _ => Iff.rfl) (hputs.accounted hsound.now hmade)
        (hunder.leads_marked hputs).precedes

/-- A window that stood may be ended after something that kept the books. -/
theorem Kept.freeing : Freeing (Kept (η := η)) := by
  intro p q i win hw hs h v hv hc
  by_cases hq : q.Panicked
  · exact .of_panicked rfl hq
  · exact absurd hc (h.not_closing hw hs hq v hv)

end Ambient
