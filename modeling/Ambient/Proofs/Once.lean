import Ambient.Proofs.Upkeep

/-! Programs, and the restorations of their windows. A program puts the library's operations together
in whatever manner, on any threads, and so do the functions behind its accessors, which the library
calls back. Only a window that is being restored is out of reach, since whoever ends a window gives
it up. Proved: in every run in which no function of an accessor panics, what a window displaced is
written back entry by entry, each once, by whatever ends the window, and nothing of it before. -/

namespace Ambient

variable {η α β ω : Type}

/-! ### Programs -/

/-- Notes what is to be seen. -/
def Action.look : Action η Note Unit := fun p => (.returned (), p.record (.noted (.seen p.sight)))

/-- From `p` to `q` windows were left alone, and nothing has happened. -/
structure Process.Untouched (p q : Process η Note) : Prop where
  here : q.here = p.here
  windows : ∀ n, (q.thread n).windows = (p.thread n).windows
  history : q.history = p.history

/-- What programs do besides is their own affair, and leaves windows alone; or something is logged, or
noted. -/
inductive Honest.Own : {α : Type} → Action η Note α → Prop
  | untouched {α : Type} {m : Action η Note α} (h : ∀ p : Process η Note, p.Untouched (m p).2) :
      Own m
  | log (e : LogEvent) : Own (Action.log e)
  | look : Own Action.look

/-- How programs use the library whose accessors' functions are watched. -/
def Honest.usage : Usage η Note where
  own := Own
  seen := Host.watched
  careful := true

/-- Programs. -/
abbrev Honest (m : Action η Note α) : Prop := Routine Honest.usage m

/-- The functions behind the accessors are programs. -/
abbrev Host.Honest (H : Host η Note) : Prop := H.Runs Ambient.Honest.usage

/-! ### Programs keep the books -/

theorem Process.Untouched.alike {p q : Process η Note} (h : p.Untouched q) : p.Alike q := by
  refine ⟨?_, fun note => by rw [Noted, h.history, Noted]⟩
  rw [Process.sight, Process.sight, calls, calls, h.history, Sight.mk.injEq]
  exact ⟨funext h.windows, rfl⟩

theorem Honest.preserves : Usage.Preserves Honest.usage (Kept (η := η)) where
  own h p := by
    cases h with
    | untouched h => exact .of_alike (h p).here (h p).alike
    | log e => exact .log p e
    | look => exact .seen p
  library h := Kept.enduring (fun ref => ⟨.watched (h ref).read,
    fun v => .watched ((h ref).write v), .watched (h ref).clear⟩) (Host.spoils_watched _)
  freeing := Kept.freeing
  aside := .of_aside
  task p e _ := .log p e
  trans := .trans
  moved := .onThread
  stacked p f := .of_alike rfl
    (p.alike_modifyCurrent (f := fun t => { t with registries := f t.registries }) rfl)

/-- Programs keep the books. -/
theorem Honest.keeps {m : Action η Note α} (hm : Honest m) : m.Lasts Kept :=
  hm.lasts preserves rfl

/-! ### Windows that end -/

/-- The window is over, and what it displaced has been written back entry by entry, each once. -/
structure Restored (ref : WindowRef) (win : Window) (p : Process η Note) : Prop where
  window : p.sight.window? ref = some { win with status := .ended }
  made : p.sight.writeBacks ref = win.restoration ref

variable {H : Host η Note} {i : Nat} {trigger : Trigger} {p q last : Process η Note}
  {answer : Option Failure} {win : Window} {ref : WindowRef}

/-- What is over stays over. -/
theorem Restored.kept (h : Restored ref win p) (hk : Kept p q) (hq : ¬ q.Panicked) :
    Restored ref win q := by
  obtain ⟨hw, hmade⟩ := (hk.leads hq).rest ref _ nofun h.window (by simp)
  exact ⟨hw, hmade.trans h.made⟩

/-- Whatever ends a window restores it and marks it as over; what it does besides keeps the books. -/
theorem Concludes.kept (E : Enduring H Kept) (h : Concludes H i trigger p answer last) :
    Kept ((Window.restore H i p).2.marked i .ended) last := by
  cases h with
  | close i p => exact E.close_ended i p
  | drop i p => exact E.endWith_ended (fun _ => rfl) (fun _ => rfl) i p
  | suspend i site p =>
    rw [Bridge.suspend_apply]
    exact E.close_ended i _
  | rollback f =>
    obtain ⟨n, hn⟩ := f.install_eq
    rw [hn]
    exact (E.endWith_ended (fun _ => rfl) (fun _ => rfl) f.index f.opened).trans
      (.of_aside (Process.aside_unhold _ n))
  | within hi hb =>
    rw [Snapshot.within_snd hi hb]
    exact E.close_ended i p
  | @poll _ t _ exit _ _ _ r hi hb =>
    rw [Bridge.resume_apply, Task.bridge_advance] at hi
    rw [Task.poll_of_ok hi, hb]
    have hclose := E.close_ended i (r.record (.logged (.suspending t.advance.site)))
    rw [← Bridge.suspend_apply] at hclose
    exact hclose.trans (E.conclude_ended t.advance i exit r)

theorem Concludes.restored (hH : ∀ ref, (H.behaviour ref).Lasts Kept)
    (hpanic : H.Spoils Process.Panicked) (h : Concludes H i trigger p answer last) (hp : p.Sound)
    (hw : p.current.windows[i]? = some win) (hs : win.status = .standing) (hq : ¬ last.Panicked) :
    Restored ⟨p.here, i⟩ win last := by
  have E := Kept.enduring hH hpanic
  have hmarked : ¬ (Window.restore H i p).2.Panicked := fun h' => hq ((h.kept E).panicked h')
  have hwindow := (Window.restore_puts hH hpanic hw hs hmarked).window
  have hsound : ((Window.restore H i p).2.marked i .ended).Sound :=
    (E.restored hw hs).sound hmarked hp
  have hended : Restored ⟨p.here, i⟩ win ((Window.restore H i p).2.marked i .ended) :=
    ⟨hwindow, hsound.now.opened _ _ hwindow⟩
  exact hended.kept (h.kept E) hq

/-! ### Runs -/

/-- Nothing has been called yet, and nothing noted. -/
theorem Process.sound_start (n : ThreadName) (host : η) :
    ({ here := n, host } : Process η Note).Sound :=
  ⟨⟨fun _ _ => rfl, fun ref win hw => absurd hw (by simp [Sight.window?, Process.sight, Process.thread])⟩,
    fun s hs => absurd hs List.not_mem_nil⟩

/-- A run of a program in which no function of an accessor panicked. In the end each window either
stands, and nothing of what it displaced has been written back, or it is over, and all of it has,
each entry once. The books were right at every moment that was looked at. Whatever ends a window
that stands restores it, and no program undoes that or does it again. -/
theorem Honest.restored_once {m : Action η Note α} (hm : Honest m) {n : ThreadName} {host : η}
    {exit : Exit α} (hrun : m { here := n, host } = (exit, last)) (hcalm : ¬ last.Panicked) :
    (∀ ref win, last.sight.window? ref = some win →
      win.status = .standing ∧ last.sight.writeBacks ref = [] ∨
        win.status = .ended ∧ last.sight.writeBacks ref = win.restoration ref) ∧
    (∀ s, last.Noted (.seen s) → s.Accounted ∧ s.Precedes last.sight) ∧
    ∀ (H : Host η Note) (i : Nat) (trigger : Trigger) (p q : Process η Note)
      (answer : Option Failure) (win : Window), H.Honest → p.Sound →
      p.current.windows[i]? = some win → win.status = .standing →
      Concludes H.watched i trigger p answer q → ¬ q.Panicked →
      Restored ⟨p.here, i⟩ win q ∧ ∀ (β : Type) (later : Action η Note β), Honest later →
        ¬ (later q).2.Panicked → Restored ⟨p.here, i⟩ win (later q).2 := by
  have hkept := hm.keeps { here := n, host }
  rw [hrun] at hkept
  have hsound := hkept.sound hcalm (Process.sound_start n host)
  refine ⟨fun ref win hw => ?_, hsound.seen, ?_⟩
  · have htally := hsound.now.opened ref win hw
    cases hs : win.status with
    | standing =>
      rw [Window.Tallies, hs] at htally
      exact .inl ⟨rfl, htally⟩
    | closing =>
      -- there were no windows in the beginning
      exact absurd ((hkept.leads hcalm).closing ref win (by simp) hw hs)
        (by simp [Sight.window?, Process.sight, Process.thread])
    | ended =>
      rw [Window.Tallies, hs] at htally
      exact .inr ⟨rfl, htally⟩
  · intro H i trigger p q answer win hH hp hw hs hends hq
    have hrestored := hends.restored (hH.enduring preserves rfl).functions H.spoils_watched hp hw hs hq
    exact ⟨hrestored, fun β later hlater hq' => hrestored.kept (hlater.keeps q) hq'⟩

namespace Honest

/-- An embedding program with one cell. -/
def plain : Host (Table Value) Note := rack (fun _ => "cell") fun _ _ => .returned (.ok ())

/-- Its key, with a value. -/
def laden : Snapshot where
  entries := [⟨.custom "a" 0, some ⟨.numbered 0, .unit⟩⟩]

/-- The same program, but when the cell is to be cleared, it first runs something inside a snapshot
of its own, where it looks around. -/
def nested : Host (Table Value) Note where
  behaviour ref :=
    { read := (plain.behaviour ref).read
      write := (plain.behaviour ref).write
      clear := do
        let _ ← laden.within plain.watched Action.look
        (plain.behaviour ref).clear }
  holds := plain.holds

/-- A window is opened, looked at and closed twice. -/
def outing : Action (Table Value) Note Unit := do
  let _ ← (Operation.install laden).run nested.watched
  Action.look
  let _ ← (Operation.close 0).run nested.watched
  let _ ← (Operation.close 0).run nested.watched

theorem honest_untouched {m : Action η Note α} (h : ∀ p : Process η Note, p.Untouched (m p).2) :
    Honest m := .own (.untouched h)

theorem honest_plain : plain.Honest := fun _ =>
  ⟨honest_untouched fun _ => ⟨rfl, fun _ => rfl, rfl⟩,
    fun _ => honest_untouched fun _ => ⟨rfl, fun _ => rfl, rfl⟩,
    honest_untouched fun _ => ⟨rfl, fun _ => rfl, rfl⟩⟩

theorem honest_nested : nested.Honest := fun ref =>
  ⟨(honest_plain ref).read, (honest_plain ref).write,
    (honest_plain.within laden (.own Own.look)).bind fun _ => (honest_plain ref).clear⟩

theorem honest_outing : Honest outing :=
  (honest_nested.operation (.install laden)).bind fun _ => (Routine.own Own.look).bind fun _ =>
    (honest_nested.operation (.close 0)).bind fun _ =>
      (honest_nested.operation (.close 0)).bind fun _ =>
        honest_untouched fun _ => ⟨rfl, fun _ => rfl, rfl⟩

theorem not_panicked {p : Process η Note} (h : (p.history.all fun
    | .noted .panicked => false
    | _ => true) = true) : ¬ p.Panicked :=
  fun hp => absurd (List.all_eq_true.1 h _ hp) (by simp)

/-- The window is over, and the cell was cleared for it once. -/
theorem restored_once_outing : ∃ last win, outing { here := "main", host := .empty } =
      (.returned (), last) ∧ last.sight.window? ⟨"main", 0⟩ = some win ∧ win.status = .ended ∧
        last.sight.writeBacks ⟨"main", 0⟩ = win.restoration ⟨"main", 0⟩ := by
  have hrun : outing { here := "main", host := .empty } = (.returned (), _) := rfl
  obtain ⟨hbooks, -⟩ := restored_once honest_outing hrun (not_panicked rfl)
  have hw : (outing { here := "main", host := .empty }).2.sight.window? ⟨"main", 0⟩ =
      some ⟨laden, [⟨.custom "a" 0, none⟩], .ended⟩ := rfl
  obtain ⟨hs, -⟩ | ⟨hs, hmade⟩ := hbooks _ _ hw
  · exact absurd hs (by simp)
  · exact ⟨_, _, hrun, hw, hs, hmade⟩

end Honest

end Ambient
