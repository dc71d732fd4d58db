import Ambient.Proofs.Capturing
import Ambient.Proofs.Restoring
import Ambient.Task

/-! Programs of nested windows, and what they mean. A program writes and clears slots, panics,
catches panics, and runs programs in windows, however deep and in whatever manner a window is
opened and ended. Its meaning is a function on slots which knows nothing of windows, priors or
the order of restoration. Proved: running a program on a thread that has slots comes to what it
means. Accessors other than slots are left to other modules. -/

namespace Ambient

variable {η ν ω : Type} (H : Host η ν)

/-! ### Snapshots of slots -/

/-- A snapshot whose keys are all slots, each captured once. -/
structure SlotSnapshot extends Snapshot where
  /-- Every entry is a slot's. -/
  slots : ∀ e ∈ entries, e.accessor = .slot e.key
  /-- No key is captured twice. -/
  nodup : toSnapshot.keys.Nodup

/-- What slots hold. -/
abbrev Slots := Key → Option Value

namespace SlotSnapshot

/-- The slots with what the snapshot captured put over them. -/
def overlay (s : SlotSnapshot) (m : Slots) : Slots := fun k => (s.get? k).getD (m k)

/-- What `n` has besides the snapshot's keys, and on these what `m` has. -/
def back (s : SlotSnapshot) (m n : Slots) : Slots := fun k => if s.contains k then m k else n k

/-- What a window under the snapshot makes of slots, if its body makes `f` of them. The body
finds the snapshot's slots put over; afterwards these are back, and the others as it left them,
however it ended. -/
def around (s : SlotSnapshot) (f : Slots → Exit Unit × Slots) (m : Slots) : Exit Unit × Slots :=
  ((f (s.overlay m)).1, s.back m (f (s.overlay m)).2)

end SlotSnapshot

/-! ### Programs -/

/-- How a window is opened and ended around a body. -/
inductive Manner (ω : Type) where
  /-- By running the body inside the snapshot. -/
  | within
  /-- By a poll of a task, whose inner computation runs the body and comes so far. -/
  | poll (label : Option String) (polls : UInt64) (progress : Progress ω)
  /-- By installing the snapshot, and closing the window after the body. -/
  | closed
  /-- By installing the snapshot, and dropping the window after the body. -/
  | dropped

/-- A program over slots. -/
inductive Program (ω : Type) where
  | skip
  /-- Puts a value into a slot, or clears it. -/
  | write (k : Key) (content : Option Value)
  | panic (text : String)
  | seq (a b : Program ω)
  /-- Runs a program; a panic goes no further. -/
  | catching (a : Program ω)
  /-- Runs a program in a window. -/
  | window (manner : Manner ω) (s : SlotSnapshot) (body : Program ω)

/-- A failure that nobody handles is a panic. -/
def Action.expect {α : Type} : Except Failure α → Action η ν Unit
  | .ok _ => pure ()
  | .error failure => Action.panic failure.message

/-- Runs `body` in a window. A window that is open when the body panics is dropped. -/
def Manner.run (s : Snapshot) (body : Action η ν Unit) : Manner ω → Action η ν Unit
  | within => do Action.expect (← s.within H body)
  | poll label polls progress => do
    let task : Task := { bridge := ⟨s⟩, label, polls }
    Action.expect (← (task.poll H do body; return progress).2)
  | closed => do
    match ← s.install H with
    | .error failure => Action.panic failure.message
    | .ok i =>
      match ← Action.attempt body with
      | .returned () => Action.expect (← Window.close H i)
      | .panicked text =>
        Window.drop H i
        Action.panic text
  | dropped => do
    match ← s.install H with
    | .error failure => Action.panic failure.message
    | .ok i => Action.ensuring body (Window.drop H i)

namespace Program

/-- Runs a program on the running thread. -/
def run : Program ω → Action η ν Unit
  | skip => pure ()
  | write k content => do Action.expect (← Slot.write H k content)
  | panic text => Action.panic text
  | seq a b => do a.run; b.run
  | catching a => do let _ ← Action.attempt a.run
  | window manner s body => manner.run H s.toSnapshot body.run

/-- What a program means: how it ends, and what it makes of the slots. -/
def denote : Program ω → Slots → Exit Unit × Slots
  | skip, m => (.returned (), m)
  | write k content, m => (.returned (), Function.update m k content)
  | panic text, m => (.panicked text, m)
  | seq a b, m =>
    match a.denote m with
    | (.returned (), n) => b.denote n
    | (.panicked text, n) => (.panicked text, n)
  | catching a, m => (.returned (), (a.denote m).2)
  | window _ s body, m => s.around body.denote m

end Program

/-! ### Slots as cells -/

/-- No cells besides the slots. -/
def slotsOnly (η : Type) : Cells η Empty where
  look _ _ c := c.elim
  address _ := .slot ""

variable {H}

namespace SlotSnapshot

theorem isCell (s : SlotSnapshot) : ∀ e ∈ s.entries, e.accessor.IsCell H (slotsOnly η) := by
  intro e he
  rw [s.slots e he]
  trivial

theorem unfailing (s : SlotSnapshot) {p : Process η ν} (hp : p.current.storage.isLive = true) :
    ∀ e ∈ s.entries, e.accessor.Unfailing H p.current.storage.isLive := by
  intro e he
  rw [s.slots e he, hp]
  exact Accessor.unfailing_slot e.key

theorem cell_eq (s : SlotSnapshot) : ∀ e ∈ s.entries, e.cell (slotsOnly η) = .slot e.key := by
  intro e he
  rw [Entry.cell, s.slots e he]
  rfl

theorem mem_cells (s : SlotSnapshot) (k : Key) :
    Cell.slot k ∈ s.entries.map (Entry.cell (slotsOnly η)) ↔ s.contains k = true := by
  rw [List.map_congr_left (cell_eq s), Snapshot.contains_iff, Snapshot.keys]
  simp

/-- Where no slot occurs twice, it does not matter in which order slots are written. -/
theorem writeAll_slots {l : List Entry} (hl : ∀ e ∈ l, e.accessor = .slot e.key)
    (hd : (l.map Entry.key).Nodup) (m : Contents Empty) (k : Key) :
    Entry.writeAll (slotsOnly η) l m (.slot k) =
      (Entry.lookUp k l).getD (m (.slot k)) := by
  induction l generalizing m with
  | nil => rfl
  | cons e rest ih =>
    have he : e.cell (slotsOnly η) = .slot e.key := by
      rw [Entry.cell, hl e List.mem_cons_self]
      rfl
    obtain ⟨hk, hrest⟩ := List.nodup_cons.1 (List.map_cons ▸ hd)
    rw [Entry.writeAll_cons, ih (fun d hd => hl d (List.mem_cons_of_mem _ hd)) hrest, Entry.lookUp, he]
    by_cases h : e.key = k
    · subst h
      have hnone : Entry.lookUp e.key rest = none := by
        rw [← Option.not_isSome_iff_eq_none, Entry.lookUp_isSome_iff]
        exact hk
      rw [hnone, if_pos rfl, Option.getD_none, Function.update_self, Option.getD_some]
    · rw [if_neg h, Function.update_of_ne fun heq => h (Cell.slot.inj heq).symm]

end SlotSnapshot

/-! ### Captures of slots -/

/-- What is captured of a registry of slots, be it from the thread or from a carrier, is a
snapshot of slots. -/
theorem SlotSnapshot.of_capture {r : RegistryId} {carrier : Option Carrier} {settings : Settings}
    {p q : Process η ν} {s : Snapshot} (hr : ∀ a ∈ (p.registry r).accessors, a = .slot a.key)
    (h : Snapshot.capture H r carrier settings p = (.returned s, q)) :
    ∃ captured : SlotSnapshot, captured.toSnapshot = s := by
  have hsub := Snapshot.accessors_capture h
  have hsorted := (Snapshot.keyed_of_sublist hsub).1
  refine ⟨⟨s, fun e he => ?_, ?_⟩, rfl⟩
  · exact hr e.accessor (hsub.subset (List.mem_map_of_mem he))
  · refine hsorted.imp fun {j k} h heq => ?_
    subst heq
    exact String.lt_irrefl j h

/-! ### Meanings -/

/-- On threads that have slots, running `m` comes to what `f` makes of the slots. -/
def Action.Computes (m : Action η ν Unit) (f : Slots → Exit Unit × Slots) : Prop :=
  ∀ p, p.current.storage.isLive = true →
    ∃ q, m p = ((f p.slot?).1, q) ∧ p.Frame q ∧ q.slot? = (f p.slot?).2

theorem computes_write (k : Key) (content : Option Value) :
    Action.Computes (do Action.expect (← Slot.write H k content) : Action η ν Unit)
      fun m => (.returned (), Function.update m k content) := by
  intro p hp
  have hframe := (Slot.written (V := slotsOnly η) (H := H) k content p).frame
  cases hs : p.current.storage with
  | destroyed => simp [hs, Storage.isLive] at hp
  | live slots =>
    have hslot := fun j => Slot.slot?_write H hs k j content
    refine ⟨(Slot.write H k content p).2, ?_, hframe, ?_⟩
    · rw [Slot.write_live H hs, Action.bind_of_returned (Slot.write_live H hs k content)]
      rfl
    · funext j
      show (Slot.write H k content p).2.slot? j = Function.update p.slot? k content j
      by_cases hj : k = j
      · rw [hslot, if_pos hj, ← hj, Function.update_self]
      · rw [hslot, if_neg hj, Function.update_of_ne (Ne.symm hj)]

theorem Action.Computes.seq {m n : Action η ν Unit} {f g : Slots → Exit Unit × Slots}
    (hm : m.Computes f) (hn : n.Computes g) :
    Action.Computes (do m; n) fun s => match f s with
      | (.returned (), s') => g s'
      | (.panicked text, s') => (.panicked text, s') := by
  intro p hp
  obtain ⟨q, hq, hf, hs⟩ := hm p hp
  rcases hfp : f p.slot? with ⟨⟨⟩ | text, s'⟩ <;> rw [hfp] at hq hs <;> simp only [hfp]
  · obtain ⟨r, hr, hg, ht⟩ := hn q (hf.live.trans hp)
    rw [hs] at hr ht
    exact ⟨r, (Action.bind_of_returned hq _).trans hr, hf.trans hg, ht⟩
  · exact ⟨q, Action.bind_of_panicked hq _, hf, hs⟩

theorem Action.Computes.catching {m : Action η ν Unit} {f : Slots → Exit Unit × Slots}
    (hm : m.Computes f) :
    Action.Computes (do let _ ← Action.attempt m) fun s => (.returned (), (f s).2) := by
  intro p hp
  obtain ⟨q, hq, hf, hs⟩ := hm p hp
  refine ⟨q, ?_, hf, hs⟩
  rw [Action.bind_apply, Action.attempt_apply, hq]
  rfl

/-! ### Windows -/

/-- A snapshot of slots that was installed is put over them. -/
theorem SlotSnapshot.slot?_of_installed {s : SlotSnapshot} {i : Nat} {p q : Process η ν}
    (hi : s.Installed (slotsOnly η) p i q) : q.slot? = s.overlay p.slot? := by
  funext k
  exact (congrFun hi.contents (.slot k)).trans (writeAll_slots s.slots s.nodup _ k)

/-- Where a window over slots leads. Whatever happens in it and whichever way it ends, the
snapshot's slots hold again what they held before. -/
theorem SlotSnapshot.install_apply (s : SlotSnapshot) {p : Process η ν}
    (hp : p.current.storage.isLive = true) :
    ∃ i q, s.install H p = (.returned (.ok i), q) ∧ p.Frame q ∧ q.slot? = s.overlay p.slot? ∧
      ∀ r, q.Frame r →
        (∃ r', Window.close H i r = (.returned (.ok ()), r') ∧ p.Frame r' ∧
          r'.slot? = s.back p.slot? r.slot?) ∧
        ∃ r', Window.drop H i r = (.returned (), r') ∧ p.Frame r' ∧
          r'.slot? = s.back p.slot? r.slot? := by
  have hback : ∀ {r r' : Process η ν}, (∀ c, r'.contents (slotsOnly η) c =
      if c ∈ s.entries.map (Entry.cell (slotsOnly η)) then p.contents (slotsOnly η) c
        else r.contents (slotsOnly η) c) → r'.slot? = s.back p.slot? r.slot? := by
    intro r r' h
    funext k
    have hk := h (.slot k)
    rw [if_congr (s.mem_cells k) rfl rfl] at hk
    exact hk
  obtain ⟨i, q, hinstall, hi⟩ := Snapshot.install_of_unfailing s.isCell (s.unfailing hp)
  refine ⟨i, q, hinstall, hi.frame, slot?_of_installed hi, fun r hr => ⟨?_, ?_⟩⟩
  · obtain ⟨r', hclose, hf, hc⟩ := Window.close_of_installed s.isCell (s.unfailing hp) hi hr
    exact ⟨r', hclose, hf, hback hc⟩
  · obtain ⟨r', hdrop, hf, hc⟩ := Window.drop_of_installed s.isCell (s.unfailing hp) hi hr
    exact ⟨r', hdrop, hf, hback hc⟩

namespace Action.Computes

variable {body : Action η ν Unit} {f : Slots → Exit Unit × Slots}

/-- A body in a window over slots. It does not matter whether anything that leaves the slots
alone happens between its end and the end of the window. -/
theorem window (hb : body.Computes f) (s : SlotSnapshot) {p : Process η ν}
    (hp : p.current.storage.isLive = true) :
    ∃ i q r, s.install H p = (.returned (.ok i), q) ∧ body q = ((s.around f p.slot?).1, r) ∧
      ∀ r₁, r.Frame r₁ → r₁.slot? = r.slot? →
        (∃ r', Window.close H i r₁ = (.returned (.ok ()), r') ∧ p.Frame r' ∧
          r'.slot? = (s.around f p.slot?).2) ∧
        ∃ r', Window.drop H i r₁ = (.returned (), r') ∧ p.Frame r' ∧
          r'.slot? = (s.around f p.slot?).2 := by
  obtain ⟨i, q, hinstall, hpq, hlaid, hend⟩ := s.install_apply (H := H) hp
  obtain ⟨r, hr, hf, hs⟩ := hb q (hpq.live.trans hp)
  rw [hlaid] at hr hs
  refine ⟨i, q, r, hinstall, hr, fun r₁ hf₁ hs₁ => ?_⟩
  have hback : s.back p.slot? r₁.slot? = (s.around f p.slot?).2 := by
    rw [hs₁, hs]
    rfl
  rw [← hback]
  exact hend r₁ (hf.trans hf₁)

theorem within (hb : body.Computes f) (s : SlotSnapshot) :
    Computes (do Action.expect (← s.within H body)) (s.around f) := by
  intro p hp
  obtain ⟨i, q, r, hinstall, hr, hend⟩ := hb.window (H := H) s hp
  obtain ⟨⟨r', hclose, hf, hs⟩, -⟩ := hend r (.refl r) rfl
  refine ⟨r', ?_, hf, hs⟩
  rcases hexit : (s.around f p.slot?).1 with ⟨⟩ | text <;> rw [hexit] at hr
  · have hwithin := Snapshot.within_of_returned hinstall hr
    rw [hclose] at hwithin
    exact Action.bind_of_returned hwithin _
  · have hwithin := Snapshot.within_of_panicked hinstall hr
    rw [hclose] at hwithin
    exact Action.bind_of_panicked hwithin _

/-- A task logs that it resumes and suspends around its window, which no slot notices. -/
theorem poll (hb : body.Computes f) (s : SlotSnapshot) (t : Task)
    (ht : t.bridge.snapshot = s.toSnapshot) (progress : Progress ω) :
    Computes (do Action.expect (← (t.poll H do body; return progress).2)) (s.around f) := by
  intro p hp
  obtain ⟨i, q, r, hinstall, hr, hend⟩ := hb.window (H := H) s
    (p := p.record (.logged (.resuming t.advance.site))) hp
  obtain ⟨⟨r', hclose, hf, hs⟩, -⟩ := hend (r.record (.logged (.suspending t.advance.site)))
    (r.frame_record _) (r.slot?_record _)
  rw [Process.slot?_record] at hr hs
  refine ⟨r', ?_, (p.frame_record _).trans hf, hs⟩
  rw [← ht] at hinstall
  have hresume := (Bridge.resume_apply H t.advance.bridge t.advance.site p).trans hinstall
  have hsuspend := (Bridge.suspend_apply H t.advance.site i r).trans hclose
  rcases hexit : (s.around f p.slot?).1 with ⟨⟩ | text <;> rw [hexit] at hr
  · have hinner := Action.bind_of_returned hr fun _ => pure progress
    have hwindow := Task.window_of_returned hresume (hinner.trans (Action.pure_apply progress r))
    rw [hsuspend] at hwindow
    exact Action.bind_of_returned hwindow _
  · have hwindow := Task.window_of_panicked hresume
      (Action.bind_of_panicked hr fun _ => pure progress)
    rw [hsuspend] at hwindow
    exact Action.bind_of_panicked hwindow _

theorem closed (hb : body.Computes f) (s : SlotSnapshot) :
    Computes (Manner.run H s.toSnapshot body (.closed : Manner ω)) (s.around f) := by
  intro p hp
  obtain ⟨i, q, r, hinstall, hr, hend⟩ := hb.window (H := H) s hp
  obtain ⟨⟨r', hclose, hf, hs⟩, ⟨r'', hdrop, hf', hs'⟩⟩ := hend r (.refl r) rfl
  rw [Manner.run, Action.bind_of_returned hinstall]
  rcases hexit : (s.around f p.slot?).1 with ⟨⟩ | text <;> rw [hexit] at hr
  · refine ⟨r', ?_, hf, hs⟩
    simp only [Action.bind_apply, Action.attempt_apply, hr, hclose]
    rfl
  · refine ⟨r'', ?_, hf', hs'⟩
    simp only [Action.bind_apply, Action.attempt_apply, hr, hdrop]
    rfl

theorem dropped (hb : body.Computes f) (s : SlotSnapshot) :
    Computes (Manner.run H s.toSnapshot body (.dropped : Manner ω)) (s.around f) := by
  intro p hp
  obtain ⟨i, q, r, hinstall, hr, hend⟩ := hb.window (H := H) s hp
  obtain ⟨-, ⟨r', hdrop, hf, hs⟩⟩ := hend r (.refl r) rfl
  refine ⟨r', ?_, hf, hs⟩
  rw [Manner.run, Action.bind_of_returned hinstall]
  simp only [Action.ensuring, Action.bind_apply, Action.attempt_apply, hr, hdrop, Action.finish]

theorem run (hb : body.Computes f) (s : SlotSnapshot) (manner : Manner ω) :
    Computes (manner.run H s.toSnapshot body) (s.around f) := by
  cases manner with
  | within => exact hb.within s
  | poll label polls progress => exact hb.poll s { bridge := ⟨s.toSnapshot⟩, label, polls } rfl progress
  | closed => exact hb.closed s
  | dropped => exact hb.dropped s

end Action.Computes

namespace Program

/-- Every construct preserves that running comes to what is meant. -/
theorem computes (prog : Program ω) : Action.Computes (prog.run H) prog.denote := by
  induction prog with
  | skip => exact fun p _ => ⟨p, rfl, .refl p, rfl⟩
  | write k content => exact computes_write k content
  | panic text => exact fun p _ => ⟨p, rfl, .refl p, rfl⟩
  | seq a b iha ihb => exact iha.seq ihb
  | catching a ih => exact ih.catching
  | window manner s body ih => exact ih.run s manner

/-- Running a program ends as the program means, on the same thread, whose slots then hold
exactly what it means. -/
theorem run_eq_denote (prog : Program ω) {p : Process η ν} {slots : Table Value}
    (hp : p.current.storage = .live slots) :
    ∃ q left, prog.run H p = ((prog.denote slots.get?).1, q) ∧ q.here = p.here ∧
      q.current.storage = .live left ∧ left.get? = (prog.denote slots.get?).2 := by
  have hslot : p.slot? = slots.get? := by
    funext k
    rw [Process.slot?, hp]
    rfl
  have hlive : p.current.storage.isLive = true := by rw [hp]; rfl
  obtain ⟨q, hq, hf, hs⟩ := prog.computes (H := H) p hlive
  rw [hslot] at hq hs
  cases hleft : q.current.storage with
  | destroyed => exact absurd (hf.live.trans hlive) (by simp [hleft, Storage.isLive])
  | live left =>
    refine ⟨q, left, hq, hf.here, hleft, ?_⟩
    rw [← hs]
    funext k
    rw [Process.slot?, hleft]
    rfl

/-- A window over two slots, left by a panic after another window over one of them. -/
def nested : Program Unit :=
  .seq (.write "a" (some ⟨.numbered 0, .unit⟩))
    (.catching (.window .within
      { entries := [⟨.slot "a", some ⟨.numbered 1, .unit⟩⟩, ⟨.slot "b", none⟩]
        slots := by decide
        nodup := by decide }
      (.seq
        (.window (.poll none 0 .pending)
          { entries := [⟨.slot "b", some ⟨.numbered 2, .unit⟩⟩]
            slots := by decide
            nodup := by decide }
          (.write "c" (some ⟨.numbered 3, .unit⟩)))
        (.panic "left"))))

theorem run_eq_denote_nested :
    ∃ q left, nested.run (rack (fun _ => "") fun _ _ => .returned (.ok ()))
        ({ here := "main", host := .empty } : Process (Table Value) Unit) = (.returned (), q) ∧
      q.current.storage = .live left ∧ left.get? "a" = some ⟨.numbered 0, .unit⟩ ∧
      left.get? "b" = none ∧ left.get? "c" = some ⟨.numbered 3, .unit⟩ := by
  have hp : ({ here := "main", host := .empty } : Process (Table Value) Unit).current.storage =
      .live .empty := rfl
  obtain ⟨q, left, hq, -, hleft, hmeant⟩ :=
    run_eq_denote (H := rack (fun _ => "") fun _ _ => .returned (.ok ())) nested hp
  exact ⟨q, left, hq, hleft, by rw [hmeant]; rfl, by rw [hmeant]; rfl, by rw [hmeant]; rfl⟩

end Program

end Ambient
