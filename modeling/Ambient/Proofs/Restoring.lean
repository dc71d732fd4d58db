import Ambient.Proofs.Installing

/-! What a restoration does. The priors of a window are written back one after another, past
writes that fail and as far as the first that panics; `WrittenBack` tells that as a relation
between states which names what each write answered. The window is over from the first of
these writes on, however they go. Proved: what the restoration, closing and dropping of a
window come to in terms of that relation, and on cells what they leave in each. -/

namespace Ambient

variable {η ν κ : Type} (H : Host η ν)

/-! ### Passes -/

/-- From `p` the entries are written back for the window `ref`, one after another, with the
answers told, and `q` is where that leads. -/
inductive WrittenBack (ref : WindowRef) :
    Process η ν → List (Entry × Except Failure Unit) → Process η ν → Prop
  | nil (p) : WrittenBack ref p [] p
  | ok {p p₁ q e rest} (hw : e.accessor.write H e.value (some ref) p = (.returned (.ok ()), p₁))
      (h : WrittenBack ref p₁ rest q) : WrittenBack ref p ((e, .ok ()) :: rest) q
  | error {p p₁ q e rest failure}
      (hw : e.accessor.write H e.value (some ref) p = (.returned (.error failure), p₁))
      (h : WrittenBack ref (p₁.record (.logged (.restoreFailed e.key failure))) rest q) :
      WrittenBack ref p ((e, .error failure) :: rest) q

/-- The first failure among answers. -/
def firstFailure : List (Entry × Except Failure Unit) → Option Failure
  | [] => none
  | (_, .ok ()) :: rest => firstFailure rest
  | (_, .error failure) :: _ => some failure

/-- Entries, each with the answer that it was written back. -/
def passed (l : List Entry) : List (Entry × Except Failure Unit) := l.map fun e => (e, .ok ())

@[simp] theorem map_fst_passed (l : List Entry) : (passed l).map (·.1) = l := by
  simp [passed, Function.comp_def]

@[simp] theorem firstFailure_passed (l : List Entry) : firstFailure (passed l) = none := by
  induction l with
  | nil => rfl
  | cons e rest ih => exact ih

theorem mem_passed {l : List Entry} {d : Entry × Except Failure Unit} (h : d ∈ passed l) :
    d.1 ∈ l ∧ d.2 = .ok () := by
  obtain ⟨e, he, rfl⟩ := List.mem_map.1 h
  exact ⟨he, rfl⟩

variable {H}

namespace Window

theorem putBack_of_writtenBack {ref : WindowRef} {p q : Process η ν}
    {done : List (Entry × Except Failure Unit)} (h : WrittenBack H ref p done q)
    (rest : List Entry) (first : Option Failure) :
    putBack H ref (done.map (·.1) ++ rest) first p =
      putBack H ref rest (first <|> firstFailure done) q := by
  induction h generalizing first with
  | nil p => cases first <;> rfl
  | @ok p p₁ q e done hw _ ih =>
    rw [List.map_cons, List.cons_append, putBack, Action.bind_of_returned hw]
    exact ih first
  | @error p p₁ q e done failure hw _ ih =>
    rw [List.map_cons, List.cons_append, putBack, Action.bind_of_returned hw]
    change putBack H ref _ _ _ = _
    rw [ih]
    cases first <;> rfl

/-- Either all entries are written back, or there is a first whose write panics. -/
theorem writtenBack_or_panics (ref : WindowRef) (l : List Entry) (p : Process η ν) :
    (∃ done q, done.map (·.1) = l ∧ WrittenBack H ref p done q) ∨
      ∃ done x rest r text q, l = done.map (·.1) ++ x :: rest ∧ WrittenBack H ref p done r ∧
        x.accessor.write H x.value (some ref) r = (.panicked text, q) := by
  induction l generalizing p with
  | nil => exact .inl ⟨[], p, rfl, .nil p⟩
  | cons e rest ih =>
    rcases hw : e.accessor.write H e.value (some ref) p with ⟨(failure | ⟨⟩) | text, p₁⟩
    · rcases ih (p₁.record (.logged (.restoreFailed e.key failure))) with
        ⟨done, q, rfl, h⟩ | ⟨done, x, after, r, text, q, rfl, h, hx⟩
      · exact .inl ⟨(e, .error failure) :: done, q, rfl, .error hw h⟩
      · exact .inr ⟨(e, .error failure) :: done, x, after, r, text, q, rfl, .error hw h, hx⟩
    · rcases ih p₁ with ⟨done, q, rfl, h⟩ | ⟨done, x, after, r, text, q, rfl, h, hx⟩
      · exact .inl ⟨(e, .ok ()) :: done, q, rfl, .ok hw h⟩
      · exact .inr ⟨(e, .ok ()) :: done, x, after, r, text, q, rfl, .ok hw h, hx⟩
    · exact .inr ⟨[], e, rest, p, text, p₁, rfl, .nil p, hw⟩

theorem putBack_of_panics {ref : WindowRef} {x : Entry} {p q : Process η ν} {text : String}
    (hx : x.accessor.write H x.value (some ref) p = (.panicked text, q))
    (rest : List Entry) (first : Option Failure) :
    putBack H ref (x :: rest) first p = (.panicked text, q) := by
  rw [putBack, Action.bind_of_panicked hx]

end Window

/-! ### Ending a window -/

/-- The process when the window `i` of the running thread is where it is told to be in its
life. -/
def Process.marked (p : Process η ν) (i : Nat) (status : WindowStatus) : Process η ν :=
  p.modifyCurrent fun t =>
    { t with windows := t.windows.modify i fun win => { win with status } }

namespace Process

theorem Frame.marked {p q : Process η ν} (h : p.Frame q) {i : Nat}
    (hi : p.current.windows.length ≤ i) (status : WindowStatus) : p.Frame (q.marked i status) := by
  refine ⟨h.here, ?_, ?_⟩
  · rw [← h.live]
    simp [Process.marked, modifyCurrent]
  · have ht := List.prefix_iff_eq_take.1 h.windows
    simp only [Process.marked, modifyCurrent, current_setCurrent]
    rw [List.prefix_iff_eq_take, List.take_modify, ← ht, List.modify_eq_self hi]

theorem window_marked {p : Process η ν} {i : Nat} {win : Window}
    (hw : p.current.windows[i]? = some win) (status : WindowStatus) :
    (p.marked i status).current.windows[i]? = some { win with status } := by
  simp [marked, modifyCurrent, hw]

@[simp] theorem contents_marked (V : Cells η κ) (p : Process η ν) (i : Nat)
    (status : WindowStatus) : (p.marked i status).contents V = p.contents V :=
  contents_of_eq V rfl rfl (by simp [marked, modifyCurrent])

@[simp] theorem calls_marked (p : Process η ν) (i : Nat) (status : WindowStatus) :
    (p.marked i status).calls = p.calls := rfl

end Process

/-- What a restoration answers, by the first failure it met. -/
def answerOf : Option Failure → Except Failure Unit
  | none => .ok ()
  | some failure => .error failure

namespace Window

theorem setStatus_apply (i : Nat) (status : WindowStatus) (p : Process η ν) :
    setStatus i status p = (.returned (), p.marked i status) := rfl

/-- The window over which a restoration runs no longer stands. -/
theorem restore_standing {i : Nat} {win : Window} {p : Process η ν}
    (hw : p.current.windows[i]? = some win) (hs : win.status = .standing) :
    restore H i p = match putBack H ⟨p.here, i⟩ win.priors.reverse none (p.marked i .closing) with
      | (.returned first, q) =>
        (.returned (answerOf first), q.record (.logged (.closed win.priors.length)))
      | (.panicked text, q) => (.panicked text, q) := by
  rw [restore, Action.bind_of_returned (look_apply i p), hw]
  simp only [hs, if_true]
  rw [Action.bind_of_returned (setStatus_apply i .closing p),
    Action.bind_of_returned (Action.inspect_apply ..)]
  change (putBack H ⟨p.here, i⟩ win.priors.reverse none >>= _) (p.marked i .closing) = _
  rw [Action.bind_apply]
  rcases putBack H ⟨p.here, i⟩ win.priors.reverse none (p.marked i .closing) with
    ⟨(_ | failure) | text, q⟩ <;> rfl

theorem close_apply (i : Nat) (p : Process η ν) :
    close H i p = ((restore H i p).1, ((restore H i p).2.marked i .ended).sweep H) := rfl

theorem endWith_apply (i : Nat) (report : Failure → LogEvent) (p : Process η ν) :
    endWith H i report p = match restore H i p with
      | (.returned (.ok ()), q) => (.returned (), (q.marked i .ended).sweep H)
      | (.returned (.error failure), q) =>
        (.returned (), ((q.record (.logged (report failure))).marked i .ended).sweep H)
      | (.panicked text, q) => (.panicked text, (q.marked i .ended).sweep H) := by
  rw [endWith, retire, Action.ensuring]
  simp only [Action.bind_apply, Action.attempt_apply]
  rcases restore H i p with ⟨(failure | ⟨⟩) | text, q⟩ <;> rfl

/-- However a restoration ends, what ends the window besides writes no cell and calls no
accessor. -/
theorem endWith_snd (V : Cells η κ) (i : Nat) (report : Failure → LogEvent) (p : Process η ν) :
    (endWith H i report p).2.contents V = (restore H i p).2.contents V ∧
      (endWith H i report p).2.calls = (restore H i p).2.calls := by
  rw [endWith_apply]
  rcases restore H i p with ⟨(failure | ⟨⟩) | text, q⟩ <;> simp [Event.call?]

theorem restore_of_writtenBack {i : Nat} {win : Window} {p q : Process η ν}
    {done : List (Entry × Except Failure Unit)}
    (hw : p.current.windows[i]? = some win) (hs : win.status = .standing)
    (hd : done.map (·.1) = win.priors.reverse)
    (h : WrittenBack H ⟨p.here, i⟩ (p.marked i .closing) done q) :
    restore H i p =
      (.returned (answerOf (firstFailure done)), q.record (.logged (.closed win.priors.length))) := by
  have hb := putBack_of_writtenBack h [] none
  rw [List.append_nil, hd] at hb
  rw [restore_standing hw hs, hb]
  rfl

theorem restore_of_panics {i : Nat} {win : Window} {p q r : Process η ν} {x : Entry}
    {done : List (Entry × Except Failure Unit)} {rest : List Entry} {text : String}
    (hw : p.current.windows[i]? = some win) (hs : win.status = .standing)
    (hd : win.priors.reverse = done.map (·.1) ++ x :: rest)
    (h : WrittenBack H ⟨p.here, i⟩ (p.marked i .closing) done q)
    (hx : x.accessor.write H x.value (some ⟨p.here, i⟩) q = (.panicked text, r)) :
    restore H i p = (.panicked text, r) := by
  rw [restore_standing hw hs, hd, putBack_of_writtenBack h, putBack_of_panics hx]

/-- A restoration that returns has written everything back. -/
theorem writtenBack_of_restore {i : Nat} {win : Window} {p q : Process η ν}
    {answer : Except Failure Unit} (hw : p.current.windows[i]? = some win)
    (hs : win.status = .standing) (h : restore H i p = (.returned answer, q)) :
    ∃ done r, done.map (·.1) = win.priors.reverse ∧
      WrittenBack H ⟨p.here, i⟩ (p.marked i .closing) done r ∧
      q = r.record (.logged (.closed win.priors.length)) := by
  rcases writtenBack_or_panics (H := H) ⟨p.here, i⟩ win.priors.reverse (p.marked i .closing) with
    ⟨done, r, hd, hback⟩ | ⟨done, x, rest, r, text, r', hd, hback, hx⟩
  · have hrestore := restore_of_writtenBack hw hs hd hback
    exact ⟨done, r, hd, hback, congrArg Prod.snd (h.symm.trans hrestore)⟩
  · have hpanics := restore_of_panics hw hs hd hback hx
    exact absurd (congrArg Prod.fst (h.symm.trans hpanics)) (by simp)

end Window

/-! ### Restoring cells -/

variable {V : Cells η κ}

/-- What a pass comes to where the entries are cells. -/
structure PassCells [DecidableEq κ] (V : Cells η κ) (ref : WindowRef) (p : Process η ν)
    (done : List (Entry × Except Failure Unit)) (q : Process η ν) : Prop where
  frame : p.Frame q
  calls : q.calls = p.calls ++ done.map fun d => d.1.writing (some ref)
  elsewhere : ∀ c, c ∉ done.map (·.1.cell V) → q.contents V c = p.contents V c
  contents : (∀ d ∈ done, d.2 = .ok ()) →
    q.contents V = Entry.writeAll V (done.map (·.1)) (p.contents V)

theorem WrittenBack.cells [DecidableEq κ] {ref : WindowRef} {p q : Process η ν}
    {done : List (Entry × Except Failure Unit)} (h : WrittenBack H ref p done q)
    (hd : ∀ d ∈ done, d.1.accessor.IsCell H V) : PassCells V ref p done q := by
  induction h with
  | nil p => exact ⟨.refl p, by simp, fun _ _ => rfl, fun _ => rfl⟩
  | @ok p p₁ q e done hw _ ih =>
    have hwritten := Accessor.write_isCell H (hd _ List.mem_cons_self) e.value (some ref) p
    rw [hw] at hwritten
    have h := ih fun d hd' => hd d (List.mem_cons_of_mem _ hd')
    refine ⟨hwritten.frame.trans h.frame, ?_, ?_, ?_⟩
    · rw [h.calls, hwritten.calls, List.append_assoc]
      rfl
    · intro c hc
      simp only [List.map_cons, List.mem_cons, not_or] at hc
      rw [h.elsewhere c hc.2, hwritten.elsewhere c hc.1]
    · intro hok
      rw [h.contents fun d hd' => hok d (List.mem_cons_of_mem _ hd'), hwritten.update]
      rfl
  | @error p p₁ q e done failure hw _ ih =>
    have hwritten := Accessor.write_isCell H (hd _ List.mem_cons_self) e.value (some ref) p
    rw [hw] at hwritten
    have h := ih fun d hd' => hd d (List.mem_cons_of_mem _ hd')
    refine ⟨hwritten.frame.trans ((p₁.frame_record _).trans h.frame), ?_, ?_, ?_⟩
    · rw [h.calls, Process.calls_record, hwritten.calls]
      simp [Event.call?, Entry.writing]
    · intro c hc
      simp only [List.map_cons, List.mem_cons, not_or] at hc
      rw [h.elsewhere c hc.2, Process.contents_record, hwritten.elsewhere c hc.1]
    · intro hok
      exact absurd (hok _ List.mem_cons_self) (by simp)

/-- A pass without failures over distinct cells. -/
theorem WrittenBack.passed_cells [DecidableEq κ] {ref : WindowRef} {p q : Process η ν}
    {l : List Entry} (h : WrittenBack H ref p (passed l) q)
    (hl : ∀ e ∈ l, e.accessor.IsCell H V) (hd : (l.map (Entry.cell V)).Nodup) :
    p.Frame q ∧ q.calls = p.calls ++ l.map (Entry.writing (some ref)) ∧
      (∀ e ∈ l, q.contents V (e.cell V) = e.value) ∧
      ∀ c, c ∉ l.map (Entry.cell V) → q.contents V c = p.contents V c := by
  have hcells := h.cells (V := V) fun d hd => hl _ (mem_passed hd).1
  have hwrote := hcells.contents fun d hd => (mem_passed hd).2
  rw [map_fst_passed] at hwrote
  refine ⟨hcells.frame, ?_, fun e he => ?_, fun c hc => ?_⟩
  · rw [hcells.calls, passed, List.map_map]
    rfl
  · rw [hwrote, Entry.writeAll_of_mem V hd he]
  · rw [hwrote, Entry.writeAll_of_not_mem V hc]

/-- Cells that do not fail are all written back. -/
theorem writtenBack_of_unfailing (ref : WindowRef) {l : List Entry} {p : Process η ν}
    (hl : ∀ e ∈ l, e.accessor.IsCell H V)
    (hu : ∀ e ∈ l, e.accessor.Unfailing H p.current.storage.isLive) :
    ∃ q, WrittenBack H ref p (passed l) q := by
  induction l generalizing p with
  | nil => exact ⟨p, .nil p⟩
  | cons e rest ih =>
    have hw := hu e List.mem_cons_self e.value (some ref) p rfl
    have hlive := (Accessor.write_isCell H (hl e List.mem_cons_self) e.value (some ref) p).frame.live
    obtain ⟨q, hq⟩ := ih (p := (e.accessor.write H e.value (some ref) p).2)
      (fun d hd => hl d (List.mem_cons_of_mem _ hd))
      (fun d hd => by rw [hlive]; exact hu d (List.mem_cons_of_mem _ hd))
    exact ⟨q, .ok (Prod.ext hw rfl) hq⟩

namespace Window

/-- A window that stands on cells which do not fail: all that it displaced is put back. -/
theorem restore_of_unfailing [DecidableEq κ] {i : Nat} {win : Window} {p : Process η ν}
    (hw : p.current.windows[i]? = some win) (hs : win.status = .standing)
    (hc : ∀ e ∈ win.priors, e.accessor.IsCell H V)
    (hu : ∀ e ∈ win.priors, e.accessor.Unfailing H p.current.storage.isLive) :
    ∃ q, restore H i p = (.returned (.ok ()), q) ∧ (p.marked i .closing).Frame q ∧
      q.contents V = Entry.writeAll V win.priors.reverse (p.contents V) := by
  obtain ⟨q, hback⟩ := writtenBack_of_unfailing (p := p.marked i .closing) ⟨p.here, i⟩
    (fun e he => hc e (List.mem_reverse.1 he))
    (fun e he => by simpa [Process.marked, Process.modifyCurrent] using hu e (List.mem_reverse.1 he))
  have hcells := hback.cells (V := V) fun d hd => hc _ (List.mem_reverse.1 (mem_passed hd).1)
  have hrestore := restore_of_writtenBack hw hs (map_fst_passed _) hback
  rw [firstFailure_passed] at hrestore
  refine ⟨_, hrestore, hcells.frame.trans (Process.frame_record q _), ?_⟩
  rw [Process.contents_record, hcells.contents fun d hd => (mem_passed hd).2, map_fst_passed,
    Process.contents_marked]

/-- A window on cells that do not fail, ended at any later time: the cells of its snapshot hold
what they held before it was opened, the others what they hold. -/
theorem restore_of_installed [DecidableEq κ] {s : Snapshot} {i : Nat} {p q r : Process η ν}
    (hs : ∀ e ∈ s.entries, e.accessor.IsCell H V)
    (hu : ∀ e ∈ s.entries, e.accessor.Unfailing H p.current.storage.isLive)
    (hi : s.Installed V p i q) (hr : q.Frame r) :
    ∃ r', restore H i r = (.returned (.ok ()), r') ∧ p.Frame r' ∧
      ∀ c, r'.contents V c =
        if c ∈ s.entries.map (Entry.cell V) then p.contents V c else r.contents V c := by
  have hframe := hi.frame.trans hr
  have hlive : r.current.storage.isLive = p.current.storage.isLive := hframe.live
  obtain ⟨r', hrestore, hf, hcontents⟩ := restore_of_unfailing (hr.window hi.window) rfl
    ((Entry.forall_displaced V).2 hs) (by rw [hlive]; exact (Entry.forall_displaced V).2 hu)
  refine ⟨r', hrestore, (hframe.marked hi.fresh _).trans hf, fun c => ?_⟩
  rw [hcontents, Entry.writeAll_reverse_displaced]

theorem close_of_installed [DecidableEq κ] {s : Snapshot} {i : Nat} {p q r : Process η ν}
    (hs : ∀ e ∈ s.entries, e.accessor.IsCell H V)
    (hu : ∀ e ∈ s.entries, e.accessor.Unfailing H p.current.storage.isLive)
    (hi : s.Installed V p i q) (hr : q.Frame r) :
    ∃ r', close H i r = (.returned (.ok ()), r') ∧ p.Frame r' ∧
      ∀ c, r'.contents V c =
        if c ∈ s.entries.map (Entry.cell V) then p.contents V c else r.contents V c := by
  obtain ⟨r', hrestore, hframe, hcontents⟩ := restore_of_installed hs hu hi hr
  refine ⟨(r'.marked i .ended).sweep H, by rw [close_apply, hrestore],
    (hframe.marked hi.fresh .ended).trans (Process.frame_sweep H _), fun c => ?_⟩
  rw [Process.contents_sweep, Process.contents_marked, hcontents]

theorem drop_of_installed [DecidableEq κ] {s : Snapshot} {i : Nat} {p q r : Process η ν}
    (hs : ∀ e ∈ s.entries, e.accessor.IsCell H V)
    (hu : ∀ e ∈ s.entries, e.accessor.Unfailing H p.current.storage.isLive)
    (hi : s.Installed V p i q) (hr : q.Frame r) :
    ∃ r', drop H i r = (.returned (), r') ∧ p.Frame r' ∧
      ∀ c, r'.contents V c =
        if c ∈ s.entries.map (Entry.cell V) then p.contents V c else r.contents V c := by
  obtain ⟨r', hrestore, hframe, hcontents⟩ := restore_of_installed hs hu hi hr
  refine ⟨(r'.marked i .ended).sweep H, by rw [drop, endWith_apply, hrestore],
    (hframe.marked hi.fresh .ended).trans (Process.frame_sweep H _), fun c => ?_⟩
  rw [Process.contents_sweep, Process.contents_marked, hcontents]

end Window

end Ambient
