import Ambient.Proofs.Restoring

/-! Installations that fail. The entries before the one whose write failed are in place then,
and that entry may have changed its cell or not; all of them are written back in reverse, past
write-backs that fail in turn. Proved: which failure is reported, which accessors are called
and in which order, and when all cells hold again what they held. Installations that panic
are left to other modules. -/

namespace Ambient

variable {η ν κ : Type} {H : Host η ν} {V : Cells η κ} {s : Snapshot} {p p' : Process η ν}
  {failure : Failure}

/-! ### Where an installation fails -/

/-- How an installation of `s` from `p` fails: the entries before one are put in place, that
one is read, and writing it fails. -/
structure Snapshot.Failing (H : Host η ν) (s : Snapshot) (p : Process η ν) (failure : Failure) where
  before : List Entry
  entry : Entry
  after : List Entry
  split : s.entries = before ++ entry :: after
  /-- What was there for the entries before. -/
  priors : List Entry
  /-- The state in which the turn of the entry comes. -/
  reached : Process η ν
  placed : Placed H (p.hold s.values) before priors reached
  /-- What was there for the entry. -/
  prior : Option Value
  /-- The state after reading it. -/
  seen : Process η ν
  read : entry.accessor.read H reached = (.returned prior, seen)
  /-- The state after writing it. -/
  left : Process η ν
  write : entry.accessor.write H entry.value none (seen.hold prior.toList) =
    (.returned (.error failure), left)

namespace Snapshot.Failing

/-- The entry with what was there for it. -/
def displaced (f : s.Failing H p failure) : Entry := ⟨f.entry.accessor, f.prior⟩

/-- The window of the rollback is open. -/
def opened (f : s.Failing H p failure) : Process η ν :=
  (f.left.record (.logged (.installFailed f.entry.key failure))).opened s (f.priors ++ [f.displaced])

/-- The number of that window. -/
def index (f : s.Failing H p failure) : Nat := f.left.current.windows.length

def ref (f : s.Failing H p failure) : WindowRef := ⟨f.opened.here, f.index⟩

/-- The state in which writing back begins. -/
def start (f : s.Failing H p failure) : Process η ν := f.opened.marked f.index .closing

theorem window_opened (f : s.Failing H p failure) :
    f.opened.current.windows[f.index]? =
      some { snapshot := s, priors := f.priors ++ [f.displaced] } :=
  (f.left.record _).window_opened s _

end Snapshot.Failing

/-- An installation that answers a failure failed at an entry, and discarded the window of what
it had put in place. -/
theorem Snapshot.failing_of_install (h : s.install H p = (.returned (.error failure), p')) :
    ∃ f : s.Failing H p failure, ∃ r n,
      Window.discard H f.index f.opened = (.returned (), r) ∧
        p' = r.unhold n := by
  rw [install, Action.holding_apply] at h
  obtain ⟨hexit, rfl⟩ := Prod.mk.inj h
  rcases placed_or_stops s.entries (p.hold s.values) with
    ⟨priors, q, hplaced⟩ | ⟨before, x, after, priors, q, hsplit, hplaced, hx⟩
  · -- with all entries in place there is no failure to report
    obtain ⟨n, hn⟩ := installFrom_of_placed (s := s) hplaced [] []
    rw [List.append_nil] at hn
    rw [hn, installFrom_nil] at hexit
    exact absurd hexit (by simp)
  obtain ⟨n, hn⟩ := installFrom_of_placed (s := s) hplaced (x :: after) []
  rw [← hsplit, List.nil_append] at hn
  rw [hn] at hexit ⊢
  cases hx with
  | read hr =>
    rw [installFrom, Action.bind_of_panicked hr] at hexit
    exact absurd hexit (by simp)
  | @write prior q₁ hr hw =>
    rcases hq : x.accessor.write H x.value none (q₁.hold prior.toList) with
      ⟨(failed | ⟨⟩) | text, q₂⟩
    · have hinstall := installFrom_of_error (s := s) hr hq after priors
      rw [hinstall] at hexit ⊢
      rcases hd : Window.discard H q₂.current.windows.length
          ((q₂.record (.logged (.installFailed x.key failed))).opened s
            (priors ++ [⟨x.accessor, prior⟩])) with ⟨⟨⟩ | text, r⟩ <;> rw [hd] at hexit ⊢
      · obtain rfl : failed = failure := by simpa using hexit
        refine ⟨⟨before, x, after, hsplit, priors, q, hplaced, prior, q₁, hr, q₂, hq⟩, r,
          prior.toList.length + n + s.values.length, hd, ?_⟩
        simp only [Process.unhold_unhold]
      · exact absurd hexit (by simp)
    · exact absurd (congrArg Prod.fst hq) hw
    · rw [installFrom, Action.bind_of_returned hr, Action.holding_apply,
        Action.bind_of_panicked hq] at hexit
      exact absurd hexit (by simp)

/-- Discarding a window that stands writes everything back, unless a write-back panics. -/
theorem Window.writtenBack_of_discard {i : Nat} {win : Window} {r : Process η ν}
    (hw : p.current.windows[i]? = some win) (hs : win.status = .standing)
    (h : discard H i p = (.returned (), r)) (V : Cells η κ) :
    ∃ done q, done.map (·.1) = win.priors.reverse ∧
      WrittenBack H ⟨p.here, i⟩ (p.marked i .closing) done q ∧
      r.contents V = q.contents V ∧ r.calls = q.calls := by
  rcases writtenBack_or_panics (H := H) ⟨p.here, i⟩ win.priors.reverse (p.marked i .closing) with
    ⟨done, q, hd, hback⟩ | ⟨done, x, rest, q, text, q', hd, hback, hx⟩
  · obtain ⟨hcontents, hcalls⟩ := endWith_snd (H := H) V i .rollbackFailed p
    rw [show endWith H i .rollbackFailed p = _ from h, restore_of_writtenBack hw hs hd hback]
      at hcontents hcalls
    exact ⟨done, q, hd, hback, by simpa using hcontents, by simpa [Event.call?] using hcalls⟩
  · have hrestore := restore_of_panics hw hs hd hback hx
    have hend := endWith_apply (H := H) i .rollbackFailed p
    rw [show endWith H i .rollbackFailed p = _ from h, hrestore] at hend
    exact absurd (congrArg Prod.fst hend) (by simp)

/-! ### Failing on cells -/

variable [DecidableEq κ]

namespace Snapshot.Failing

omit [DecidableEq κ] in
/-- Writing the entry back, answered as told, succeeded, or neither that nor the write that
failed had an effect on the cell. -/
def Mended (V : Cells η κ) (f : s.Failing H p failure) (answer : Except Failure Unit) : Prop :=
  answer = .ok () ∨
    f.left.contents V (f.entry.cell V) = f.seen.contents V (f.entry.cell V) ∧
    (f.entry.accessor.write H f.prior (some f.ref) f.start).2.contents V (f.entry.cell V) =
      f.start.contents V (f.entry.cell V)

/-- What has happened when an entry fails, if the entries are cells. -/
structure OnCells (V : Cells η κ) (f : s.Failing H p failure) : Prop where
  calls : f.start.calls = p.calls ++ f.before.flatMap Entry.placing ++ f.entry.placing
  priors : f.priors = Entry.displaced V f.before (p.contents V)
  prior : f.prior = f.seen.contents V (f.entry.cell V)
  seen : f.seen.contents V = Entry.writeAll V f.before (p.contents V)
  start : f.start.contents V = f.left.contents V
  elsewhere : ∀ c, c ≠ f.entry.cell V → f.left.contents V c = f.seen.contents V c

theorem onCells (f : s.Failing H p failure) (hs : ∀ e ∈ s.entries, e.accessor.IsCell H V) :
    f.OnCells V := by
  have hbefore : ∀ e ∈ f.before, e.accessor.IsCell H V := by
    intro e he
    exact hs e (by rw [f.split]; simp [he])
  have hentry : f.entry.accessor.IsCell H V := hs _ (by rw [f.split]; simp)
  have hplaced := f.placed.cells hbefore
  obtain ⟨q, hq, -, hcalls, hcontents⟩ := Accessor.read_isCell H hentry f.reached
  obtain ⟨hprior, rfl⟩ : f.prior = f.reached.contents V (f.entry.cell V) ∧ f.seen = q := by
    simpa [Entry.cell] using f.read.symm.trans hq
  have hwritten := Accessor.write_isCell H hentry f.entry.value none (f.seen.hold f.prior.toList)
  rw [f.write] at hwritten
  refine ⟨?_, ?_, ?_, ?_, ?_, ?_⟩
  · have hleft : f.start.calls = f.left.calls := by simp [start, opened, Event.call?]
    rw [hleft, hwritten.calls, Process.calls_hold, hcalls, hplaced.calls, Process.calls_hold]
    simp [Entry.placing, Entry.reading, Entry.writing]
  · rw [hplaced.priors, Process.contents_hold]
  · rw [hprior, hcontents]
  · rw [hcontents, hplaced.contents, Process.contents_hold]
  · simp [start, opened]
  · intro c hc
    rw [hwritten.elsewhere c hc, Process.contents_hold]

end Snapshot.Failing

omit [DecidableEq κ] in
/-- The first of a pass, and the rest of it. -/
theorem WrittenBack.head {ref : WindowRef} {q : Process η ν} {e : Entry}
    {answer : Except Failure Unit} {done : List (Entry × Except Failure Unit)}
    (h : WrittenBack H ref p ((e, answer) :: done) q) (V : Cells η κ) :
    ∃ p₁, (e.accessor.write H e.value (some ref) p).1 = .returned answer ∧
      p₁.contents V = (e.accessor.write H e.value (some ref) p).2.contents V ∧
      WrittenBack H ref p₁ done q := by
  cases h with
  | ok hw h => exact ⟨_, by rw [hw], by rw [hw], h⟩
  | error hw h => exact ⟨_, by rw [hw], by rw [hw, Process.contents_record], h⟩

/-- The entry's cell holds again what was there, if writing it back succeeded, or if neither
that nor the write that failed had an effect. -/
theorem Snapshot.Failing.contents_head (f : s.Failing H p failure)
    (hs : ∀ e ∈ s.entries, e.accessor.IsCell H V) {answer : Except Failure Unit}
    (ha : (f.entry.accessor.write H f.prior (some f.ref) f.start).1 = .returned answer)
    (h : f.Mended V answer) :
    (f.entry.accessor.write H f.prior (some f.ref) f.start).2.contents V = f.seen.contents V := by
  have hcells := f.onCells hs
  have hentry : f.entry.accessor.IsCell H V := hs _ (by rw [f.split]; simp)
  have hwritten := Accessor.write_isCell H hentry f.prior (some f.ref) f.start
  funext c
  by_cases hc : c = f.entry.cell V
  · subst hc
    rcases h with rfl | ⟨hfirst, hsecond⟩
    · exact (hwritten.there ha).trans hcells.prior
    · rw [hsecond, hcells.start, hfirst]
  · rw [hwritten.elsewhere c hc, hcells.start, hcells.elsewhere c hc]

/-- An installation on cells that answers a failure. The failure is that of the write which
failed first; accessors of later entries are not called; the others are written back in reverse,
each once. If what has failed in writing the entry back had no effect, and nothing else failed,
then neither had the installation. -/
theorem Snapshot.install_of_error (hs : ∀ e ∈ s.entries, e.accessor.IsCell H V)
    (h : s.install H p = (.returned (.error failure), p')) :
    ∃ f : s.Failing H p failure,
      p'.calls = p.calls ++ f.before.flatMap Entry.placing ++ f.entry.placing ++
        (f.displaced :: f.priors.reverse).map (Entry.writing (some f.ref)) ∧
      ∃ answer done r, WrittenBack H f.ref f.start ((f.displaced, answer) :: done) r ∧
        done.map (·.1) = f.priors.reverse ∧
        ((∀ d ∈ done, d.2 = .ok ()) → f.Mended V answer → p'.contents V = p.contents V) := by
  obtain ⟨f, r, n, hdiscard, rfl⟩ := failing_of_install h
  obtain ⟨answers, q, hanswers, hback, hcontents, hcalls⟩ :=
    Window.writtenBack_of_discard f.window_opened rfl hdiscard V
  change WrittenBack H f.ref f.start answers q at hback
  rw [List.reverse_append, List.reverse_singleton, List.singleton_append] at hanswers
  obtain ⟨⟨e, answer⟩, done, rfl, rfl, hdone⟩ := List.map_eq_cons_iff.1 hanswers
  have hcells := f.onCells hs
  have hpriors : ∀ e ∈ f.priors, e.accessor.IsCell H V := by
    rw [hcells.priors]
    exact (Entry.forall_displaced V).2 fun e he => hs e (by rw [f.split]; simp [he])
  have hbackCells : ∀ d ∈ (f.displaced, answer) :: done, d.1.accessor.IsCell H V := by
    intro d hd
    rcases List.mem_cons.1 hd with rfl | hd
    · exact hs f.entry (by rw [f.split]; simp)
    · exact hpriors _ (List.mem_reverse.1 (hdone ▸ List.mem_map_of_mem hd))
  have hpass := hback.cells hbackCells
  refine ⟨f, ?_, answer, done, q, hback, hdone, fun hok hhead => ?_⟩
  · rw [Process.calls_unhold, hcalls, hpass.calls, hcells.calls, ← hdone, List.map_cons,
      List.map_cons, List.map_map]
    rfl
  · obtain ⟨p₁, ha, hp₁, hrest⟩ := hback.head V
    have hseen := f.contents_head hs ha hhead
    have hrestCells := hrest.cells fun d hd => hbackCells d (List.mem_cons_of_mem _ hd)
    calc (r.unhold n).contents V = q.contents V := by rw [Process.contents_unhold, hcontents]
      _ = Entry.writeAll V f.priors.reverse (p₁.contents V) := by
        rw [hrestCells.contents hok, hdone]
      _ = Entry.writeAll V f.priors.reverse (Entry.writeAll V f.before (p.contents V)) := by
        rw [hp₁, ← hcells.seen, ← hseen]
        rfl
      _ = p.contents V := by rw [hcells.priors, Entry.writeAll_reverse_displaced_writeAll]

namespace Snapshot

/-- An embedding program with a cell for each number, which answers a failure whenever the
cell of `b` was given a value. -/
def reluctant : Host (Table Value) Unit :=
  rack (fun ref => if ref = 0 then "a" else "b") fun ref content =>
    if ref = 0 ∨ content = none then .returned (.ok ()) else .returned (.error (.accessor "b" "no"))

/-- Its keys. -/
def both : Snapshot where
  entries :=
    [⟨.custom "a" 0, some ⟨.numbered 1, .unit⟩⟩, ⟨.custom "b" 1, some ⟨.numbered 2, .unit⟩⟩]

/-- The cell of `b` has its value when the failure is answered, and yet is empty in the end. -/
theorem install_of_error_reluctant :
    ∃ p', both.install reluctant { here := "main", host := .empty } =
        (.returned (.error (.accessor "b" "no")), p') ∧
      p'.host.get? "b" = none ∧
      ∃ f : both.Failing reluctant { here := "main", host := .empty } (.accessor "b" "no"),
        p'.calls = f.before.flatMap Entry.placing ++ f.entry.placing ++
          (f.displaced :: f.priors.reverse).map (Entry.writing (some f.ref)) := by
  have h : both.install reluctant { here := "main", host := .empty } =
      (.returned (.error (.accessor "b" "no")), _) := rfl
  obtain ⟨f, hcalls, -⟩ := install_of_error
    (V := rackCells fun ref => if ref = 0 then "a" else "b") (fun e _ => isCell_rack _ _ e.accessor) h
  exact ⟨_, h, rfl, f, hcalls⟩

end Snapshot

end Ambient
