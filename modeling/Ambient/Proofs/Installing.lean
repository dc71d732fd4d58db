import Mathlib.Tactic.Set
import Ambient.Proofs.Cells

/-! What an installation does. From a state, some first entries of a snapshot are read and
written with success, and either there are no more, or the next one stops the installation:
it cannot be read, or not be written. `Placed` tells the first part as a relation between
states, so that every statement about an installation is one about its last step. Proved
besides: on cells, what was read is what the entries displace, and every cell of theirs
holds what was written last. Undoing an installation is left to other modules. -/

namespace Ambient

variable {η ν κ : Type} (H : Host η ν)

/-! ### Entries that are in place -/

/-- From `p` the entries are read and written, one after another, each write with success.
What was read are the priors, and `q` is where that leads. -/
inductive Placed : Process η ν → List Entry → List Entry → Process η ν → Prop
  | nil (p) : Placed p [] [] p
  | cons {p p₁ p₂ q e rest prior priors} (hr : e.accessor.read H p = (.returned prior, p₁))
      (hw : e.accessor.write H e.value none (p₁.hold prior.toList) = (.returned (.ok ()), p₂))
      (h : Placed p₂ rest priors q) :
      Placed p (e :: rest) (⟨e.accessor, prior⟩ :: priors) q

/-- The entry cannot be put in place: reading it panics, or writing it does not succeed. -/
inductive Stops (e : Entry) (p : Process η ν) : Prop
  | read {text q} (hr : e.accessor.read H p = (.panicked text, q))
  | write {prior q} (hr : e.accessor.read H p = (.returned prior, q))
      (hw : (e.accessor.write H e.value none (q.hold prior.toList)).1 ≠ .returned (.ok ()))

variable {H}

/-- Either all entries are put in place, or there is a first that is not. -/
theorem placed_or_stops (l : List Entry) (p : Process η ν) :
    (∃ priors q, Placed H p l priors q) ∨
      ∃ before x after priors q, l = before ++ x :: after ∧ Placed H p before priors q ∧
        Stops H x q := by
  induction l generalizing p with
  | nil => exact .inl ⟨[], p, .nil p⟩
  | cons e rest ih =>
    rcases hr : e.accessor.read H p with ⟨prior | text, p₁⟩
    · by_cases hw : (e.accessor.write H e.value none (p₁.hold prior.toList)).1 = .returned (.ok ())
      · have hw' : e.accessor.write H e.value none (p₁.hold prior.toList) = (.returned (.ok ()), _) :=
          Prod.ext hw rfl
        rcases ih (e.accessor.write H e.value none (p₁.hold prior.toList)).2 with
          ⟨priors, q, h⟩ | ⟨before, x, after, priors, q, rfl, h, hx⟩
        · exact .inl ⟨_, q, .cons hr hw' h⟩
        · exact .inr ⟨e :: before, x, after, _, q, rfl, .cons hr hw' h, hx⟩
      · exact .inr ⟨[], e, rest, [], p, rfl, .nil p, .write hr hw⟩
    · exact .inr ⟨[], e, rest, [], p, rfl, .nil p, .read hr⟩

theorem Placed.accessors {p q : Process η ν} {l priors : List Entry} (h : Placed H p l priors q) :
    priors.map Entry.accessor = l.map Entry.accessor := by
  induction h with
  | nil p => rfl
  | cons _ _ _ ih => rw [List.map_cons, ih, List.map_cons]

theorem Placed.forall_accessor {p q : Process η ν} {l priors : List Entry} {P : Accessor → Prop}
    (h : Placed H p l priors q) : (∀ e ∈ priors, P e.accessor) ↔ ∀ e ∈ l, P e.accessor := by
  rw [← List.forall_mem_map (f := Entry.accessor) (P := P), h.accessors, List.forall_mem_map]

/-! ### Installations by their last step -/

/-- The process with one more window on the running thread. -/
def Process.opened (p : Process η ν) (s : Snapshot) (priors : List Entry) : Process η ν :=
  p.modifyCurrent fun t => { t with windows := t.windows ++ [{ snapshot := s, priors }] }

theorem Process.frame_opened (p : Process η ν) (s : Snapshot) (priors : List Entry) :
    p.Frame (p.opened s priors) := by
  refine ⟨rfl, ?_, ?_⟩ <;> simp [opened, modifyCurrent]

theorem Process.window_opened (p : Process η ν) (s : Snapshot) (priors : List Entry) :
    (p.opened s priors).current.windows[p.current.windows.length]? =
      some { snapshot := s, priors } := by
  simp [opened, modifyCurrent]

@[simp] theorem Process.contents_opened (V : Cells η κ) (p : Process η ν) (s : Snapshot)
    (priors : List Entry) : (p.opened s priors).contents V = p.contents V :=
  contents_of_eq V rfl rfl (by simp [opened, modifyCurrent])

@[simp] theorem Process.calls_opened (p : Process η ν) (s : Snapshot) (priors : List Entry) :
    (p.opened s priors).calls = p.calls := rfl

theorem Window.add_opened (s : Snapshot) (priors : List Entry) (p : Process η ν) :
    Window.add s priors p = (.returned p.current.windows.length, p.opened s priors) := rfl

@[simp] theorem Process.unhold_unhold (p : Process η ν) (m n : Nat) :
    (p.unhold m).unhold n = p.unhold (m + n) := by
  simp only [unhold, List.drop_drop]

theorem Action.holding_apply {α : Type} (values : List Value) (m : Action η ν α)
    (p : Process η ν) : Action.holding values m p =
      ((m (p.hold values)).1, (m (p.hold values)).2.unhold values.length) := rfl

namespace Snapshot

theorem installFrom_of_ok {s : Snapshot} {e : Entry} {p p₁ p₂ : Process η ν}
    {prior : Option Value} (hr : e.accessor.read H p = (.returned prior, p₁))
    (hw : e.accessor.write H e.value none (p₁.hold prior.toList) = (.returned (.ok ()), p₂))
    (rest priors : List Entry) :
    s.installFrom H (e :: rest) priors p =
      ((s.installFrom H rest (priors ++ [⟨e.accessor, prior⟩]) p₂).1,
        (s.installFrom H rest (priors ++ [⟨e.accessor, prior⟩]) p₂).2.unhold prior.toList.length) := by
  rw [installFrom, Action.bind_of_returned hr, Action.holding_apply, Action.bind_of_returned hw]

/-- Entries that are put in place change what an installation does in nothing but the state
it goes on from and the priors it knows of; what it holds it gives up in the end. -/
theorem installFrom_of_placed {s : Snapshot} {p q : Process η ν} {l priors : List Entry}
    (h : Placed H p l priors q) (rest acc : List Entry) :
    ∃ n, s.installFrom H (l ++ rest) acc p =
      ((s.installFrom H rest (acc ++ priors) q).1,
        (s.installFrom H rest (acc ++ priors) q).2.unhold n) := by
  induction h generalizing acc with
  | nil p => exact ⟨0, by rw [List.nil_append, List.append_nil]; rfl⟩
  | @cons p p₁ p₂ q e l prior priors hr hw _ ih =>
    obtain ⟨n, hn⟩ := ih (acc ++ [⟨e.accessor, prior⟩])
    refine ⟨n + prior.toList.length, ?_⟩
    rw [List.cons_append, installFrom_of_ok hr hw, hn, Process.unhold_unhold, List.append_assoc]
    rfl

theorem installFrom_nil (s : Snapshot) (priors : List Entry) (p : Process η ν) :
    s.installFrom H [] priors p = (.returned (.ok p.current.windows.length),
      (p.record (.logged (.installed priors.length))).opened s priors) := rfl

/-- An entry whose write fails: the window of what is in place is opened and discarded. -/
theorem installFrom_of_error {s : Snapshot} {x : Entry} {p p₁ p₂ : Process η ν}
    {prior : Option Value} {failure : Failure}
    (hr : x.accessor.read H p = (.returned prior, p₁))
    (hw : x.accessor.write H x.value none (p₁.hold prior.toList) =
      (.returned (.error failure), p₂)) (rest priors : List Entry) :
    s.installFrom H (x :: rest) priors p =
      let r := Window.discard H p₂.current.windows.length
        ((p₂.record (.logged (.installFailed x.key failure))).opened s
          (priors ++ [⟨x.accessor, prior⟩]))
      (match r.1 with
        | .returned () => .returned (.error failure)
        | .panicked text => .panicked text,
        r.2.unhold prior.toList.length) := by
  rw [installFrom, Action.bind_of_returned hr, Action.holding_apply, Action.bind_of_returned hw]
  simp only [Action.bind_apply, Action.log, Action.record, Action.change_apply, Window.add_opened,
    Process.current_record]
  rcases Window.discard H p₂.current.windows.length _ with ⟨_ | text, r⟩ <;> rfl

/-- An installation of all entries opens a window that stands. -/
theorem install_of_placed {s : Snapshot} {priors : List Entry} {p q : Process η ν}
    (h : Placed H (p.hold s.values) s.entries priors q) :
    ∃ n, s.install H p = (.returned (.ok q.current.windows.length),
      ((q.record (.logged (.installed priors.length))).opened s priors).unhold n) := by
  obtain ⟨n, hn⟩ := installFrom_of_placed (s := s) h [] []
  rw [List.append_nil, List.nil_append, installFrom_nil] at hn
  refine ⟨n + s.values.length, ?_⟩
  rw [install, Action.holding_apply, hn, Process.unhold_unhold]

/-- An entry that cannot be put in place keeps the installation from succeeding. -/
theorem installFrom_of_stops {x : Entry} {p : Process η ν} (hx : Stops H x p) (s : Snapshot)
    (rest priors : List Entry) (i : Nat) :
    (s.installFrom H (x :: rest) priors p).1 ≠ .returned (.ok i) := by
  cases hx with
  | read hr =>
    rw [installFrom, Action.bind_of_panicked hr]
    simp
  | @write prior q hr hw =>
    rcases hq : x.accessor.write H x.value none (q.hold prior.toList) with ⟨(failure | ⟨⟩) | text, r⟩
    · rw [installFrom_of_error hr hq]
      rcases Window.discard H r.current.windows.length _ with ⟨⟨⟩ | text, r'⟩ <;> simp
    · exact absurd (congrArg Prod.fst hq) hw
    · rw [installFrom, Action.bind_of_returned hr, Action.holding_apply, Action.bind_of_panicked hq]
      simp

/-- An installation that succeeds has put all entries in place. -/
theorem placed_of_install {s : Snapshot} {i : Nat} {p q : Process η ν}
    (h : s.install H p = (.returned (.ok i), q)) :
    ∃ priors r n, Placed H (p.hold s.values) s.entries priors r ∧ i = r.current.windows.length ∧
      q = ((r.record (.logged (.installed priors.length))).opened s priors).unhold n := by
  rcases placed_or_stops (H := H) s.entries (p.hold s.values) with
    ⟨priors, r, hplaced⟩ | ⟨before, x, after, priors, r, hsplit, hplaced, hx⟩
  · obtain ⟨n, hn⟩ := install_of_placed hplaced
    obtain ⟨hi, hq⟩ : r.current.windows.length = i ∧ _ = q := by simpa using hn.symm.trans h
    exact ⟨priors, r, n, hplaced, hi.symm, hq.symm⟩
  · obtain ⟨n, hn⟩ := installFrom_of_placed (s := s) hplaced (x :: after) []
    rw [← hsplit] at hn
    rw [install, Action.holding_apply, hn] at h
    exact absurd (congrArg Prod.fst h) (installFrom_of_stops hx s after _ i)

/-- An installation that succeeds has opened a window, which stands. -/
theorem window_of_install {s : Snapshot} {i : Nat} {p q : Process η ν}
    (h : s.install H p = (.returned (.ok i), q)) :
    ∃ win, q.current.windows[i]? = some win ∧ win.status = .standing := by
  obtain ⟨priors, r, n, -, rfl, rfl⟩ := placed_of_install h
  exact ⟨_, (r.record _).window_opened s priors, rfl⟩

end Snapshot

/-! ### Installing cells -/

/-- On threads that have slots, or on those that have none, no write through the accessor
fails or panics. -/
def Accessor.Unfailing (H : Host η ν) (live : Bool) (a : Accessor) : Prop :=
  ∀ content restoring p, p.current.storage.isLive = live →
    (a.write H content restoring p).1 = .returned (.ok ())

theorem Accessor.unfailing_slot (k : Key) : (slot k).Unfailing H true := by
  intro content restoring p hp
  rw [write_slot]
  cases hs : p.current.storage with
  | live slots =>
    have hr (e : Event ν) : (p.record e).current.storage = .live slots := hs
    rw [Slot.write_live H (hr _)]
  | destroyed => simp [hs, Storage.isLive] at hp

theorem unfailing_rack {place : Nat → Key}
    {answer : Nat → Option Value → Exit (Except Failure Unit)} {ref : Nat}
    (h : ∀ content, answer ref content = .returned (.ok ())) (k : Key) (live : Bool) :
    (Accessor.custom k ref).Unfailing (rack (ν := ν) place answer) live := by
  intro content restoring p _
  cases content with
  | none => exact h none
  | some v => exact h (some v)

variable {V : Cells η κ}

theorem Written.update [DecidableEq κ] {c : Cell κ} {content : Option Value} {made : List Call}
    {p q : Process η ν} (h : Written V c content made p (.returned (.ok ()), q)) :
    q.contents V = Function.update (p.contents V) c content := by
  funext d
  by_cases hd : d = c
  · subst hd
    rw [Function.update_self, h.there rfl]
  · rw [Function.update_of_ne hd, h.elsewhere d hd]

/-- The calls that put an entry in place. -/
def Entry.placing (e : Entry) : List Call := [e.reading, e.writing none]

/-- What putting entries in place comes to where they are cells. -/
structure PlacedCells [DecidableEq κ] (V : Cells η κ) (p : Process η ν) (l priors : List Entry)
    (q : Process η ν) : Prop where
  frame : p.Frame q
  calls : q.calls = p.calls ++ l.flatMap Entry.placing
  priors : priors = Entry.displaced V l (p.contents V)
  contents : q.contents V = Entry.writeAll V l (p.contents V)

/-- Reading a cell and writing it, both with success. -/
theorem placing_isBrittleCell [DecidableEq κ] {e : Entry} (he : e.accessor.IsBrittleCell H V)
    {p p₁ p₂ : Process η ν} {prior : Option Value}
    (hr : e.accessor.read H p = (.returned prior, p₁))
    (hw : e.accessor.write H e.value none (p₁.hold prior.toList) = (.returned (.ok ()), p₂)) :
    p.Frame p₂ ∧ p₂.calls = p.calls ++ e.placing ∧ prior = p.contents V (e.cell V) ∧
      p₂.contents V = Function.update (p.contents V) (e.cell V) e.value := by
  have hlooked := Accessor.read_isBrittleCell H he p
  rw [hr] at hlooked
  obtain ⟨hprior, hv⟩ := hlooked.answer prior rfl
  have hwritten := Accessor.write_isBrittleCell H he e.value none (p₁.hold prior.toList)
  rw [hw] at hwritten
  refine ⟨hlooked.frame.trans ((p₁.frame_hold _).trans hwritten.frame), ?_, hprior, ?_⟩
  · rw [hwritten.calls, Process.calls_hold, hlooked.calls, List.append_assoc]
    rfl
  · rw [hwritten.update, Process.contents_hold, hv]
    rfl

theorem Placed.brittleCells [DecidableEq κ] {p q : Process η ν} {l priors : List Entry}
    (h : Placed H p l priors q) (hl : ∀ e ∈ l, e.accessor.IsBrittleCell H V) :
    PlacedCells V p l priors q := by
  induction h with
  | nil p => exact ⟨.refl p, by simp, rfl, rfl⟩
  | @cons p p₁ p₂ q e l prior priors hr hw _ ih =>
    obtain ⟨hf, hc, rfl, hv⟩ := placing_isBrittleCell (hl e List.mem_cons_self) hr hw
    have h := ih fun e he => hl e (List.mem_cons_of_mem _ he)
    refine ⟨hf.trans h.frame, ?_, ?_, ?_⟩
    · rw [h.calls, hc, List.flatMap_cons, List.append_assoc]
    · rw [h.priors, hv, Entry.displaced]
    · rw [h.contents, hv, Entry.writeAll_cons]

theorem Placed.cells [DecidableEq κ] {p q : Process η ν} {l priors : List Entry}
    (h : Placed H p l priors q) (hl : ∀ e ∈ l, e.accessor.IsCell H V) :
    PlacedCells V p l priors q :=
  h.brittleCells fun e he => (hl e he).brittle

/-- Cells that do not fail are all put in place. -/
theorem placed_of_unfailing [DecidableEq κ] {l : List Entry} {p : Process η ν}
    (hl : ∀ e ∈ l, e.accessor.IsCell H V)
    (hu : ∀ e ∈ l, e.accessor.Unfailing H p.current.storage.isLive) :
    ∃ priors q, Placed H p l priors q := by
  rcases placed_or_stops l p with h | ⟨before, x, after, priors, q, rfl, h, hx⟩
  · exact h
  have hxl : x ∈ before ++ x :: after := by simp
  have hq := (h.cells fun e he => hl e (by simp [he])).frame.live
  obtain ⟨r, hr, hf, -, -⟩ := Accessor.read_isCell H (hl x hxl) q
  cases hx with
  | read hr' => simp [hr] at hr'
  | @write prior q₁ hr' hw =>
    obtain ⟨-, rfl⟩ : _ ∧ q₁ = r := by simpa using hr'.symm.trans hr
    exact absurd (hu x hxl _ _ (q₁.hold prior.toList) (hf.live.trans hq)) hw

namespace Snapshot

/-- The window `i` of `q`, opened since `p`, is that of an installation of `s` on cells. -/
structure Installed [DecidableEq κ] (V : Cells η κ) (s : Snapshot) (p : Process η ν) (i : Nat)
    (q : Process η ν) : Prop where
  frame : p.Frame q
  fresh : p.current.windows.length ≤ i
  window : q.current.windows[i]? =
    some { snapshot := s, priors := Entry.displaced V s.entries (p.contents V) }
  contents : q.contents V = Entry.writeAll V s.entries (p.contents V)

/-- An installation on cells, if it succeeds, is of that kind. -/
theorem installed_of_install [DecidableEq κ] {s : Snapshot} {i : Nat} {p q : Process η ν}
    (hs : ∀ e ∈ s.entries, e.accessor.IsCell H V) (h : s.install H p = (.returned (.ok i), q)) :
    s.Installed V p i q := by
  obtain ⟨priors, r, n, hplaced, rfl, rfl⟩ := placed_of_install h
  have hcells := hplaced.cells hs
  have hframe : p.Frame r := (p.frame_hold _).trans hcells.frame
  set e : Event ν := .logged (.installed priors.length)
  refine ⟨?_, hframe.windows.length_le, ?_, ?_⟩
  · have hopened := (r.frame_record e).trans ((r.record e).frame_opened s priors)
    exact (hframe.trans hopened).trans (Process.frame_unhold _ n)
  · rw [← Process.contents_hold V p s.values, ← hcells.priors]
    exact (r.record e).window_opened s priors
  · rw [Process.contents_unhold, Process.contents_opened, Process.contents_record, hcells.contents,
      Process.contents_hold]

/-- A snapshot of cells that do not fail is installed. -/
theorem install_of_unfailing [DecidableEq κ] {s : Snapshot} {p : Process η ν}
    (hs : ∀ e ∈ s.entries, e.accessor.IsCell H V)
    (hu : ∀ e ∈ s.entries, e.accessor.Unfailing H p.current.storage.isLive) :
    ∃ i q, s.install H p = (.returned (.ok i), q) ∧ s.Installed V p i q := by
  obtain ⟨priors, q, h⟩ := placed_of_unfailing (p := p.hold s.values) hs hu
  obtain ⟨n, hn⟩ := install_of_placed h
  exact ⟨_, _, hn, installed_of_install hs hn⟩

end Snapshot

end Ambient
