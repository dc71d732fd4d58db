import Ambient.Proofs.Capturing
import Ambient.Proofs.Polling

/-! Restorations that meet failures and go on. A write-back that fails keeps no other from being
made; what its own cell holds then is up to the accessor. Proved: that each key of a window is
written back once, last key first, which cells hold their priors then, and that the failure
answered is that of the greatest key among those that failed. Restorations that panic are left to
other modules. -/

namespace Ambient

variable {η ν κ : Type} {H : Host η ν} {V : Cells η κ}

/-! ### The first failure -/

/-- The failure is that of an entry, and no entry of a greater key failed. -/
def IsGreatestFailure (done : List (Entry × Except Failure Unit)) (failure : Failure) : Prop :=
  ∃ e, (e, .error failure) ∈ done ∧ ∀ d ∈ done, d.2 ≠ .ok () → ¬ e.key < d.1.key

theorem firstFailure_eq_none_iff {done : List (Entry × Except Failure Unit)} :
    firstFailure done = none ↔ ∀ d ∈ done, d.2 = .ok () := by
  induction done with
  | nil => simp [firstFailure]
  | cons d rest ih =>
    obtain ⟨e, failure | ⟨⟩⟩ := d
    · simp [firstFailure]
    · simp only [firstFailure, ih, List.forall_mem_cons, true_and]

/-- Where entries come in descending order of their keys, the first failure is that of the
greatest key. -/
theorem firstFailure_eq_some_iff {done : List (Entry × Except Failure Unit)}
    (hd : done.Pairwise fun d d' => d'.1.key < d.1.key) {failure : Failure} :
    firstFailure done = some failure ↔ IsGreatestFailure done failure := by
  induction done with
  | nil => simp [firstFailure, IsGreatestFailure]
  | cons d rest ih =>
    obtain ⟨hlater, hrest⟩ := List.pairwise_cons.1 hd
    obtain ⟨e, failure' | ⟨⟩⟩ := d
    · constructor
      · intro h
        obtain rfl : failure' = failure := Option.some.inj h
        refine ⟨e, List.mem_cons_self, fun d hd' _ => ?_⟩
        rcases List.mem_cons.1 hd' with rfl | hd'
        · exact String.lt_irrefl _
        · exact String.lt_asymm (hlater d hd')
      · rintro ⟨x, hx, hgreatest⟩
        rcases List.mem_cons.1 hx with heq | hx
        · obtain ⟨rfl, rfl⟩ : x = e ∧ failure = failure' := by simpa using heq
          rfl
        · exact absurd (hlater _ hx) (hgreatest _ List.mem_cons_self (by simp))
    · rw [firstFailure, ih hrest]
      constructor
      · rintro ⟨x, hx, hgreatest⟩
        refine ⟨x, List.mem_cons_of_mem _ hx, fun d hd' hfailed => ?_⟩
        rcases List.mem_cons.1 hd' with rfl | hd'
        · exact absurd rfl hfailed
        · exact hgreatest d hd' hfailed
      · rintro ⟨x, hx, hgreatest⟩
        have hx' : (x, .error failure) ∈ rest := by simpa using hx
        exact ⟨x, hx', fun d hd' => hgreatest d (List.mem_cons_of_mem _ hd')⟩

/-! ### Passes with failures -/

/-- After a pass over distinct cells, those that were written with success hold what was
written, whichever others failed. -/
theorem WrittenBack.contents_of_ok [DecidableEq κ] {ref : WindowRef} {p q : Process η ν}
    {done : List (Entry × Except Failure Unit)} (h : WrittenBack H ref p done q)
    (hc : ∀ d ∈ done, d.1.accessor.IsCell H V) (hd : (done.map (·.1.cell V)).Nodup) :
    ∀ d ∈ done, d.2 = .ok () → q.contents V (d.1.cell V) = d.1.value := by
  induction h with
  | nil p => exact fun d hd' => absurd hd' List.not_mem_nil
  | @ok p p₁ q e rest hw hback ih =>
    obtain ⟨hnot, hrest⟩ := List.nodup_cons.1 (List.map_cons ▸ hd)
    have hcrest : ∀ d ∈ rest, d.1.accessor.IsCell H V := fun d hd' => hc d (List.mem_cons_of_mem _ hd')
    have hwritten := Accessor.write_isCell H (hc _ List.mem_cons_self) e.value (some ref) p
    rw [hw] at hwritten
    intro d hd' hok
    rcases List.mem_cons.1 hd' with rfl | hd'
    · -- its cell is that of no entry to come
      rw [(hback.cells hcrest).elsewhere _ hnot]
      exact hwritten.there rfl
    · exact ih hcrest hrest d hd' hok
  | @error p p₁ q e rest failure hw hback ih =>
    obtain ⟨-, hrest⟩ := List.nodup_cons.1 (List.map_cons ▸ hd)
    intro d hd' hok
    rcases List.mem_cons.1 hd' with rfl | hd'
    · exact absurd hok (by simp)
    · exact ih (fun d hd' => hc d (List.mem_cons_of_mem _ hd')) hrest d hd' hok

/-- Writing the entry back is always answered, be it with a failure. -/
def Entry.Answers (H : Host η ν) (e : Entry) : Prop :=
  ∀ restoring p, ∃ answer q, e.accessor.write H e.value restoring p = (.returned answer, q)

theorem Window.writtenBack_of_answers (ref : WindowRef) {l : List Entry}
    (hl : ∀ e ∈ l, e.Answers H) (p : Process η ν) :
    ∃ done q, done.map (·.1) = l ∧ WrittenBack H ref p done q := by
  rcases writtenBack_or_panics (H := H) ref l p with
    h | ⟨done, x, rest, r, text, q, rfl, -, hx⟩
  · exact h
  · obtain ⟨answer, q', hanswer⟩ := hl x (by simp) (some ref) r
    exact absurd (hx.symm.trans hanswer) (by simp)

/-- The priors of a window that an installation of a capture has opened are in the order of their
keys. -/
theorem Snapshot.ascending_of_install {r : RegistryId} {carrier : Option Carrier}
    {settings : Settings} {s : Snapshot} {p p' q q' : Process η ν} {i : Nat}
    (hs : Snapshot.capture H r carrier settings p = (.returned s, p'))
    (hi : s.install H q = (.returned (.ok i), q')) :
    ∃ win, q'.current.windows[i]? = some win ∧ win.status = .standing ∧
      win.priors.map Entry.accessor = s.entries.map Entry.accessor ∧
      (win.priors.map Entry.key).Pairwise (· < ·) := by
  obtain ⟨priors, q₁, n, hplaced, rfl, rfl⟩ := placed_of_install hi
  obtain ⟨hsorted, -⟩ := keyed_of_sublist (accessors_capture hs)
  refine ⟨_, (q₁.record _).window_opened s priors, rfl, hplaced.accessors, ?_⟩
  have hkeys : priors.map Entry.key = s.keys := by
    rw [keys_eq_map, ← hplaced.accessors, List.map_map]
    rfl
  rw [hkeys]
  exact hsorted

/-! ### Closing -/

namespace Window

/-- What closing the window `ref` comes to if it answers `answer`, where writing back was answered
as `done` tells. -/
structure Persevered (V : Cells η κ) (ref : WindowRef) (win : Window) (p : Process η ν)
    (done : List (Entry × Except Failure Unit)) (answer : Except Failure Unit)
    (last : Process η ν) : Prop where
  calls : last.calls = p.calls ++ win.priors.reverse.map (Entry.writing (some ref))
  restored : ∀ d ∈ done, d.2 = .ok () → last.contents V (d.1.cell V) = d.1.value
  elsewhere : ∀ c, c ∉ win.priors.map (Entry.cell V) → last.contents V c = p.contents V c
  ok : answer = .ok () ↔ ∀ d ∈ done, d.2 = .ok ()
  error : ∀ failure, answer = .error failure ↔ IsGreatestFailure done failure

/-- A window over distinct cells, any of which may fail to be written back. Each key is written back
once, last key first; where that succeeds the cell holds its prior, and other cells hold what they
held. There is a failure to be answered exactly if some key failed, and it is that of the greatest
one. -/
theorem close_past_failures [DecidableEq κ] {i : Nat} {win : Window} {p : Process η ν}
    (hw : p.current.windows[i]? = some win) (hs : win.status = .standing)
    (hcells : ∀ e ∈ win.priors, e.accessor.IsCell H V)
    (hanswers : ∀ e ∈ win.priors, e.Answers H)
    (hd : (win.priors.map (Entry.cell V)).Nodup)
    (hsorted : (win.priors.map Entry.key).Pairwise (· < ·)) :
    ∃ done r answer last, done.map (·.1) = win.priors.reverse ∧
      WrittenBack H ⟨p.here, i⟩ (p.marked i .closing) done r ∧
      close H i p = (.returned answer, last) ∧ Persevered V ⟨p.here, i⟩ win p done answer last := by
  obtain ⟨done, r, hdone, hback⟩ := writtenBack_of_answers (H := H) ⟨p.here, i⟩
    (fun e he => hanswers e (List.mem_reverse.1 he)) (p.marked i .closing)
  have hprior : ∀ d ∈ done, d.1 ∈ win.priors := fun d hd' =>
    List.mem_reverse.1 (hdone ▸ List.mem_map_of_mem hd')
  have hcellsOf : done.map (·.1.cell V) = (win.priors.map (Entry.cell V)).reverse := by
    rw [← List.map_reverse, ← hdone, List.map_map]
    rfl
  have hpass := hback.cells (V := V) fun d hd' => hcells _ (hprior d hd')
  have hheld := hback.contents_of_ok (V := V) (fun d hd' => hcells _ (hprior d hd'))
    (by rw [hcellsOf]; exact (List.reverse_perm _).nodup_iff.2 hd)
  have hdescending : done.Pairwise fun d d' => d'.1.key < d.1.key := by
    rw [← List.pairwise_map (f := fun d : Entry × Except Failure Unit => d.1)
      (R := fun e e' => e'.key < e.key), hdone, List.pairwise_reverse]
    exact List.pairwise_map.1 hsorted
  have hclose := close_apply (H := H) i p
  rw [restore_of_writtenBack hw hs hdone hback] at hclose
  refine ⟨done, r, _, _, hdone, hback, hclose, ?_, ?_, ?_, ?_, fun failure => ?_⟩
  · simp only [Process.calls_sweep, Process.calls_marked, Process.calls_record, hpass.calls, ← hdone,
      List.map_map, Event.call?, Option.toList_none, List.append_nil]
    rfl
  · intro d hd' hok
    simpa using hheld d hd' hok
  · intro c hc
    have hnot : c ∉ done.map (·.1.cell V) := by rwa [hcellsOf, List.mem_reverse]
    simpa using hpass.elsewhere c hnot
  · rw [← firstFailure_eq_none_iff]
    cases firstFailure done <;> simp [answerOf]
  · rw [← firstFailure_eq_some_iff hdescending]
    cases firstFailure done <;> simp [answerOf]

/-- The cells of three numbers. -/
def tornPlace (ref : Nat) : Key := if ref = 0 then "a" else if ref = 1 then "b" else "c"

/-- An embedding program with these cells, the first two of which cannot be cleared. -/
def torn : Host (Table Value) Unit :=
  rack tornPlace fun ref content =>
    if content = none ∧ ref < 2 then .returned (.error (.accessor (tornPlace ref) "no"))
    else .returned (.ok ())

/-- A process where they are registered. -/
def tearing : Process (Table Value) Unit where
  here := "main"
  registries := [((Registry.empty.register (.custom "c" 2)).register (.custom "a" 0)).register
    (.custom "b" 1)]
  host := .empty

/-- A value for each. -/
def supply : Carrier :=
  Table.ofList [("b", ⟨.numbered 1, .unit⟩), ("c", ⟨.numbered 2, .unit⟩), ("a", ⟨.numbered 0, .unit⟩)]

/-- What is captured of them. -/
def supplied : Snapshot where
  entries := [⟨.custom "a" 0, some ⟨.numbered 0, .unit⟩⟩, ⟨.custom "b" 1, some ⟨.numbered 1, .unit⟩⟩,
    ⟨.custom "c" 2, some ⟨.numbered 2, .unit⟩⟩]

theorem answers_torn (e : Entry) : e.Answers torn := by
  intro restoring p
  have hcalm : e.accessor.Calm torn := calm_rack (fun ref content => by split <;> exact ⟨_, rfl⟩) _
  obtain ⟨answer, q, hw, -⟩ := hcalm.write e.value restoring p
  exact ⟨answer, q, hw⟩

/-- All keys were empty before. The failure of `b` is answered and not that of `a`, which is written
back after it; and `c` is empty again. -/
theorem close_past_failures_torn :
    ∃ p q i done last, Snapshot.capture torn processWide (some supply) {} tearing =
        (.returned supplied, p) ∧ supplied.install torn p = (.returned (.ok i), q) ∧
      close torn i q = (.returned (.error (.accessor "b" "no")), last) ∧
      IsGreatestFailure done (.accessor "b" "no") ∧ done.map (·.1.key) = ["c", "b", "a"] ∧
      last.host.get? "c" = none := by
  have hcapture : Snapshot.capture torn processWide (some supply) {} tearing =
    (.returned supplied, _) := rfl
  have hi : supplied.install torn (Snapshot.capture torn processWide (some supply) {} tearing).2 =
    (.returned (.ok 0), _) := rfl
  obtain ⟨win, hw, hs, haccessors, hsorted⟩ := Snapshot.ascending_of_install hcapture hi
  have hmap : ∀ {β : Type} (f : Accessor → β), win.priors.map (f ·.accessor) =
      (supplied.entries.map Entry.accessor).map f := by
    intro β f
    rw [← haccessors, List.map_map]
    rfl
  have hd : (win.priors.map (Entry.cell (rackCells tornPlace))).Nodup := by
    have hcells := hmap (Accessor.cell (rackCells tornPlace))
    change win.priors.map (Entry.cell (rackCells tornPlace)) = _ at hcells
    rw [hcells]
    decide +kernel
  obtain ⟨done, r, answer, last, hdone, -, hclose, hpast⟩ := close_past_failures hw hs
    (fun e _ => isCell_rack tornPlace _ e.accessor) (fun e _ => answers_torn e) hd hsorted
  obtain rfl : answer = .error (.accessor "b" "no") :=
    Exit.returned.inj (congrArg Prod.fst hclose).symm
  have hkeys : done.map (·.1.key) = ["c", "b", "a"] := by
    have h : done.map (·.1.key) = (win.priors.map Entry.key).reverse := by
      rw [← List.map_reverse, ← hdone, List.map_map]
      rfl
    rw [h, show win.priors.map Entry.key = _ from hmap Accessor.key]
    rfl
  have hempty : last.host.get? "c" = none :=
    (congrArg (fun outcome => outcome.2.host.get? "c") hclose.symm).trans rfl
  exact ⟨_, _, 0, done, last, hcapture, hi, hclose, (hpast.error _).1 rfl, hkeys, hempty⟩

end Window

end Ambient
