import Ambient.Proofs.Restoring
import Ambient.Task

/-! Restorations that panic. A restoration does not go on past a write-back that panics, and as
the window is over by then, nothing takes it up again, in whatever way the window was ended.
Proved: which keys have been written back then and which have not, and that all others have
been exactly if the one that panicked was the first of the window. Restorations under a panic
that is on its way already are left to other modules. -/

namespace Ambient

variable {η ν κ : Type} (H : Host η ν)

/-! ### Ways in which a window ends -/

/-- The panic that an action ends in, if it does. -/
def Exit.panic? {α : Type} : Exit α → Option String
  | .returned _ => none
  | .panicked text => some text

/-- Something ends the window `i`, no panic being on its way: its restoration begins in `p`, and
in the end the state is `q` and the panic told, if one, has left. -/
inductive Ends (i : Nat) : Process η ν → Option String → Process η ν → Prop
  | close (p) : Ends i p (Window.close H i p).1.panic? (Window.close H i p).2
  | drop (p) : Ends i p (Window.drop H i p).1.panic? (Window.drop H i p).2
  | suspend (site p) : Ends i (p.record (.logged (.suspending site)))
      (Bridge.suspend H site i p).1.panic? (Bridge.suspend H site i p).2
  | within {α : Type} {s : Snapshot} {body : Action η ν α} {exit : Exit α} {p q r}
      (hi : s.install H p = (.returned (.ok i), q)) (hb : body q = (exit, r)) :
      Ends i r (s.within H body p).1.panic? (s.within H body p).2
  | poll {ω : Type} {t : Task} {inner : Action η ν (Progress ω)} {progress : Progress ω} {p q r}
      (hi : t.advance.bridge.resume H t.advance.site p = (.returned (.ok i), q))
      (hb : inner q = (.returned progress, r)) :
      Ends i (r.record (.logged (.suspending t.advance.site)))
        ((t.poll H inner).2 p).1.panic? ((t.poll H inner).2 p).2

variable {H} {i : Nat} {p q r last : Process η ν} {text : String} {told : Option String}

theorem Window.close_of_panics (h : restore H i p = (.panicked text, q)) :
    close H i p = (.panicked text, (q.marked i .ended).sweep H) := by
  rw [close_apply, h]

/-- In whatever way the window ends, its restoration is not taken up again after a panic. -/
theorem Ends.of_panics (h : Window.restore H i p = (.panicked text, q))
    (hend : Ends H i p told last) : told = some text ∧ last = (q.marked i .ended).sweep H := by
  have hclose := Window.close_of_panics h
  cases hend with
  | close p =>
    rw [hclose]
    exact ⟨rfl, rfl⟩
  | drop p =>
    rw [Window.drop, Window.endWith_apply, h]
    exact ⟨rfl, rfl⟩
  | suspend site p =>
    rw [Bridge.suspend_apply, hclose]
    exact ⟨rfl, rfl⟩
  | @within _ _ _ exit _ _ _ hi hb =>
    cases exit with
    | returned a =>
      rw [Snapshot.within_of_returned hi hb, hclose]
      exact ⟨rfl, rfl⟩
    | panicked text =>
      rw [Snapshot.within_of_panicked hi hb, hclose]
      exact ⟨rfl, rfl⟩
  | poll hi hb =>
    have hwindow := Task.window_of_returned hi hb
    rw [Bridge.suspend_apply, hclose] at hwindow
    simp [Task.poll, hwindow, Exit.panic?]

/-! ### What is left undone -/

variable {V : Cells η κ} [DecidableEq κ]

/-- What a panic in writing the entry `x` back leaves, the calls of the restoration being `made`:
the entries `after` it have been written back, those `before` it not, and the window is over. -/
structure Interrupted (V : Cells η κ) (ref : WindowRef) (before : List Entry) (x : Entry)
    (after : List Entry) (p : Process η ν) (made : List Call) (last : Process η ν) : Prop where
  calls : last.calls = p.calls ++ made
  made : made = (x :: after).reverse.map (Entry.writing (some ref))
  after : ∀ e ∈ after, last.contents V (e.cell V) = e.value
  before : ∀ e ∈ before, last.contents V (e.cell V) = p.contents V (e.cell V)
  ended : ∃ win, last.current.windows[ref.index]? = some win ∧ win.status = .ended

/-- A window over distinct cells, in whatever way it ends. If writing back one key panics, the
panic leaves, and the keys that were put in place before that one keep what they hold. So the
restoration is total exactly if there are no such keys. -/
theorem Window.interrupted_of_panic {win : Window} {before after : List Entry} {x : Entry}
    (hw : p.current.windows[i]? = some win) (hs : win.status = .standing)
    (hp : win.priors = before ++ x :: after)
    (hcells : ∀ e ∈ win.priors, e.accessor.IsCell H V)
    (hd : (win.priors.map (Entry.cell V)).Nodup)
    (hback : WrittenBack H ⟨p.here, i⟩ (p.marked i .closing) (passed after.reverse) q)
    (hx : x.accessor.write H x.value (some ⟨p.here, i⟩) q = (.panicked text, r))
    (hend : Ends H i p told last) :
    told = some text ∧ ∃ made, Interrupted V ⟨p.here, i⟩ before x after p made last ∧
      ((∀ e ∈ before ++ after, e.writing (some ⟨p.here, i⟩) ∈ made ∧
        last.contents V (e.cell V) = e.value) ↔ before = []) := by
  set ref : WindowRef := ⟨p.here, i⟩
  rw [hp] at hcells hd
  obtain ⟨-, hrest, hapart⟩ := List.nodup_append.1 (List.map_append ▸ hd)
  obtain ⟨hxnot, hafter⟩ := List.nodup_cons.1 (List.map_cons ▸ hrest)
  obtain ⟨hframe, hcalls, hvalue, helse⟩ := hback.passed_cells (V := V)
    (fun e he => hcells e (by simp [List.mem_reverse.1 he]))
    (((List.reverse_perm after).map _).nodup_iff.2 hafter)
  have hwritten := Accessor.write_isCell H (hcells x (by simp)) x.value (some ref) q
  rw [hx] at hwritten
  have horder : win.priors.reverse = (passed after.reverse).map (·.1) ++ x :: before.reverse := by
    rw [hp, map_fst_passed]
    simp
  have hrestore := restore_of_panics hw hs horder hback hx
  obtain ⟨rfl, rfl⟩ := hend.of_panics hrestore
  have hlast : ∀ c, c ≠ x.cell V →
      ((r.marked i .ended).sweep H).contents V c = q.contents V c := by
    intro c hc
    rw [Process.contents_sweep, Process.contents_marked, hwritten.elsewhere c hc]
  have hheld : ∀ e ∈ after, ((r.marked i .ended).sweep H).contents V (e.cell V) = e.value := by
    intro e he
    rw [hlast _ fun heq => hxnot (heq ▸ List.mem_map_of_mem he), hvalue e (List.mem_reverse.2 he)]
  refine ⟨rfl, _, ⟨?_, rfl, hheld, ?_, ?_⟩, ?_⟩
  · simp [hwritten.calls, hcalls, Entry.writing]
  · intro e he
    have hex := hapart _ (List.mem_map_of_mem he)
    have hnot : e.cell V ∉ after.reverse.map (Entry.cell V) := by
      rw [List.map_reverse, List.mem_reverse]
      exact fun hmem => hex _ (List.mem_cons_of_mem _ hmem) rfl
    rw [hlast _ (hex _ List.mem_cons_self), helse _ hnot, Process.contents_marked]
  · have hclosing := hwritten.frame.window (hframe.window (Process.window_marked hw .closing))
    exact ⟨_, Process.window_marked hclosing .ended, rfl⟩
  · constructor
    · -- a call that wrote back an entry before `x` would be a call for its cell
      intro hall
      by_contra hne
      obtain ⟨e, rest, rfl⟩ := List.exists_cons_of_ne_nil hne
      obtain ⟨d, hd, heq⟩ := List.mem_map.1 (hall e (by simp)).1
      have hcell : d.cell V = e.cell V :=
        congrArg (Accessor.cell V) (congrArg Call.accessor heq)
      exact hapart _ (List.mem_map_of_mem List.mem_cons_self) _
        (List.mem_map_of_mem (List.mem_reverse.1 hd)) hcell.symm
    · rintro rfl e he
      exact ⟨List.mem_map_of_mem (by simpa using .inl he), hheld e he⟩

namespace Window

/-- An embedding program with a cell for each number, where clearing the second panics. -/
def brittle : Host (Table Value) Unit :=
  rack (fun ref => if ref = 0 then "a" else if ref = 1 then "b" else "c") fun ref content =>
    if ref = 1 ∧ content = none then .panicked "stuck" else .returned (.ok ())

/-- Its keys. -/
def three : Snapshot where
  entries :=
    [⟨.custom "a" 0, some ⟨.numbered 0, .unit⟩⟩, ⟨.custom "b" 1, some ⟨.numbered 1, .unit⟩⟩,
      ⟨.custom "c" 2, some ⟨.numbered 2, .unit⟩⟩]

/-- The second of three keys cannot be cleared again: the third has been by then, and the first
keeps what was installed, although clearing it would succeed. -/
theorem interrupted_of_panic_brittle :
    ∃ last, three.within brittle (pure ()) { here := "main", host := .empty } =
        (.panicked "stuck", last) ∧
      last.host.get? "c" = none ∧ last.host.get? "a" = some ⟨.numbered 0, .unit⟩ := by
  have hi : three.install brittle { here := "main", host := .empty } = (.returned (.ok 0), _) := rfl
  have hend := Ends.within hi (Action.pure_apply () _)
  have hpriors : (⟨three, [⟨.custom "a" 0, none⟩, ⟨.custom "b" 1, none⟩, ⟨.custom "c" 2, none⟩],
      .standing⟩ : Window).priors =
        [⟨.custom "a" 0, none⟩] ++ ⟨.custom "b" 1, none⟩ :: [⟨.custom "c" 2, none⟩] := rfl
  obtain ⟨-, made, hinterrupted, -⟩ := interrupted_of_panic
    (V := rackCells fun ref => if ref = 0 then "a" else if ref = 1 then "b" else "c")
    rfl rfl hpriors (fun e _ => isCell_rack _ _ e.accessor) (by decide) (.ok rfl (.nil _)) rfl hend
  exact ⟨_, rfl, hinterrupted.after _ List.mem_cons_self,
    (hinterrupted.before _ List.mem_cons_self).trans rfl⟩

end Window

end Ambient
