import Ambient.Proofs.Interruption

/-! Installations that panic. Reading an entry or writing it may panic, and then the installation
is left at once: what the entries before it displaced is known to nobody any more. There is no
window yet that could be ended, so nothing is put back. Proved: what is in place then, through
whichever operation the installation was asked for, and that the entries before hold what they
held exactly if they were given just that. Installations that answer a failure are left to other
modules. -/

namespace Ambient

variable {η ν κ : Type} (H : Host η ν)

/-! ### Where an installation panics -/

/-- Putting the entry in place ends in a panic that says `text`, be it in reading what is there
or in writing the entry, and leads to `q`. -/
inductive Balks (e : Entry) (text : String) (p : Process η ν) : Process η ν → Prop
  | read {q} (hr : e.accessor.read H p = (.panicked text, q)) : Balks e text p q
  | write {prior q r} (hr : e.accessor.read H p = (.returned prior, q))
      (hw : e.accessor.write H e.value none (q.hold prior.toList) = (.panicked text, r)) :
      Balks e text p (r.unhold prior.toList.length)

/-- Something installs `s`: the installation begins in `p`, and in the end the state is `q` and
the panic told, if one, has left. -/
inductive Starts (s : Snapshot) : Process η ν → Option String → Process η ν → Prop
  | install (p) : Starts s p (s.install H p).1.panic? (s.install H p).2
  | within {α : Type} (body : Action η ν α) (p) :
      Starts s p (s.within H body p).1.panic? (s.within H body p).2
  | resume (b : Bridge) (hb : b.snapshot = s) (site p) :
      Starts s (p.record (.logged (.resuming site)))
        (b.resume H site p).1.panic? (b.resume H site p).2
  | poll {ω : Type} (t : Task) (ht : t.bridge.snapshot = s) (inner : Action η ν (Progress ω)) (p) :
      Starts s (p.record (.logged (.resuming t.advance.site)))
        ((t.poll H inner).2 p).1.panic? ((t.poll H inner).2 p).2

variable {H} {s : Snapshot} {before after priors : List Entry} {x : Entry} {p q r last : Process η ν}
  {text : String} {told : Option String}

namespace Snapshot

theorem installFrom_of_balks (h : Balks H x text p q) (rest priors : List Entry) :
    s.installFrom H (x :: rest) priors p = (.panicked text, q) := by
  cases h with
  | read hr => rw [installFrom, Action.bind_of_panicked hr]
  | write hr hw =>
    rw [installFrom, Action.bind_of_returned hr, Action.holding_apply, Action.bind_of_panicked hw]

/-- The entries before the one that panics stay as they were put in place. -/
theorem install_of_balks (hs : s.entries = before ++ x :: after)
    (hplaced : Placed H (p.hold s.values) before priors q) (hx : Balks H x text q r) :
    ∃ n, s.install H p = (.panicked text, r.unhold n) := by
  obtain ⟨n, hn⟩ := installFrom_of_placed (s := s) hplaced (x :: after) []
  rw [installFrom_of_balks hx, ← hs] at hn
  refine ⟨n + s.values.length, ?_⟩
  rw [install, Action.holding_apply, hn, Process.unhold_unhold]

end Snapshot

/-- Whoever asked for the installation, its panic leaves and nothing more is done. -/
theorem Starts.of_panics (h : s.install H p = (.panicked text, q))
    (hstart : Starts H s p told last) : told = some text ∧ last = q := by
  cases hstart with
  | install p =>
    rw [h]
    exact ⟨rfl, rfl⟩
  | within body p =>
    rw [Snapshot.within, Action.bind_of_panicked h]
    exact ⟨rfl, rfl⟩
  | resume b hb site p =>
    rw [Bridge.resume_apply, hb, h]
    exact ⟨rfl, rfl⟩
  | poll t ht inner p =>
    have hresume : t.advance.bridge.resume H t.advance.site p = (.panicked text, q) := by
      rw [Bridge.resume_apply, Task.bridge_advance, ht, h]
    have hwindow : t.advance.window H inner p = (.panicked text, q) := by
      rw [Task.window, Action.bind_of_panicked hresume]
    rw [show (t.poll H inner).2 p = _ from hwindow]
    exact ⟨rfl, rfl⟩

/-! ### What stays in place -/

variable {V : Cells η κ}

/-- What comes of putting a cell in place that panics: it may have changed, and no other has. -/
theorem Balks.cells (h : Balks H x text p q) (hx : x.accessor.IsBrittleCell H V) :
    (∃ made, q.calls = p.calls ++ made ∧ made <+: x.placing) ∧
      ∀ c, c ≠ x.cell V → q.contents V c = p.contents V c := by
  have hlooked := Accessor.read_isBrittleCell H hx p
  cases h with
  | read hr =>
    rw [hr] at hlooked
    exact ⟨⟨_, hlooked.calls, [x.writing none], rfl⟩, hlooked.elsewhere⟩
  | @write prior q₁ q₂ hr hw =>
    have hwritten := Accessor.write_isBrittleCell H hx x.value none (q₁.hold prior.toList)
    rw [hr] at hlooked
    rw [hw] at hwritten
    refine ⟨⟨x.placing, ?_, List.prefix_rfl⟩, fun c hc => ?_⟩
    · rw [Process.calls_unhold, hwritten.calls, Process.calls_hold, hlooked.calls, List.append_assoc]
      rfl
    · rw [Process.contents_unhold, hwritten.elsewhere c hc, Process.contents_hold,
        hlooked.elsewhere c hc]

/-- What an installation that panics at the entry `x` leaves. Accessors were called to put the
entries `before` it in place and to begin with `x`, and for nothing else; each of these entries is
in place, and no cell of other entries has changed. -/
structure Abandoned (V : Cells η κ) (before : List Entry) (x : Entry) (p last : Process η ν) :
    Prop where
  calls : ∃ made, last.calls = p.calls ++ before.flatMap Entry.placing ++ made ∧ made <+: x.placing
  held : ∀ e ∈ before, last.contents V (e.cell V) = e.value
  elsewhere : ∀ c ∉ (before ++ [x]).map (Entry.cell V), last.contents V c = p.contents V c

/-- An installation over distinct cells that panics at one of them, in reading it or in writing
it, whoever asked for it. The panic leaves, and the entries before keep what was installed. So
they hold what they held before exactly if that is what was captured for each of them. -/
theorem Snapshot.abandoned_of_panic [DecidableEq κ] (hs : s.entries = before ++ x :: after)
    (hcells : ∀ e ∈ s.entries, e.accessor.IsBrittleCell H V)
    (hd : (s.entries.map (Entry.cell V)).Nodup)
    (hplaced : Placed H (p.hold s.values) before priors q) (hx : Balks H x text q r)
    (hstart : Starts H s p told last) :
    told = some text ∧ Abandoned V before x p last ∧
      ((∀ e ∈ before, last.contents V (e.cell V) = p.contents V (e.cell V)) ↔
        ∀ e ∈ before, e.value = p.contents V (e.cell V)) := by
  obtain ⟨n, hinstall⟩ := install_of_balks hs hplaced hx
  obtain ⟨rfl, rfl⟩ := hstart.of_panics hinstall
  rw [hs] at hcells hd
  obtain ⟨hbefore, -, hapart⟩ := List.nodup_append.1 (List.map_append ▸ hd)
  have hput := hplaced.brittleCells (V := V) fun e he => hcells e (by simp [he])
  obtain ⟨⟨made, hmade, hprefix⟩, helse⟩ := hx.cells (V := V) (hcells x (by simp))
  have hlast : ∀ c, c ≠ x.cell V →
      (r.unhold n).contents V c = Entry.writeAll V before (p.contents V) c := by
    intro c hc
    rw [Process.contents_unhold, helse c hc, hput.contents, Process.contents_hold]
  have hheld : ∀ e ∈ before, (r.unhold n).contents V (e.cell V) = e.value := by
    intro e he
    have hne := hapart _ (List.mem_map_of_mem he) _ (List.mem_map_of_mem List.mem_cons_self)
    rw [hlast _ hne, Entry.writeAll_of_mem V hbefore he]
  refine ⟨rfl, ⟨⟨made, ?_, hprefix⟩, hheld, fun c hc => ?_⟩, ?_⟩
  · rw [Process.calls_unhold, hmade, hput.calls, Process.calls_hold]
  · rw [List.map_append, List.mem_append, not_or] at hc
    rw [hlast c fun heq => hc.2 (by simp [heq]), Entry.writeAll_of_not_mem V hc.1]
  · constructor
    · intro h e he
      rw [← hheld e he, h e he]
    · intro h e he
      rw [hheld e he, h e he]

namespace Snapshot

/-- Two keys of a program that cannot clear the second, which was captured as absent. -/
def halved : Snapshot where
  entries := [⟨.custom "a" 0, some ⟨.numbered 0, .unit⟩⟩, ⟨.custom "b" 1, none⟩]

/-- A poll whose installation panics at the second key: the first keeps what was installed. -/
theorem abandoned_of_panic_halved :
    ∃ last, (({ bridge := ⟨halved⟩ } : Task).poll Window.brittle (pure (.ready ()))).2
        { here := "main", host := .empty } = (.panicked "stuck", last) ∧
      last.host.get? "a" = some ⟨.numbered 0, .unit⟩ := by
  have hs : halved.entries =
      [⟨.custom "a" 0, some ⟨.numbered 0, .unit⟩⟩] ++ ⟨.custom "b" 1, none⟩ :: [] := rfl
  have hstart := Starts.poll (H := Window.brittle) { bridge := ⟨halved⟩ } rfl (pure (.ready ()))
    { here := "main", host := .empty }
  obtain ⟨-, habandoned, -⟩ := abandoned_of_panic
    (V := rackCells fun ref => if ref = 0 then "a" else if ref = 1 then "b" else "c")
    hs (fun e _ => (isCell_rack _ _ e.accessor).brittle) (by decide) (.cons rfl rfl (.nil _))
    (.write rfl rfl) hstart
  exact ⟨_, rfl, (habandoned.held _ List.mem_cons_self).trans rfl⟩

end Snapshot

end Ambient
