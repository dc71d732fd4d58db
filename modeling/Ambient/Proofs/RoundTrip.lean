import Ambient.Proofs.Restoring

/-! Round trips. A window is opened over cells that do not fail, cells are written while it
stands, and it is closed. Any number of captured keys may share a cell, and the writes may be
to any cells, by whatever means. Proved: the cells of captured keys hold again what they held
before the window, and the others what they were given last. Accessors that fail are left to
other modules. -/

namespace Ambient

variable {η ν κ : Type} {H : Host η ν} {V : Cells η κ}

/-! ### Writes while a window stands -/

/-- From `p` cells are given contents, one after another, and `q` is where that leads. It does
not matter who writes, nor through which accessor if through one. -/
inductive Wrote [DecidableEq κ] (V : Cells η κ) :
    Process η ν → List (Cell κ × Option Value) → Process η ν → Prop
  | nil {p q} (hf : p.Frame q) (hc : q.contents V = p.contents V) : Wrote V p [] q
  | cons {p p₁ q c content rest} (hf : p.Frame p₁)
      (hc : p₁.contents V = Function.update (p.contents V) c content) (h : Wrote V p₁ rest q) :
      Wrote V p ((c, content) :: rest) q

/-- What a cell was given last, if it was given anything. -/
def lastGiven [DecidableEq κ] (c : Cell κ) : List (Cell κ × Option Value) → Option (Option Value)
  | [] => none
  | (d, content) :: rest => lastGiven c rest <|> if d = c then some content else none

namespace Wrote

variable [DecidableEq κ] {p q : Process η ν} {writes : List (Cell κ × Option Value)}

theorem frame (h : Wrote V p writes q) : p.Frame q := by
  induction h with
  | nil hf _ => exact hf
  | cons hf _ _ ih => exact hf.trans ih

theorem contents (h : Wrote V p writes q) (c : Cell κ) :
    q.contents V c = (lastGiven c writes).getD (p.contents V c) := by
  induction h with
  | nil _ hc => rw [hc]; rfl
  | @cons p p₁ q d content rest _ hc _ ih =>
    rw [ih, hc, lastGiven]
    by_cases hd : d = c
    · subst hd
      rw [Function.update_self, if_pos rfl]
      cases lastGiven d rest <;> rfl
    · rw [Function.update_of_ne (Ne.symm hd), if_neg hd]
      cases lastGiven c rest <;> rfl

/-- A write through an accessor, whenever it succeeds, is such a write. -/
theorem through {a : Accessor} (ha : a.IsCell H V) {content : Option Value} {q : Process η ν}
    (hw : a.write H content none p = (.returned (.ok ()), q)) :
    Wrote V p [(a.cell V, content)] q := by
  have hwritten := Accessor.write_isCell H ha content none p
  rw [hw] at hwritten
  exact .cons hwritten.frame hwritten.update (.nil (.refl q) rfl)

end Wrote

/-! ### Windows as round trips -/

namespace Window

/-- Installing and closing is a round trip on the cells of the captured keys, however many
keys share one, and on no other cell does it leave a trace. -/
theorem close_after_writes [DecidableEq κ] (s : Snapshot) (p : Process η ν)
    (hs : ∀ e ∈ s.entries, e.accessor.IsCell H V)
    (hu : ∀ e ∈ s.entries, e.accessor.Unfailing H p.current.storage.isLive) :
    ∃ i q, s.install H p = (.returned (.ok i), q) ∧ ∀ writes r, Wrote V q writes r →
      ∃ r', close H i r = (.returned (.ok ()), r') ∧
        (∀ c ∈ s.entries.map (Entry.cell V), r'.contents V c = p.contents V c) ∧
        ∀ c ∉ s.entries.map (Entry.cell V),
          r'.contents V c = (lastGiven c writes).getD (p.contents V c) := by
  obtain ⟨i, q, hinstall, hi⟩ := Snapshot.install_of_unfailing hs hu
  refine ⟨i, q, hinstall, fun writes r hr => ?_⟩
  obtain ⟨r', hclose, -, hcontents⟩ := close_of_installed hs hu hi hr.frame
  refine ⟨r', hclose, fun c hc => ?_, fun c hc => ?_⟩
  · rw [hcontents, if_pos hc]
  · rw [hcontents, if_neg hc, hr.contents, hi.contents, Entry.writeAll_of_not_mem V hc]

/-- An embedding program whose custom accessors all give access to one cell. -/
def sharing : Host (Table Value) Unit := rack (fun _ => "cell") fun _ _ => .returned (.ok ())

/-- Two of its keys. -/
def shared : Snapshot where
  entries :=
    [⟨.custom "a" 0, some ⟨.numbered 1, .unit⟩⟩, ⟨.custom "b" 1, some ⟨.numbered 2, .unit⟩⟩]

theorem close_after_writes_shared :
    ∃ i q r r', shared.install sharing
        { here := "main", host := Table.empty.insert "cell" ⟨.numbered 0, .unit⟩ } =
          (.returned (.ok i), q) ∧
      (Accessor.custom "b" 1).write sharing none none q = (.returned (.ok ()), r) ∧
      close sharing i r = (.returned (.ok ()), r') ∧
      r'.host.get? "cell" = some ⟨.numbered 0, .unit⟩ := by
  have hcells : ∀ a : Accessor, a.IsCell sharing (rackCells fun _ => "cell") :=
    fun a => isCell_rack _ _ a
  have hunfailing : ∀ e ∈ shared.entries, e.accessor.Unfailing sharing true := by
    intro e he
    simp only [shared, List.mem_cons, List.not_mem_nil, or_false] at he
    rcases he with rfl | rfl <;> exact unfailing_rack (fun _ => rfl) _ _
  obtain ⟨i, q, hinstall, hclose⟩ :=
    close_after_writes (V := rackCells fun _ => "cell") shared
      { here := "main", host := Table.empty.insert "cell" ⟨.numbered 0, .unit⟩ }
      (fun e _ => hcells e.accessor) hunfailing
  have hw : (Accessor.custom "b" 1).write sharing none none q = (.returned (.ok ()), _) := rfl
  obtain ⟨r', hr', hback, -⟩ := hclose _ _ (.through (hcells _) hw)
  exact ⟨i, q, _, r', hinstall, hw, hr', hback (.own "cell") (by decide)⟩

end Window

end Ambient
