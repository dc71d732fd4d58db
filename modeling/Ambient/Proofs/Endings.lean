import Mathlib.Data.List.Nodup
import Mathlib.Data.List.Perm.Basic
import Ambient.Proofs.Nesting
import Ambient.Proofs.Polling

/-! Windows over slots that are ended in any order. They were opened one after another, with any
overlap of their keys and with writes in between, and nothing keeps who ends them to the order of
opening. An ending puts its own keys back and touches no other, so a slot is in the hands of the
window that covers it and is ended last. Proved: what all slots hold after that. Accessors other
than slots are left to other modules. -/

namespace Ambient

variable {η ν : Type} {H : Host η ν}

/-! ### Windows that stand -/

/-- The value that was there for a key before the window `i` of the running thread, as the window
remembers it. -/
def Process.prior? (p : Process η ν) (i : Nat) (k : Key) : Option (Option Value) :=
  p.current.windows[i]?.bind (·.prior? k)

/-- A window that was opened over slots. -/
structure Opening where
  snapshot : SlotSnapshot
  /-- The number of the window. -/
  index : Nat
  /-- What the slots held just before. -/
  before : Slots

/-- The process is one where these windows have been opened, first to last, and none of them has
been ended. In between, and after that, other code did what it liked besides ending them. -/
inductive Opened (H : Host η ν) : List Opening → Process η ν → Prop
  | start (p) : Opened H [] p
  | meanwhile {l p q} (h : Opened H l p) (hq : ∀ o ∈ l, p.Spares o.index q) : Opened H l q
  | install {l p q i} {s : SlotSnapshot} (h : Opened H l p)
      (hi : s.install H p = (.returned (.ok i), q)) : Opened H (l ++ [⟨s, i, p.slot?⟩]) q

/-- The window of the opening stands and remembers what was displaced. -/
structure Opening.Stands (o : Opening) (p : Process η ν) : Prop where
  window : ∃ m : Contents Empty, (∀ k, m (.slot k) = o.before k) ∧
    p.current.windows[o.index]? = some
      { snapshot := o.snapshot.toSnapshot
        priors := Entry.displaced (slotsOnly η) o.snapshot.entries m }
  /-- A thread without slots has no window over any. -/
  live : ∀ e ∈ o.snapshot.entries, p.current.storage.isLive = true

namespace Opening

variable {o : Opening} {p q : Process η ν}

theorem Stands.of_spares (h : o.Stands p) (hs : p.Spares o.index q) : o.Stands q := by
  obtain ⟨⟨m, hm, hwin⟩, hlive⟩ := h
  exact ⟨⟨m, hm, hs.window.trans hwin⟩, fun e he => hs.live.trans (hlive e he)⟩

theorem Stands.of_frame (h : o.Stands p) (hf : p.Frame q) : o.Stands q := by
  obtain ⟨⟨m, hm, hwin⟩, hlive⟩ := h
  exact ⟨⟨m, hm, hf.window hwin⟩, fun e he => hf.live.trans (hlive e he)⟩

theorem Stands.lt (h : o.Stands p) : o.index < p.current.windows.length := by
  obtain ⟨m, -, hwin⟩ := h.window
  exact (List.getElem?_eq_some_iff.1 hwin).1

end Opening

/-- An installation opens such a window. -/
theorem Opening.stands_of_installed {s : SlotSnapshot} {i : Nat} {p q : Process η ν}
    (hi : s.Installed (slotsOnly η) p i q)
    (hlive : ∀ e ∈ s.entries, p.current.storage.isLive = true) :
    (⟨s, i, p.slot?⟩ : Opening).Stands q :=
  ⟨⟨p.contents (slotsOnly η), fun _ => rfl, hi.window⟩,
    fun e he => hi.frame.live.trans (hlive e he)⟩

theorem Slot.live_of_write {k : Key} {content : Option Value} {p q : Process η ν}
    (hw : Slot.write H k content p = (.returned (.ok ()), q)) :
    p.current.storage.isLive = true := by
  cases hs : p.current.storage with
  | live slots => rfl
  | destroyed =>
    rw [Slot.write_destroyed H hs] at hw
    exact absurd (congrArg Prod.fst hw) (by simp)

/-- Only threads that have slots admit of a window over some. -/
theorem SlotSnapshot.live_of_install {s : SlotSnapshot} {i : Nat} {p q : Process η ν}
    (hi : s.install H p = (.returned (.ok i), q)) :
    ∀ e ∈ s.entries, p.current.storage.isLive = true := by
  obtain ⟨priors, r, n, hplaced, -, -⟩ := Snapshot.placed_of_install hi
  intro e he
  obtain ⟨d, rest, hentries⟩ := List.exists_cons_of_ne_nil (List.ne_nil_of_mem he)
  have hd : d.accessor = .slot d.key := s.slots d (hentries ▸ List.mem_cons_self)
  rw [hentries] at hplaced
  cases hplaced with
  | @cons _ p₁ _ _ _ _ prior _ hr hw _ =>
    rw [hd, Accessor.read_slot] at hr
    obtain ⟨-, rfl⟩ : _ = prior ∧ _ = p₁ := by simpa [Slot.read_apply] using hr
    rw [hd, Accessor.write_slot] at hw
    have hlive := Slot.live_of_write hw
    exact hlive

/-- What slots displace is remembered under their keys, if no key occurs twice. -/
theorem SlotSnapshot.lookUp_displaced {l : List Entry} (hl : ∀ e ∈ l, e.accessor = .slot e.key)
    (hd : (l.map Entry.key).Nodup) (m : Contents Empty) (k : Key) :
    Entry.lookUp k (Entry.displaced (slotsOnly η) l m) =
      if k ∈ l.map Entry.key then some (m (.slot k)) else none := by
  induction l generalizing m with
  | nil => rfl
  | cons e rest ih =>
    have hcell : e.cell (slotsOnly η) = .slot e.key := by
      rw [Entry.cell, hl e List.mem_cons_self]
      rfl
    obtain ⟨hnot, hrest⟩ := List.nodup_cons.1 (List.map_cons ▸ hd)
    rw [Entry.displaced, Entry.lookUp, ih (fun d hd => hl d (List.mem_cons_of_mem _ hd)) hrest, hcell]
    change (if e.key = k then _ else _) = _
    by_cases h : e.key = k
    · subst h
      simp
    · -- what is displaced later was not written by this entry
      have hne : Cell.slot k ≠ (Cell.slot e.key : Cell Empty) := fun heq => h (Cell.slot.inj heq).symm
      rw [if_neg h, Function.update_of_ne hne]
      simp [Ne.symm h]

/-- A window that stands remembers for the keys of its snapshot what the slots held before it, and
nothing for others. -/
theorem Opening.Stands.prior? {o : Opening} {p : Process η ν} (h : o.Stands p) (k : Key) :
    p.prior? o.index k = if o.snapshot.contains k then some (o.before k) else none := by
  obtain ⟨m, hm, hwin⟩ := h.window
  rw [Process.prior?, hwin, Option.bind_some, Window.prior?,
    SlotSnapshot.lookUp_displaced o.snapshot.slots o.snapshot.nodup, hm]
  exact if_congr Snapshot.contains_iff.symm rfl rfl

namespace Opened

variable {l : List Opening} {p q : Process η ν}

/-- The windows stand, and each has a number of its own. -/
theorem stands (h : Opened H l p) :
    (∀ o ∈ l, o.Stands p) ∧ (l.map Opening.index).Nodup := by
  induction h with
  | start p => exact ⟨fun o ho => absurd ho List.not_mem_nil, List.nodup_nil⟩
  | meanwhile _ hq ih => exact ⟨fun o ho => (ih.1 o ho).of_spares (hq o ho), ih.2⟩
  | @install l p q i s _ hi ih =>
    have hinstalled := Snapshot.installed_of_install s.isCell hi
    refine ⟨fun o ho => ?_, ?_⟩
    · rcases List.mem_append.1 ho with ho | ho
      · exact (ih.1 o ho).of_frame hinstalled.frame
      · obtain rfl := List.mem_singleton.1 ho
        exact Opening.stands_of_installed hinstalled (SlotSnapshot.live_of_install hi)
    · -- the new window comes after all those that are there
      rw [List.map_append, List.nodup_append]
      refine ⟨ih.2, by simp, fun j hj j' hj' heq => ?_⟩
      obtain ⟨o, ho, rfl⟩ := List.mem_map.1 hj
      obtain rfl : j' = i := by simpa using hj'
      have hlt := (ih.1 o ho).lt
      have hfresh := hinstalled.fresh
      omega

/-- Code that leaves all windows alone which it finds does what it likes. -/
theorem frame (h : Opened H l p) (hf : p.Frame q) : Opened H l q := by
  refine h.meanwhile fun o ho => ⟨hf.here, hf.live, ?_⟩
  obtain ⟨m, -, hwin⟩ := (h.stands.1 o ho).window
  rw [hf.window hwin, hwin]

/-- Writing a slot is something that other code may do. -/
theorem write (h : Opened H l p) (k : Key) (content : Option Value) :
    Opened H l (Slot.write H k content p).2 :=
  h.frame (Slot.written (V := slotsOnly η) H k content p).frame

end Opened

/-! ### Endings -/

/-- How the owner of a window lets it end. -/
inductive Ending.Way where
  | closed
  /-- By giving it up, be it in a panic. -/
  | dropped

/-- The ending of the window with a number, and what other code makes of the process before. -/
structure Ending (η ν : Type) where
  index : Nat
  way : Ending.Way
  meanwhile : Process η ν → Process η ν := id

namespace Ending

variable (H) in
/-- Ends a window; a failure of closing it is not handled. -/
def Way.run (i : Nat) : Way → Action η ν Unit
  | closed => do Action.expect (← Window.close H i)
  | dropped => Window.drop H i

variable (H) in
/-- Ends windows one after another. -/
def runAll : List (Ending η ν) → Action η ν Unit
  | [] => pure ()
  | e :: rest => do
    Action.change e.meanwhile
    e.way.run H e.index
    runAll rest

/-- What other code does before the ending leaves the slots alone, and the windows of these
numbers. -/
def Quiet (numbers : List Nat) (e : Ending η ν) : Prop :=
  ∀ p, (e.meanwhile p).slot? = p.slot? ∧ ∀ i ∈ numbers, p.Spares i (e.meanwhile p)

end Ending

/-- Where the restoration of a window does not fail, it does not matter who ends the window. -/
theorem Ending.Way.run_of_restored {i : Nat} {p r : Process η ν}
    (h : Window.restore H i p = (.returned (.ok ()), r)) (way : Ending.Way) :
    way.run H i p = (.returned (), (r.marked i .ended).sweep H) := by
  cases way with
  | closed =>
    have hclose := Window.close_apply (H := H) i p
    rw [h] at hclose
    exact Action.bind_of_returned hclose _
  | dropped =>
    have hdrop := Window.endWith_apply (H := H) i .dropFailed p
    rw [h] at hdrop
    exact hdrop

/-- Restoring a window that stands puts its own keys back and leaves other slots alone. -/
theorem Opening.Stands.restored {o : Opening} {p : Process η ν} (h : o.Stands p) :
    ∃ r, Window.restore H o.index p = (.returned (.ok ()), r) ∧
      (p.marked o.index .closing).Frame r ∧
      ((r.marked o.index .ended).sweep H).slot? = o.snapshot.back o.before p.slot? := by
  obtain ⟨⟨m, hm, hwin⟩, hlive⟩ := h
  obtain ⟨r, hrestore, hf, hcontents⟩ := Window.restore_of_unfailing (H := H) hwin rfl
    ((Entry.forall_displaced _).2 o.snapshot.isCell)
    ((Entry.forall_displaced _).2 fun e he => o.snapshot.unfailing (hlive e he) e he)
  refine ⟨r, hrestore, hf, ?_⟩
  funext k
  have hk := congrFun hcontents (.slot k)
  rw [Entry.writeAll_reverse_displaced, if_congr (o.snapshot.mem_cells k) rfl rfl, hm] at hk
  have hend : ((r.marked o.index .ended).sweep H).slot? k = r.slot? k :=
    congrFun (Process.contents_marked (slotsOnly η) r o.index .ended) (.slot k)
  exact hend.trans hk

/-- Ending a window puts its own keys back and leaves other slots and other windows alone. -/
theorem Opening.Stands.ended {o : Opening} {p : Process η ν} (h : o.Stands p) (way : Ending.Way) :
    ∃ q, way.run H o.index p = (.returned (), q) ∧ q.here = p.here ∧
      q.slot? = o.snapshot.back o.before p.slot? ∧
      ∀ o' : Opening, o'.index ≠ o.index → o'.Stands p → o'.Stands q := by
  obtain ⟨r, hrestore, hf, hslots⟩ := h.restored (H := H)
  refine ⟨_, Ending.Way.run_of_restored hrestore way, hf.here, hslots, fun o' hne ho' => ?_⟩
  -- marks are set on the window that ends and on no other
  have hspares : ∀ (status : WindowStatus) (p' : Process η ν),
      p'.Spares o'.index (p'.marked o.index status) := fun status p' =>
    ⟨rfl, by simp [Process.marked, Process.modifyCurrent],
      by simp [Process.marked, Process.modifyCurrent, Ne.symm hne]⟩
  have hr := (ho'.of_spares (hspares .closing p)).of_frame hf
  exact (hr.of_spares (hspares .ended r)).of_frame (Process.frame_sweep H _)

namespace Opening

/-- What becomes of slots when windows end in the order of the list. -/
def backAll (order : List Opening) (m : Slots) : Slots :=
  order.foldl (fun n o => o.snapshot.back o.before n) m

theorem backAll_of_not_covered {order : List Opening} {k : Key}
    (h : ∀ o ∈ order, o.snapshot.contains k = false) (m : Slots) : backAll order m k = m k := by
  induction order generalizing m with
  | nil => rfl
  | cons o rest ih =>
    refine (ih (fun o' ho' => h o' (List.mem_cons_of_mem _ ho')) _).trans ?_
    simp [SlotSnapshot.back, h o List.mem_cons_self]

/-- A slot is in the hands of the window that ends last among those that cover it. -/
theorem backAll_of_last {earlier later : List Opening} {o : Opening} {k : Key}
    (hk : o.snapshot.contains k = true) (h : ∀ o' ∈ later, o'.snapshot.contains k = false)
    (m : Slots) : backAll (earlier ++ o :: later) m k = o.before k := by
  rw [backAll, List.foldl_append, List.foldl_cons]
  refine (backAll_of_not_covered h _).trans ?_
  rw [SlotSnapshot.back, if_pos hk]

end Opening

/-- Windows that stand are ended one after another, and nothing panics or fails. -/
theorem Ending.runAll_of_stands {order : List Opening} {endings : List (Ending η ν)}
    {numbers : List Nat} {p : Process η ν}
    (hstands : ∀ o ∈ order, o.Stands p) (hd : (order.map Opening.index).Nodup)
    (hmatch : List.Forall₂ (fun e o => Ending.index e = Opening.index o) endings order)
    (hnumbers : ∀ o ∈ order, o.index ∈ numbers) (hquiet : ∀ e ∈ endings, e.Quiet numbers) :
    ∃ q, runAll H endings p = (.returned (), q) ∧ q.here = p.here ∧
      q.slot? = Opening.backAll order p.slot? := by
  induction hmatch generalizing p with
  | nil => exact ⟨p, rfl, rfl, rfl⟩
  | @cons e o endings order hindex _ ih =>
    obtain ⟨hnot, hrest⟩ := List.nodup_cons.1 (List.map_cons ▸ hd)
    obtain ⟨hslots, hspares⟩ := hquiet e List.mem_cons_self p
    have hkept : ∀ o' ∈ o :: order, o'.Stands (e.meanwhile p) := fun o' ho' =>
      (hstands o' ho').of_spares (hspares _ (hnumbers o' ho'))
    obtain ⟨q, hq, hhere, hback, hothers⟩ :=
      (hkept o List.mem_cons_self).ended (H := H) e.way
    have hstill : ∀ o' ∈ order, o'.Stands q := by
      intro o' ho'
      refine hothers o' (fun heq => hnot ?_) (hkept o' (List.mem_cons_of_mem _ ho'))
      exact List.mem_map.2 ⟨o', ho', heq⟩
    obtain ⟨r, hr, hrhere, hslot⟩ := ih hstill hrest
      (fun o' ho' => hnumbers o' (List.mem_cons_of_mem _ ho'))
      (fun e' he' => hquiet e' (List.mem_cons_of_mem _ he'))
    have hown := hspares o.index (hnumbers o List.mem_cons_self)
    refine ⟨r, ?_, hrhere.trans (hhere.trans hown.here), ?_⟩
    · rw [runAll, Action.bind_of_returned (Action.change_apply ..), hindex,
        Action.bind_of_returned hq, hr]
    · rw [hslot, hback, hslots]
      rfl

/-! ### Orders of ending -/

/-- What ending the windows of the openings `l` in the order of `numbers` makes of `p`. -/
structure Settled (l : List Opening) (numbers : List Nat) (p q : Process η ν) : Prop where
  here : q.here = p.here
  /-- A slot holds what the last window to end among those that cover it remembers for it. -/
  covered : ∀ o ∈ l, ∀ earlier later k, numbers = earlier ++ o.index :: later →
    o.snapshot.contains k = true →
    (∀ o' ∈ l, o'.index ∈ later → o'.snapshot.contains k = false) →
      p.prior? o.index k = some (q.slot? k)
  elsewhere : ∀ k, (∀ o ∈ l, o.snapshot.contains k = false) → q.slot? k = p.slot? k
  /-- Where the last window to be opened is the first to end and so on, a slot holds what it held
  before the first window that covers it. -/
  unwound : numbers = (l.map Opening.index).reverse → ∀ earlier o later k, l = earlier ++ o :: later →
    o.snapshot.contains k = true → (∀ o' ∈ earlier, o'.snapshot.contains k = false) →
      q.slot? k = o.before k

/-- Windows over slots, with any overlap, that are ended in any order, each by closing it or by
giving it up. -/
theorem Opened.ended_in_any_order {l : List Opening} {p : Process η ν} (h : Opened H l p)
    {endings : List (Ending η ν)}
    (hperm : (endings.map Ending.index).Perm (l.map Opening.index))
    (hquiet : ∀ e ∈ endings, e.Quiet (l.map Opening.index)) :
    ∃ q, Ending.runAll H endings p = (.returned (), q) ∧
      Settled l (endings.map Ending.index) p q := by
  obtain ⟨hstands, hd⟩ := h.stands
  -- the openings in the order of their endings
  obtain ⟨order, hforall, horder⟩ := List.perm_comp_forall₂ (r := fun i o => i = Opening.index o)
    hperm (List.forall₂_map_left_iff.2 (List.forall₂_same.2 fun _ _ => rfl))
  have hindices : endings.map Ending.index = order.map Opening.index :=
    List.forall₂_eq_eq_eq ▸ List.forall₂_map_right_iff.2 hforall
  obtain ⟨q, hq, hhere, hslot⟩ := Ending.runAll_of_stands (H := H)
    (fun o ho => hstands o (horder.mem_iff.1 ho)) (hindices ▸ hperm.nodup_iff.2 hd)
    (List.forall₂_map_left_iff.1 hforall)
    (fun o ho => List.mem_map_of_mem (horder.mem_iff.1 ho)) hquiet
  have hcovered : ∀ o ∈ l, ∀ earlier later k,
      endings.map Ending.index = earlier ++ o.index :: later → o.snapshot.contains k = true →
      (∀ o' ∈ l, o'.index ∈ later → o'.snapshot.contains k = false) → q.slot? k = o.before k := by
    intro o ho earlier later k hsplit hk hlater
    obtain ⟨before, rest, rfl, rfl, hrest⟩ := List.map_eq_append_iff.1 (hindices.symm.trans hsplit)
    obtain ⟨o', after, rfl, hsame, rfl⟩ := List.map_eq_cons_iff.1 hrest
    have hmem : ∀ x ∈ before ++ o' :: after, x ∈ l := fun x hx => horder.mem_iff.1 hx
    obtain rfl := List.inj_on_of_nodup_map hd (hmem o' (by simp)) ho hsame
    rw [hslot]
    exact Opening.backAll_of_last hk
      (fun x hx => hlater x (hmem x (by simp [hx])) (List.mem_map_of_mem hx)) _
  refine ⟨q, hq, hhere, fun o ho earlier later k hsplit hk hlater => ?_, fun k hk => ?_,
    fun hreverse earlier o later k hl hk hearlier => ?_⟩
  · rw [(hstands o ho).prior?, if_pos hk, hcovered o ho earlier later k hsplit hk hlater]
  · rw [hslot, Opening.backAll_of_not_covered fun o ho => hk o (horder.mem_iff.1 ho)]
  · subst hl
    refine hcovered o (by simp) (later.map Opening.index).reverse (earlier.map Opening.index).reverse
      k (by rw [hreverse]; simp) hk fun o' ho' hin => ?_
    -- numbers tell windows apart, so it is one that was opened earlier
    obtain ⟨x, hx, hsame⟩ := List.mem_map.1 (List.mem_reverse.1 hin)
    obtain rfl := List.inj_on_of_nodup_map hd (by simp [hx]) ho' hsame
    exact hearlier x hx

/-! ### Windows that cross -/

/-- An embedding program without cells of its own. -/
def bare : Host (Table Value) Unit := rack (fun _ => "") fun _ _ => .returned (.ok ())

/-- Two slots. -/
def leftPair : SlotSnapshot where
  entries := [⟨.slot "a", some ⟨.numbered 1, .unit⟩⟩, ⟨.slot "b", some ⟨.numbered 2, .unit⟩⟩]
  slots := by decide
  nodup := by decide

/-- Two slots, one of which is in `leftPair` too. -/
def rightPair : SlotSnapshot where
  entries := [⟨.slot "b", some ⟨.numbered 3, .unit⟩⟩, ⟨.slot "c", none⟩]
  slots := by decide
  nodup := by decide

/-- A slot both cover is written while the first of them is open, and they are ended in the order of
opening: the slot keeps what was written. -/
theorem Opened.ended_in_any_order_crossed :
    ∃ p₁ p₂ p₃ q, leftPair.install bare { here := "main", host := .empty } =
        (.returned (.ok 0), p₁) ∧
      Slot.write bare "b" (some ⟨.numbered 4, .unit⟩) p₁ = (.returned (.ok ()), p₂) ∧
      rightPair.install bare p₂ = (.returned (.ok 1), p₃) ∧
      Ending.runAll bare [{ index := 0, way := .closed }, { index := 1, way := .dropped }] p₃ =
        (.returned (), q) ∧
      q.slot? "a" = none ∧ q.slot? "b" = some ⟨.numbered 4, .unit⟩ := by
  have hleft : leftPair.install bare ({ here := "main", host := .empty } : Process _ Unit) =
    (.returned (.ok 0), _) := rfl
  have hright : rightPair.install bare (Slot.write bare "b" (some ⟨.numbered 4, .unit⟩)
    (leftPair.install bare ({ here := "main", host := .empty } : Process _ Unit)).2).2 =
    (.returned (.ok 1), _) := rfl
  have hopened := (((Opened.start _).install hleft).write "b" (some ⟨.numbered 4, .unit⟩)).install
    hright
  have hquiet : ∀ e ∈ ([{ index := 0, way := .closed }, { index := 1, way := .dropped }] :
      List (Ending (Table Value) Unit)), e.Quiet [0, 1] := by
    intro e he p
    have hid : e.meanwhile p = p := by
      rcases List.mem_cons.1 he with rfl | he
      · rfl
      · rw [List.mem_singleton.1 he]
        rfl
    rw [hid]
    exact ⟨rfl, fun i _ => ⟨rfl, rfl, rfl⟩⟩
  obtain ⟨q, hq, hsettled⟩ := Opened.ended_in_any_order hopened (.refl _) hquiet
  have ha := hsettled.covered _ List.mem_cons_self [] [1] "a" rfl (by decide) (by decide)
  have hb := hsettled.covered _ (List.mem_cons_of_mem _ List.mem_cons_self) [0] [] "b" rfl
    (by decide) (by decide)
  exact ⟨_, _, _, q, hleft, rfl, hright, hq, (Option.some.inj ha).symm, (Option.some.inj hb).symm⟩

end Ambient
