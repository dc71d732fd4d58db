import Mathlib.Data.List.Nodup
import Ambient.Proofs.Endings
import Ambient.Proofs.Locality
import Ambient.Proofs.Reporting

/-! When displaced values are released. A value may have code of its own that reads slots when
nobody holds it any more. Ending a window over slots takes the values that these hold by then out of
them, one key after another, and each value is released as soon as its slot has its prior: not
inside of the update, and not when all priors are back. Proved: the end of a window and a write to
a slot release a value that the slot alone holds, once, and what the value's code finds in each
slot. Accessors other than slots are left to other modules. -/

namespace Ambient

variable {η ν : Type} (H : Host η ν)

/-! ### Who holds a value -/

theorem Storage.holds_eq (i : Identity) (k : Key) (s : Storage) :
    s.holds i = ((s.get? k).any (Value.mentions i) || (s.assign k none).holds i) := by
  cases s with
  | live slots => exact slots.any_values k _
  | destroyed => rfl

theorem Storage.assign_assign (k : Key) (x y : Option Value) (s : Storage) :
    (s.assign k x).assign k y = s.assign k y := by
  cases s with
  | live slots => exact congrArg live (slots.assign_assign k x y)
  | destroyed => rfl

theorem Storage.assign_comm {j k : Key} (h : j ≠ k) (x y : Option Value) (s : Storage) :
    (s.assign j x).assign k y = (s.assign k y).assign j x := by
  cases s with
  | live slots => exact congrArg live (slots.assign_comm h x y)
  | destroyed => rfl

namespace Process

/-- Whether anything but the running thread keeps the value of identity `i` alive. -/
def holdsApart (i : Identity) (p : Process η ν) : Bool :=
  (p.threads.erase p.here).values.any (Thread.holds i) || p.pinned.any (Value.mentions i) ||
    H.holds i p.host

variable {i : Identity} {k : Key} {p : Process η ν}

theorem holds_eq_current (i : Identity) (p : Process η ν) :
    p.holds H i = (p.current.holds i || p.holdsApart H i) := by
  have hcurrent : (p.threads.get? p.here).any (Thread.holds i) = p.current.holds i := by
    rw [current, thread]
    -- a thread that was not started holds nothing
    cases p.threads.get? p.here <;> rfl
  rw [holds, holdsApart, p.threads.any_values p.here, hcurrent, Bool.or_assoc, Bool.or_assoc,
    Bool.or_assoc]

@[simp] theorem holdsApart_setCurrent (i : Identity) (p : Process η ν) (t : Thread) :
    (p.setCurrent t).holdsApart H i = p.holdsApart H i := by
  have herase : (p.threads.insert p.here t).erase p.here = p.threads.erase p.here :=
    p.threads.assign_assign p.here (some t) none
  rw [holdsApart, holdsApart, setCurrent, herase]

theorem current_put (k : Key) (content : Option Value) (p : Process η ν) :
    (p.put k content).current =
      { p.current with storage := p.current.storage.assign k content } :=
  current_setCurrent p _

@[simp] theorem isLive_put (k : Key) (content : Option Value) (p : Process η ν) :
    (p.put k content).current.storage.isLive = p.current.storage.isLive := by
  rw [current_put]
  cases p.current.storage <;> rfl

theorem put_put (k : Key) (x y : Option Value) (p : Process η ν) :
    (p.put k x).put k y = p.put k y := by
  simp only [put, modifyCurrent_modifyCurrent, Storage.assign_assign]

theorem put_comm {j k : Key} (h : j ≠ k) (x y : Option Value) (p : Process η ν) :
    (p.put j x).put k y = (p.put k y).put j x := by
  simp only [put, modifyCurrent_modifyCurrent, Storage.assign_comm h]

theorem slot?_put (hp : p.current.storage.isLive = true) (k : Key) (content : Option Value) :
    (p.put k content).slot? = Function.update p.slot? k content := by
  funext j
  rw [slot?, current_put, Function.update_apply]
  cases hs : p.current.storage with
  | live slots => simp [Storage.assign, Storage.get?, Table.get?_assign, slot?, hs, eq_comm]
  | destroyed => simp [hs, Storage.isLive] at hp

/-- A value is held by what a slot of the running thread holds, or besides. -/
theorem holds_eq_put (i : Identity) (k : Key) (p : Process η ν) :
    p.holds H i = ((p.slot? k).any (Value.mentions i) || (p.put k none).holds H i) := by
  rw [holds_eq_current, holds_eq_current H i (p.put k none), current_put, put, modifyCurrent,
    holdsApart_setCurrent, Thread.holds, Thread.holds, p.current.storage.holds_eq i k]
  simp only [slot?, Bool.or_assoc]

/-- When a slot is written, a value is held by the new content, or besides. -/
theorem holds_put (hp : p.current.storage.isLive = true) (k : Key) (content : Option Value) :
    (p.put k content).holds H i =
      (content.any (Value.mentions i) || (p.put k none).holds H i) := by
  rw [holds_eq_put H i k, put_put, slot?_put hp, Function.update_self]

theorem holds_marked_closing {n : Nat} {win : Window} (hw : p.current.windows[n]? = some win)
    (hs : win.status = .standing) : (p.marked n .closing).holds H i = p.holds H i := by
  have hany : ∀ (l : List Window) (n : Nat), l[n]? = some win →
      (l.modify n fun w => { w with status := .closing }).any (Window.holds i) =
        l.any (Window.holds i) := by
    intro l
    induction l with
    | nil => simp
    | cons w rest ih =>
      intro n hn
      cases n with
      | zero =>
        obtain rfl : w = win := by simpa using hn
        rw [List.modify_zero_cons, List.any_cons, List.any_cons, Window.holds, Window.holds, hs]
        rfl
      | succ n => simpa using congrArg (w.holds i || ·) (ih n (by simpa using hn))
  rw [holds_eq_current, holds_eq_current H i p, marked, modifyCurrent, holdsApart_setCurrent,
    current_setCurrent, Thread.holds, Thread.holds, hany _ n hw]

@[simp] theorem slot?_marked (n : Nat) (status : WindowStatus) (p : Process η ν) :
    (p.marked n status).slot? = p.slot? := by
  funext k
  rw [slot?, marked, modifyCurrent, current_setCurrent]
  rfl

/-- A window that stands holds its priors. -/
theorem not_mentions_of_standing (h : p.holds H i = false) {n : Nat} {win : Window}
    (hw : p.current.windows[n]? = some win) (hs : win.status = .standing) :
    ∀ e ∈ win.priors, e.mentions i = false := by
  rw [holds_eq_current, Bool.or_eq_false_iff, Thread.holds, Bool.or_eq_false_iff] at h
  have hwin := List.any_eq_false.1 h.1.2 win (List.mem_of_getElem? hw)
  simp only [Window.holds, hs, Bool.not_eq_true, Bool.and_eq_false_iff, Bool.or_eq_false_iff]
    at hwin
  rcases hwin with hended | ⟨-, hpriors⟩
  · exact absurd hended (by decide)
  · exact fun e he => Bool.eq_false_iff.2 (List.any_eq_false.1 hpriors e he)

/-- The value `v` is what the slot `k` of the running thread holds, or inside of that, and nobody
else holds it. -/
structure HeldOnlyIn (k : Key) (v : Value) (p : Process η ν) : Prop where
  held : (p.slot? k).any (Value.mentions v.id) = true
  besides : (p.put k none).holds H v.id = false

namespace HeldOnlyIn

variable {H} {v : Value}

theorem holds (h : p.HeldOnlyIn H k v) : p.holds H v.id = true := by
  rw [holds_eq_put H v.id k, h.held, Bool.true_or]

theorem live (h : p.HeldOnlyIn H k v) : p.current.storage.isLive = true := by
  have hheld := h.held
  rw [slot?] at hheld
  cases hs : p.current.storage with
  | live slots => rfl
  | destroyed => simp [hs, Storage.get?] at hheld

theorem record (h : p.HeldOnlyIn H k v) (e : Event ν) : (p.record e).HeldOnlyIn H k v :=
  ⟨h.held, h.besides⟩

/-- When the slot has another content, nobody holds the value. -/
theorem not_holds_put (h : p.HeldOnlyIn H k v) {content : Option Value}
    (hc : content.any (Value.mentions v.id) = false) : (p.put k content).holds H v.id = false := by
  rw [holds_put H h.live, hc, h.besides, Bool.or_false]

theorem put (h : p.HeldOnlyIn H k v) {j : Key} (hj : j ≠ k) {content : Option Value}
    (hc : content.any (Value.mentions v.id) = false) : (p.put j content).HeldOnlyIn H k v := by
  constructor
  · rw [slot?_put h.live, Function.update_of_ne (Ne.symm hj)]
    exact h.held
  · have hnot := h.besides
    rw [holds_eq_put H v.id j, Bool.or_eq_false_iff] at hnot
    rw [put_comm hj, holds_put H (by rw [isLive_put, h.live]), hc, hnot.2, Bool.or_false]

theorem marked_closing (h : p.HeldOnlyIn H k v) {n : Nat} {win : Window}
    (hw : p.current.windows[n]? = some win) (hs : win.status = .standing) :
    (p.marked n .closing).HeldOnlyIn H k v := by
  have hcomm : (p.marked n .closing).put k none = (p.put k none).marked n .closing := by
    simp only [Process.put, marked, modifyCurrent_modifyCurrent]
  constructor
  · rw [slot?_marked]
    exact h.held
  · rw [hcomm, holds_marked_closing H (by rwa [current_put]) hs]
    exact h.besides

/-- A window that stands does not hold the value. -/
theorem not_mentions (h : p.HeldOnlyIn H k v) {n : Nat} {win : Window}
    (hw : p.current.windows[n]? = some win) (hs : win.status = .standing) :
    ∀ e ∈ win.priors, e.mentions v.id = false :=
  not_mentions_of_standing H h.besides (by rwa [current_put]) hs

end HeldOnlyIn

end Process

/-! ### Releases -/

/-- What the code of `v` read when it was released, if the event is its release. -/
def Event.readings? (v : Value) : Event ν → Option (List (Key × Option Value))
  | .released w readings => if w = v then some readings else none
  | _ => none

/-- What the value's code reads where slots are so. -/
def Value.looks (v : Value) (m : Slots) : List (Key × Option Value) :=
  v.watches.map fun k => (k, m k)

theorem Value.count_filter (f : Value → Bool) (l : List Value) (v : Value) :
    (l.filter f).count v = if f v then l.count v else 0 := by
  by_cases hf : f v = true
  · rw [if_pos hf, List.count_filter hf]
  · rw [if_neg hf]
    exact List.count_eq_zero.2 fun hv => hf (List.mem_filter.1 hv).2

namespace Process

/-- The releases of `v`, first to last, by what its code read. -/
def readings (v : Value) (p : Process η ν) : List (List (Key × Option Value)) :=
  p.history.reverse.filterMap (Event.readings? v)

/-- From `p` to `q` the code of `v` does not run, and it is still to run if it was. -/
structure Quiet (v : Value) (p q : Process η ν) : Prop where
  readings : q.readings v = p.readings v
  count : q.watchers.count v = p.watchers.count v

/-- From `p` to `q` the code of `v` runs once and for all, and finds the slots as told. -/
structure ReleasedOnce (v : Value) (seen : Slots) (p q : Process η ν) : Prop where
  once : q.readings v = p.readings v ++ [v.looks seen]
  gone : v ∉ q.watchers

variable {v : Value} {seen : Slots} {k : Key} {p q r : Process η ν}

theorem Quiet.refl (v : Value) (p : Process η ν) : p.Quiet v p := ⟨rfl, rfl⟩

theorem Quiet.trans (h : p.Quiet v q) (g : q.Quiet v r) : p.Quiet v r :=
  ⟨g.readings.trans h.readings, g.count.trans h.count⟩

theorem ReleasedOnce.after_quiet (h : q.ReleasedOnce v seen r) (g : p.Quiet v q) :
    p.ReleasedOnce v seen r :=
  ⟨by rw [h.once, g.readings], h.gone⟩

theorem ReleasedOnce.then_quiet (h : p.ReleasedOnce v seen q) (g : q.Quiet v r) :
    p.ReleasedOnce v seen r :=
  ⟨by rw [g.readings, h.once],
    List.count_eq_zero.1 (g.count.trans (List.count_eq_zero.2 h.gone))⟩

theorem quiet_record (p : Process η ν) {e : Event ν} (he : e.readings? v = none) :
    p.Quiet v (p.record e) :=
  ⟨by simp [Process.readings, record, he], rfl⟩

theorem quiet_put (v : Value) (k : Key) (content : Option Value) (p : Process η ν) :
    p.Quiet v (p.put k content) := ⟨rfl, rfl⟩

theorem quiet_marked (v : Value) (n : Nat) (status : WindowStatus) (p : Process η ν) :
    p.Quiet v (p.marked n status) := ⟨rfl, rfl⟩

theorem count_sweep (v : Value) (p : Process η ν) :
    (p.sweep H).watchers.count v = if p.holds H v.id then p.watchers.count v else 0 := by
  rw [sweep, List.partition_eq_filter_filter]
  exact Value.count_filter _ _ v

/-- What a sweep releases finds the slots as they are. -/
theorem readings_sweep (v : Value) (p : Process η ν) :
    (p.sweep H).readings v = p.readings v ++
      List.replicate (if p.holds H v.id then 0 else p.watchers.count v) (v.looks p.slot?) := by
  have hread : ∀ gone : List Value, (gone.map p.releaseEvent).filterMap (Event.readings? v) =
      List.replicate (gone.count v) (v.looks p.slot?) := by
    intro gone
    induction gone with
    | nil => rfl
    | cons w rest ih =>
      by_cases hw : w = v
      · subst hw
        rw [List.count_cons_self, List.replicate_succ, ← ih]
        simp [releaseEvent, Event.readings?, Value.looks]
      · rw [List.count_cons_of_ne hw, ← ih]
        simp [releaseEvent, Event.readings?, hw]
  rw [readings, readings, sweep, List.partition_eq_filter_filter]
  simp only [List.reverse_append, List.reverse_reverse, List.filterMap_append, hread,
    Value.count_filter]
  by_cases hh : p.holds H v.id = true <;> simp [hh]

/-- Sweeping does not release what is held, and not again what has been released. -/
theorem quiet_sweep (h : v ∈ p.watchers → p.holds H v.id = true) : p.Quiet v (p.sweep H) := by
  cases hh : p.holds H v.id with
  | true =>
    constructor
    · rw [readings_sweep, hh, if_pos rfl, List.replicate_zero, List.append_nil]
    · rw [count_sweep, hh, if_pos rfl]
  | false =>
    have hzero : p.watchers.count v = 0 :=
      List.count_eq_zero.2 fun hv => Bool.noConfusion (hh.symm.trans (h hv))
    constructor
    · rw [readings_sweep, hh, hzero, ite_self, List.replicate_zero, List.append_nil]
    · rw [count_sweep, hzero, ite_self]

theorem releasedOnce_sweep (h : p.holds H v.id = false) (hone : p.watchers.count v = 1) :
    p.ReleasedOnce v p.slot? (p.sweep H) := by
  constructor
  · rw [readings_sweep, h, hone]
    rfl
  · have hcount := count_sweep H v p
    rw [h] at hcount
    exact List.count_eq_zero.1 hcount

end Process

/-! ### Writing slots -/

variable {H} {k : Key} {v : Value} {content : Option Value} {p q : Process η ν}

theorem Slot.write_eq_put (hp : p.current.storage.isLive = true) (k : Key)
    (content : Option Value) :
    Slot.write H k content p = (.returned (.ok ()), (p.put k content).sweep H) := by
  rw [Slot.write_apply]
  cases hs : p.current.storage with
  | live slots => rfl
  | destroyed => simp [hs, Storage.isLive] at hp

/-- A write to the slot that alone holds a value releases this when the slot is written. -/
theorem Process.HeldOnlyIn.write (h : p.HeldOnlyIn H k v) (hone : p.watchers.count v = 1)
    (hc : content.any (Value.mentions v.id) = false) :
    ∃ q, Slot.write H k content p = (.returned (.ok ()), q) ∧
      p.ReleasedOnce v (Function.update p.slot? k content) q := by
  refine ⟨_, Slot.write_eq_put h.live k content, ?_⟩
  rw [← Process.slot?_put h.live]
  have hreleased := Process.releasedOnce_sweep H (h.not_holds_put hc) hone
  exact hreleased.after_quiet (p.quiet_put v k content)

/-- Were the value let go before the slots are given back, its code would panic at the first slot that
it looks at. -/
theorem Process.HeldOnlyIn.panics_inside (h : p.HeldOnlyIn H k v) (hmem : v ∈ p.watchers)
    (hlooks : v.watches ≠ []) (hc : content.any (Value.mentions v.id) = false) :
    ∃ q, Slot.perform (Slot.lending do Slot.letGo H (← Slot.swap k content)) p =
      (.panicked "already mutably borrowed", q) := by
  obtain ⟨slots, hslots⟩ : ∃ slots, (p.put k content).current.storage = .live slots := by
    have hlive := h.live
    rw [← Process.isLive_put k content] at hlive
    cases hs : (p.put k content).current.storage with
    | live slots => exact ⟨slots, rfl⟩
    | destroyed => simp [hs, Storage.isLive] at hlive
  obtain ⟨q, hq⟩ := Slot.release_of_lent H hslots ⟨v, hmem, h.not_holds_put hc, hlooks⟩
  have hletGo : Slot.letGo H (p.slot? k) true ((p.put k content).hold (p.slot? k).toList) =
      (.panicked "already mutably borrowed", q) := by
    have hgiven : Slot.letGo H (p.slot? k) true ((p.put k content).hold (p.slot? k).toList) =
        Slot.release H true
          (((p.put k content).hold (p.slot? k).toList).unhold (p.slot? k).toList.length) := rfl
    rw [hgiven, Process.unhold_hold, hq]
  exact ⟨q, Action.bind_of_panicked (Action.bind_of_panicked hletGo _) _⟩

/-- So does a write through its accessor. -/
theorem Process.HeldOnlyIn.write_slot (h : p.HeldOnlyIn H k v) (hone : p.watchers.count v = 1)
    (hc : content.any (Value.mentions v.id) = false) (restoring : Option WindowRef) :
    ∃ q, (Accessor.slot k).write H content restoring p = (.returned (.ok ()), q) ∧
      p.ReleasedOnce v (Function.update p.slot? k content) q := by
  rw [Accessor.write_slot]
  obtain ⟨q, hwrite, hreleased⟩ := (h.record _).write hone hc
  exact ⟨q, hwrite, hreleased.after_quiet (p.quiet_record rfl)⟩

/-- The code of `v` is not to run, or the slot `k` alone holds it. -/
def Process.Rests (H : Host η ν) (k : Key) (v : Value) (p : Process η ν) : Prop :=
  v ∈ p.watchers → p.HeldOnlyIn H k v

/-- A write to another slot leaves it at that. -/
theorem Process.Rests.write (h : p.Rests H k v) {j : Key} (hj : j ≠ k)
    (hc : content.any (Value.mentions v.id) = false) :
    (Slot.write H j content p).2.Rests H k v ∧ p.Quiet v (Slot.write H j content p).2 := by
  cases hs : p.current.storage with
  | destroyed =>
    rw [Slot.write_destroyed H hs]
    exact ⟨h, .refl v p⟩
  | live slots =>
    have hlive : p.current.storage.isLive = true := by rw [hs]; rfl
    rw [Slot.write_eq_put hlive]
    have hput : v ∈ p.watchers → (p.put j content).HeldOnlyIn H k v := fun hv => (h hv).put hj hc
    have hquiet : (p.put j content).Quiet v ((p.put j content).sweep H) :=
      Process.quiet_sweep H fun hv => (hput hv).holds
    refine ⟨fun hv => ?_, (p.quiet_put v j content).trans hquiet⟩
    -- what is watched after the sweep was before
    have hput' := hput (List.count_pos_iff.1 (hquiet.count ▸ List.count_pos_iff.2 hv))
    exact ⟨hput'.held, hput'.besides⟩

theorem Process.Rests.record (h : p.Rests H k v) (e : Event ν) : (p.record e).Rests H k v :=
  fun hv => (h hv).record e

/-- An entry of another slot than that of `v`, and one that does not hold `v`. -/
structure Entry.Spares (k : Key) (v : Value) (e : Entry) : Prop where
  slot : e.accessor = .slot e.key
  other : e.key ≠ k
  without : e.mentions v.id = false

theorem Entry.Spares.rests {e : Entry} (he : e.Spares k v) (ref : Option WindowRef)
    (hp : p.Rests H k v) : (e.accessor.write H e.value ref p).2.Rests H k v ∧
      p.Quiet v (e.accessor.write H e.value ref p).2 := by
  rw [he.slot, Accessor.write_slot]
  obtain ⟨hrests, hquiet⟩ := (hp.record _).write he.other he.without
  exact ⟨hrests, (p.quiet_record rfl).trans hquiet⟩

/-- While such entries are written back, the code of `v` rests. -/
theorem WrittenBack.rests {ref : WindowRef} {done : List (Entry × Except Failure Unit)}
    (h : WrittenBack H ref p done q) (hd : ∀ d ∈ done, d.1.Spares k v) (hp : p.Rests H k v) :
    q.Rests H k v ∧ p.Quiet v q := by
  induction h with
  | nil p => exact ⟨hp, .refl v p⟩
  | @ok p p₁ q e done hw _ ih =>
    obtain ⟨hrests, hquiet⟩ := (hd _ List.mem_cons_self).rests (some ref) hp
    rw [hw] at hrests hquiet
    obtain ⟨hrests', hquiet'⟩ := ih (fun d hd' => hd d (List.mem_cons_of_mem _ hd')) hrests
    exact ⟨hrests', hquiet.trans hquiet'⟩
  | @error p p₁ q e done failure hw _ ih =>
    obtain ⟨hrests, hquiet⟩ := (hd _ List.mem_cons_self).rests (some ref) hp
    rw [hw] at hrests hquiet
    obtain ⟨hrests', hquiet'⟩ :=
      ih (fun d hd' => hd d (List.mem_cons_of_mem _ hd')) (hrests.record _)
    exact ⟨hrests', hquiet.trans ((p₁.quiet_record rfl).trans hquiet')⟩

/-! ### Ending windows -/

theorem WrittenBack.split {ref : WindowRef} {a b : List (Entry × Except Failure Unit)}
    (h : WrittenBack H ref p (a ++ b) q) :
    ∃ r, WrittenBack H ref p a r ∧ WrittenBack H ref r b q := by
  induction a generalizing p with
  | nil => exact ⟨p, .nil p, h⟩
  | cons d rest ih =>
    cases h with
    | ok hw h =>
      obtain ⟨r, hrest, hb⟩ := ih h
      exact ⟨r, .ok hw hrest, hb⟩
    | error hw h =>
      obtain ⟨r, hrest, hb⟩ := ih h
      exact ⟨r, .error hw hrest, hb⟩

/-- Among such entries one of the slot that alone holds `v`. Its code finds what was written back
before, and this entry. -/
theorem WrittenBack.releases {ref : WindowRef} {a b : List (Entry × Except Failure Unit)}
    {e : Entry} (h : WrittenBack H ref p (a ++ (e, .ok ()) :: b) q) (ha : ∀ d ∈ a, d.1.Spares k v)
    (hb : ∀ d ∈ b, d.1.Spares k v) (he : e.accessor = .slot k) (hc : e.mentions v.id = false)
    (hp : p.HeldOnlyIn H k v) (hone : p.watchers.count v = 1) :
    ∃ r, WrittenBack H ref p a r ∧ p.ReleasedOnce v (Function.update r.slot? k e.value) q := by
  obtain ⟨r, hbefore, hrest⟩ := h.split
  refine ⟨r, hbefore, ?_⟩
  cases hrest with
  | @ok _ r₁ _ _ _ hw hafter =>
    obtain ⟨hrests, hquiet⟩ := hbefore.rests ha fun _ => hp
    have hr : r.watchers.count v = 1 := hquiet.count.trans hone
    have hheld : r.HeldOnlyIn H k v := hrests (List.count_pos_iff.1 (by omega))
    obtain ⟨_, hwritten, hreleased⟩ := hheld.write_slot hr hc (some ref)
    rw [← he, hw] at hwritten
    obtain rfl := congrArg Prod.snd hwritten
    -- from here on the code of `v` is not to run any more
    obtain ⟨-, hquiet'⟩ := hafter.rests hb fun hmem => absurd hmem hreleased.gone
    exact (hreleased.after_quiet hquiet).then_quiet hquiet'

/-- Keys of which none occurs twice, at one of their entries. -/
theorem Entry.apart_of_nodup {before after : List Entry} {e : Entry}
    (hd : ((before ++ e :: after).map Entry.key).Nodup) :
    (∀ d ∈ before, d.key ∉ (e :: after).map Entry.key) ∧ e.key ∉ after.map Entry.key ∧
      (after.map Entry.key).Nodup := by
  rw [List.map_append, List.nodup_append] at hd
  obtain ⟨-, hrest, hapart⟩ := hd
  refine ⟨fun d hd hmem => ?_, List.nodup_cons.1 hrest⟩
  exact hapart _ (List.mem_map_of_mem hd) _ hmem rfl

/-- Entries of slots of which none occurs twice, all written back. -/
theorem WrittenBack.passed_slots {ref : WindowRef} {l : List Entry}
    (h : WrittenBack H ref p (passed l) q) (hl : ∀ e ∈ l, e.accessor = .slot e.key)
    (hd : (l.map Entry.key).Nodup) :
    (∀ e ∈ l, q.slot? e.key = e.value) ∧ ∀ j, j ∉ l.map Entry.key → q.slot? j = p.slot? j := by
  have hcell : ∀ e ∈ l, e.cell (slotsOnly η) = .slot e.key := by
    intro e he
    rw [Entry.cell, hl e he]
    rfl
  have hcells : l.map (Entry.cell (slotsOnly η)) = (l.map Entry.key).map Cell.slot := by
    rw [List.map_map]
    exact List.map_congr_left hcell
  obtain ⟨-, -, hwritten, helse⟩ := h.passed_cells (V := slotsOnly η)
    (fun e he => by rw [hl e he]; trivial)
    (by rw [hcells]; exact List.Nodup.map (fun _ _ => Cell.slot.inj) hd)
  constructor
  · intro e he
    have hvalue := hwritten e he
    rwa [hcell e he] at hvalue
  · intro j hj
    refine helse (.slot j) ?_
    rw [hcells]
    simpa using hj

namespace Window

/-- A window over slots, opened in the order of their keys. -/
structure OverSlots (win : Window) : Prop where
  slots : ∀ e ∈ win.priors, e.accessor = .slot e.key
  ascending : (win.priors.map Entry.key).Pairwise (· < ·)

/-- A snapshot that was captured of a registry of slots opens such a window. -/
theorem overSlots_of_install {t : Registry} {s : Snapshot} {i : Nat} (ht : t.OfSlots)
    (hs : s.CapturedFrom H t) (h : s.install H p = (.returned (.ok i), q)) :
    ∃ win, q.current.windows[i]? = some win ∧ win.status = .standing ∧ win.OverSlots := by
  have hslots : ∀ e ∈ s.entries, e.accessor = .slot e.key := fun e he =>
    ht e.accessor (hs.accessors.subset (List.mem_map_of_mem he))
  have hi := Snapshot.installed_of_install (V := slotsOnly η)
    (fun e he => by rw [hslots e he]; trivial) h
  refine ⟨_, hi.window, rfl, ?_, ?_⟩
  · exact (Entry.forall_displaced (slotsOnly η) (P := fun a => a = .slot a.key)).2 hslots
  · have hkeys : s.keys =
        (Entry.displaced (slotsOnly η) s.entries (p.contents (slotsOnly η))).map Entry.key := by
      rw [Snapshot.keys_eq_map, ← Entry.accessor_displaced (slotsOnly η) s.entries
        (p.contents (slotsOnly η)), List.map_map]
      rfl
    exact hkeys ▸ hs.keys_sorted

/-- Slots while entries are put back that slots `m` had displaced: the last of the entries, `after`,
are in their slots, and those before them are not yet. -/
structure Halfway (before after : List Entry) (m seen : Slots) : Prop where
  back : ∀ d ∈ after, seen d.key = d.value
  still : ∀ d ∈ before, seen d.key = m d.key
  elsewhere : ∀ j, j ∉ (before ++ after).map Entry.key → seen j = m j

variable {i : Nat} {win : Window} {before after : List Entry} {e : Entry}

/-- One more entry put back. -/
theorem Halfway.next {m n : Slots} (hd : ((before ++ e :: after).map Entry.key).Nodup)
    (hback : ∀ d ∈ after, n d.key = d.value) (helse : ∀ j, j ∉ after.map Entry.key → n j = m j) :
    Halfway before (e :: after) m (Function.update n e.key e.value) := by
  obtain ⟨hbefore, hafter, -⟩ := Entry.apart_of_nodup hd
  constructor
  · intro d hd
    rcases List.mem_cons.1 hd with rfl | hd
    · rw [Function.update_self]
    · have hne : d.key ≠ e.key := fun heq => hafter (heq ▸ List.mem_map_of_mem hd)
      rw [Function.update_of_ne hne, hback d hd]
  · intro d hd
    have hnot := hbefore d hd
    rw [List.map_cons, List.mem_cons, not_or] at hnot
    rw [Function.update_of_ne hnot.1, helse _ hnot.2]
  · intro j hj
    rw [List.map_append, List.map_cons, List.mem_append, List.mem_cons, not_or, not_or] at hj
    rw [Function.update_of_ne hj.2.1, helse j hj.2.2]

/-- Entries besides that of `v` spare it. -/
theorem OverSlots.spares (ho : win.OverSlots) (hv : p.HeldOnlyIn H k v)
    (hw : p.current.windows[i]? = some win) (hs : win.status = .standing)
    (hsplit : win.priors = before ++ e :: after) (hk : e.key = k) :
    ∀ d, d ∈ before ∨ d ∈ after → d.Spares k v := by
  intro d hd
  have hmem : d ∈ win.priors := by
    rw [hsplit]
    rcases hd with hd | hd <;> simp [hd]
  refine ⟨ho.slots d hmem, fun heq => ?_, hv.not_mentions hw hs d hmem⟩
  obtain ⟨hbefore, hafter, -⟩ :=
    Entry.apart_of_nodup (hsplit ▸ Table.nodup_of_ascending ho.ascending)
  rw [← hk] at heq
  rcases hd with hd | hd
  · exact hbefore d hd (heq ▸ List.mem_cons_self)
  · exact hafter (heq ▸ List.mem_map_of_mem hd)

/-- All that a window over slots displaced is written back. -/
theorem OverSlots.writtenBack (ho : win.OverSlots) (hp : p.current.storage.isLive = true)
    (ref : WindowRef) : ∃ q, WrittenBack H ref p (passed win.priors.reverse) q := by
  refine writtenBack_of_unfailing (V := slotsOnly η) ref (fun d hd => ?_) fun d hd => ?_
  · rw [ho.slots d (List.mem_reverse.1 hd)]
    trivial
  · rw [ho.slots d (List.mem_reverse.1 hd), hp]
    exact Accessor.unfailing_slot d.key

/-- Restoring a window over slots releases the value that one of them alone holds when it has its
prior again. -/
theorem restore_releases (hv : p.HeldOnlyIn H k v) (hone : p.watchers.count v = 1)
    (hw : p.current.windows[i]? = some win) (hs : win.status = .standing) (ho : win.OverSlots)
    (hsplit : win.priors = before ++ e :: after) (hk : e.key = k) :
    ∃ q seen, restore H i p = (.returned (.ok ()), q) ∧
      Halfway before (e :: after) p.slot? seen ∧ p.ReleasedOnce v seen q := by
  have hspares := ho.spares hv hw hs hsplit hk
  have he : e ∈ win.priors := by simp [hsplit]
  have hnodup := Table.nodup_of_ascending ho.ascending
  rw [hsplit] at hnodup
  have hmarked := hv.marked_closing hw hs
  obtain ⟨q, hback⟩ := ho.writtenBack hmarked.live ⟨p.here, i⟩
  have hrestore := restore_of_writtenBack hw hs (map_fst_passed _) hback
  rw [firstFailure_passed] at hrestore
  -- the later entries are written back first, then that of `v`, then the earlier ones
  rw [hsplit, List.reverse_append, List.reverse_cons, List.append_assoc, List.singleton_append,
    passed, List.map_append, List.map_cons] at hback
  obtain ⟨r, hlater, honce⟩ := hback.releases (k := k) (v := v)
    (fun d hd => hspares _ (.inr (List.mem_reverse.1 (mem_passed hd).1)))
    (fun d hd => hspares _ (.inl (List.mem_reverse.1 (mem_passed hd).1)))
    (hk ▸ ho.slots e he) (hv.not_mentions hw hs e he) hmarked hone
  obtain ⟨hreturned, helse⟩ := hlater.passed_slots
    (fun d hd => ho.slots d (by simp [hsplit, List.mem_reverse.1 hd]))
    (by rw [List.map_reverse, List.nodup_reverse]; exact (Entry.apart_of_nodup hnodup).2.2)
  refine ⟨_, Function.update r.slot? k e.value, hrestore, ?_, ?_⟩
  · rw [← hk]
    refine Halfway.next hnodup (fun d hd => hreturned d (List.mem_reverse.2 hd)) fun j hj => ?_
    rw [helse j (by simpa using hj), Process.slot?_marked]
  · exact (honce.after_quiet (p.quiet_marked v i .closing)).then_quiet (q.quiet_record rfl)

end Window

variable {i : Nat} {trigger : Trigger} {answer : Option Failure} {last : Process η ν}

/-- Where everything was written back, whatever ended the window marks it as over, and after that
releases what nobody holds any more. -/
theorem Concludes.last_eq (h : Concludes H i trigger p answer last)
    (hr : Window.restore H i p = (.returned (.ok ()), q)) :
    ∃ n, last = ((q.marked i .ended).sweep H).unhold n := by
  have hclose : Window.close H i p = (.returned (.ok ()), (q.marked i .ended).sweep H) := by
    rw [Window.close_apply, hr]
  have hend : ∀ report, Window.endWith H i report p =
      (.returned (), (q.marked i .ended).sweep H) := by
    intro report
    rw [Window.endWith_apply, hr]
  cases h with
  | close i p => exact ⟨0, by rw [hclose]; rfl⟩
  | drop i p => exact ⟨0, by rw [Window.drop, hend]; rfl⟩
  | suspend i site p => exact ⟨0, by rw [Bridge.suspend_apply, hclose]; rfl⟩
  | rollback f =>
    obtain ⟨n, hn⟩ := f.install_eq
    exact ⟨n, by rw [hn, Window.discard, hend]⟩
  | @within _ _ _ exit _ _ _ _ hi hb =>
    cases exit with
    | returned a => exact ⟨0, by rw [Snapshot.within_of_returned hi hb, hclose]; rfl⟩
    | panicked text => exact ⟨0, by rw [Snapshot.within_of_panicked hi hb, hclose]; rfl⟩
  | @poll _ t _ exit _ _ _ r hi hb =>
    have hsuspend : Bridge.suspend H t.advance.site i r =
        (.returned (.ok ()), (q.marked i .ended).sweep H) := by
      rw [Bridge.suspend_apply, hclose]
    refine ⟨0, ?_⟩
    cases exit with
    | returned progress =>
      have hwindow := Task.window_of_returned hi hb
      rw [hsuspend] at hwindow
      simp only [Task.poll, hwindow]
      rfl
    | panicked text =>
      have hwindow := Task.window_of_panicked hi hb
      rw [hsuspend] at hwindow
      simp only [Task.poll, hwindow]
      rfl

namespace Process

/-- Displaced values are released between keys, and never inside of an update. The slot `k` alone holds
a value whose code is to run when it is released. A window over slots that ends, in whatever manner,
is restored without a panic and releases the value once, and its code finds their priors in the slot
and in those of the window's later keys, and in all others what they held when the window's end
began. A write to the slot goes through and releases it once as well, and its code finds the new
content in the slot, and in all others what they hold; had the write let go of the value while the
slots were lent out to it, the code would have panicked at the first slot. Snapshots of slots open
windows over slots. -/
theorem HeldOnlyIn.released_between_keys (hv : p.HeldOnlyIn H k v)
    (hone : p.watchers.count v = 1) :
    (∀ (i : Nat) (trigger : Trigger) (answer : Option Failure) (last : Process η ν) (win : Window)
        (before after : List Entry) (e : Entry),
      Concludes H i trigger p answer last → p.current.windows[i]? = some win →
      win.status = .standing → win.OverSlots → win.priors = before ++ e :: after → e.key = k →
      ∃ q seen, Window.restore H i p = (.returned (.ok ()), q) ∧
        Window.Halfway before (e :: after) p.slot? seen ∧ p.ReleasedOnce v seen last) ∧
    (∀ content : Option Value, content.any (Value.mentions v.id) = false →
      (∃ q, Slot.write H k content p = (.returned (.ok ()), q) ∧
        p.ReleasedOnce v (Function.update p.slot? k content) q) ∧
      (∀ restoring, ∃ q, (Accessor.slot k).write H content restoring p = (.returned (.ok ()), q) ∧
        p.ReleasedOnce v (Function.update p.slot? k content) q) ∧
      (v.watches ≠ [] → ∃ q, Slot.perform (Slot.lending do Slot.letGo H (← Slot.swap k content)) p =
        (.panicked "already mutably borrowed", q))) ∧
    ∀ (t : Registry) (s : Snapshot) (i : Nat) (q r : Process η ν), t.OfSlots → s.CapturedFrom H t →
      s.install H q = (.returned (.ok i), r) →
      ∃ win, r.current.windows[i]? = some win ∧ win.status = .standing ∧ win.OverSlots := by
  refine ⟨fun i trigger answer last win before after e h hw hs ho hsplit hk => ?_,
    fun content hc => ⟨hv.write hone hc, fun restoring => hv.write_slot hone hc restoring, ?_⟩,
    fun t s i q r ht hs h => Window.overSlots_of_install ht hs h⟩
  · obtain ⟨q, seen, hrestore, hhalfway, honce⟩ :=
      Window.restore_releases hv hone hw hs ho hsplit hk
    obtain ⟨n, rfl⟩ := h.last_eq hrestore
    refine ⟨q, seen, hrestore, hhalfway, honce.then_quiet ?_⟩
    -- what has been released is not released again when the window is over
    have hquiet := quiet_sweep H (p := q.marked i .ended) fun hmem => absurd hmem honce.gone
    exact ⟨hquiet.readings, hquiet.count⟩
  · exact fun hlooks => hv.panics_inside (List.count_pos_iff.1 (by omega)) hlooks hc

/-- A value that reads four slots when it is released. -/
def attentive : Value := ⟨.numbered 0, .watcher ["a", "b", "c", "d"]⟩

/-- A process in a window over three slots, in the second of which that value is now. -/
def attended : Process (Table Value) Unit where
  here := "main"
  threads := Table.empty.insert "main"
    { storage := .live (.ofList [("a", ⟨.numbered 1, .unit⟩), ("b", attentive),
        ("c", ⟨.numbered 2, .unit⟩), ("d", ⟨.numbered 3, .unit⟩)])
      windows := [{
        snapshot := ⟨[⟨.slot "a", some ⟨.numbered 1, .unit⟩⟩, ⟨.slot "b", none⟩,
          ⟨.slot "c", some ⟨.numbered 2, .unit⟩⟩]⟩
        priors := [⟨.slot "a", some ⟨.numbered 4, .unit⟩⟩, ⟨.slot "b", none⟩,
          ⟨.slot "c", some ⟨.numbered 5, .unit⟩⟩] }] }
  watchers := [attentive]
  host := .empty

/-- When the window is closed, the value's code finds the first slot with its content and the second
and third with their priors, and when something else is put into the slot, just this. -/
theorem released_between_keys_attended :
    (Window.close bare 0 attended).2.readings attentive = [[("a", some ⟨.numbered 1, .unit⟩),
      ("b", none), ("c", some ⟨.numbered 5, .unit⟩), ("d", some ⟨.numbered 3, .unit⟩)]] ∧
    (Slot.write bare "b" (some ⟨.numbered 6, .unit⟩) attended).2.readings attentive =
      [[("a", some ⟨.numbered 1, .unit⟩), ("b", some ⟨.numbered 6, .unit⟩),
        ("c", some ⟨.numbered 2, .unit⟩), ("d", some ⟨.numbered 3, .unit⟩)]] := by
  have hv : attended.HeldOnlyIn bare "b" attentive := ⟨rfl, rfl⟩
  obtain ⟨hends, hwrites, -⟩ := hv.released_between_keys (by decide)
  obtain ⟨⟨q, hq, hwritten⟩, -⟩ := hwrites (some ⟨.numbered 6, .unit⟩) rfl
  obtain ⟨-, seen, -, hseen, hclosed⟩ := hends 0 .close _ _ _ [⟨.slot "a", some ⟨.numbered 4, .unit⟩⟩]
    [⟨.slot "c", some ⟨.numbered 5, .unit⟩⟩] ⟨.slot "b", none⟩ (.close 0 attended) rfl rfl
    ⟨by decide, by decide⟩ rfl rfl
  constructor
  · rw [hclosed.once]
    have ha : seen "a" = some ⟨.numbered 1, .unit⟩ :=
      hseen.still ⟨.slot "a", some ⟨.numbered 4, .unit⟩⟩ List.mem_cons_self
    have hb : seen "b" = none := hseen.back ⟨.slot "b", none⟩ List.mem_cons_self
    have hc : seen "c" = some ⟨.numbered 5, .unit⟩ :=
      hseen.back ⟨.slot "c", some ⟨.numbered 5, .unit⟩⟩ (by simp)
    have hd : seen "d" = some ⟨.numbered 3, .unit⟩ := hseen.elsewhere "d" (by decide)
    change [] ++ [[("a", seen "a"), ("b", seen "b"), ("c", seen "c"), ("d", seen "d")]] = _
    rw [ha, hb, hc, hd]
    rfl
  · rw [hq, hwritten.once]
    rfl

end Process

end Ambient
