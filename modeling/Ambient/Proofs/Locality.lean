import Ambient.Proofs.Nesting

/-! What slots leave alone. A thread that reads its slots changes nothing but the history, and one
that writes them changes nothing but what is its own: other threads keep their slots and windows,
and the registries keep their accessors. Proved: this of capturing from a registry of slots, whose
snapshot is written down besides, and of opening and ending windows over slots. Functions of custom
accessors may do anything, and are left out. -/

namespace Ambient

variable {η ν : Type} {H : Host η ν}

namespace Process

variable {p q r : Process η ν}

/-! ### States that differ little -/

/-- The same thread runs in `q` as in `p`, and threads and registries are as they were. -/
structure Still (p q : Process η ν) : Prop where
  here : q.here = p.here
  threads : q.threads = p.threads
  registries : q.registries = p.registries

theorem Still.refl (p : Process η ν) : p.Still p := ⟨rfl, rfl, rfl⟩

theorem Still.trans (h : p.Still q) (k : q.Still r) : p.Still r :=
  ⟨k.here.trans h.here, k.threads.trans h.threads, k.registries.trans h.registries⟩

theorem still_record (p : Process η ν) (e : Event ν) : p.Still (p.record e) := ⟨rfl, rfl, rfl⟩

theorem still_sweep (p : Process η ν) : p.Still (p.sweep H) := ⟨rfl, rfl, rfl⟩

theorem still_hold (p : Process η ν) (values : List Value) : p.Still (p.hold values) :=
  ⟨rfl, rfl, rfl⟩

theorem still_unhold (p : Process η ν) (n : Nat) : p.Still (p.unhold n) := ⟨rfl, rfl, rfl⟩

theorem Still.frame (h : p.Still q) : p.Frame q := frame_of_eq h.here h.threads

theorem Still.current (h : p.Still q) : q.current = p.current := by
  rw [Process.current, Process.current, thread, thread, h.here, h.threads]

theorem Still.slot? (h : p.Still q) : q.slot? = p.slot? := by
  funext k
  rw [Process.slot?, Process.slot?, h.current]

/-- The same thread runs in `q` as in `p`, and other threads and the registries are as they
were. -/
structure Local (p q : Process η ν) : Prop where
  here : q.here = p.here
  others : ∀ n, n ≠ p.here → q.thread n = p.thread n
  registries : q.registries = p.registries

theorem Local.trans (h : p.Local q) (k : q.Local r) : p.Local r :=
  ⟨k.here.trans h.here, fun n hn => (k.others n (h.here ▸ hn)).trans (h.others n hn),
    k.registries.trans h.registries⟩

theorem Still.local (h : p.Still q) : p.Local q :=
  ⟨h.here, fun n _ => by rw [thread, thread, h.threads], h.registries⟩

theorem local_modifyCurrent (p : Process η ν) (f : Thread → Thread) :
    p.Local (p.modifyCurrent f) :=
  ⟨rfl, fun n hn => by rw [thread_modifyCurrent, if_neg hn], rfl⟩

end Process

open Process (Still Local)

/-! ### Slots -/

theorem Slot.write_local (k : Key) (content : Option Value) (p : Process η ν) :
    p.Local (Slot.write H k content p).2 := by
  cases hs : p.current.storage with
  | destroyed =>
    rw [Slot.write_destroyed H hs]
    exact (Still.refl p).local
  | live slots =>
    rw [Slot.write_live H hs]
    exact (p.local_modifyCurrent _).trans (Process.still_sweep _).local

/-- Reading a slot through its accessor. -/
theorem Accessor.read_still (k : Key) (p : Process η ν) :
    ∃ q, (slot k).read H p = (.returned (p.slot? k), q) ∧ p.Still q :=
  ⟨_, read_slot H k p, p.still_record _⟩

theorem Accessor.write_local {a : Accessor} (ha : a = .slot a.key) (content : Option Value)
    (restoring : Option WindowRef) (p : Process η ν) :
    p.Local (a.write H content restoring p).2 := by
  rw [ha, write_slot]
  exact (p.still_record _).local.trans (Slot.write_local _ _ _)

/-! ### Captures of slots -/

/-- All accessors of the registry are those of slots. -/
def Registry.OfSlots (t : Registry) : Prop := ∀ a ∈ t.accessors, a = .slot a.key

instance (t : Registry) : Decidable t.OfSlots :=
  inferInstanceAs (Decidable (∀ a ∈ t.accessors, a = .slot a.key))

/-- The snapshot that a thread with these slots gives of a registry of slots. -/
def Registry.picture (t : Registry) (m : Slots) : Snapshot :=
  ⟨t.keys.map fun k => ⟨.slot k, m k⟩⟩

namespace Snapshot

@[simp] theorem keys_picture (t : Registry) (m : Slots) : (t.picture m).keys = t.keys := by
  rw [Registry.picture, keys, List.map_map]
  exact List.map_id t.keys

/-- Entries for the slots of a list of keys. -/
theorem lookUp_slots (l : List Key) (m : Slots) (k : Key) :
    Entry.lookUp k (l.map fun j => ⟨.slot j, m j⟩) = if k ∈ l then some (m k) else none := by
  induction l with
  | nil => rfl
  | cons j rest ih =>
    rw [List.map_cons, Entry.lookUp, ih]
    change (if j = k then some (m j) else _) = _
    by_cases hj : j = k
    · subst hj
      simp
    · simp [hj, Ne.symm hj]

theorem get?_picture (t : Registry) (m : Slots) (k : Key) :
    (t.picture m).get? k = if k ∈ t.keys then some (m k) else none :=
  lookUp_slots t.keys m k

/-- A picture is a snapshot of slots. -/
theorem exists_picture (t : Registry) (m : Slots) :
    ∃ c : SlotSnapshot, c.toSnapshot = t.picture m := by
  refine ⟨⟨t.picture m, fun e he => ?_, ?_⟩, rfl⟩
  · obtain ⟨k, -, rfl⟩ := List.mem_map.1 he
    rfl
  · rw [keys_picture]
    exact Table.nodup_of_ascending t.keys_sorted

/-- A snapshot is put over no slots but those of its keys. -/
theorem overlay_of_not_mem {s : SlotSnapshot} {k : Key} (hk : k ∉ s.keys) (m : Slots) :
    s.overlay m k = m k := by
  have hnone : s.get? k = none := Option.not_isSome_iff_eq_none.1 (mt contains_iff.1 hk)
  rw [SlotSnapshot.overlay, hnone, Option.getD_none]

/-- Slots are read one after another, and nothing comes of it. -/
theorem readAll_of_slots {l : List Accessor} (hl : ∀ a ∈ l, a = .slot a.key) (p : Process η ν) :
    ∃ q, readAll H l p = (.returned (l.map fun a => ⟨.slot a.key, p.slot? a.key⟩), q) ∧
      p.Still q := by
  induction l generalizing p with
  | nil => exact ⟨p, rfl, .refl p⟩
  | cons a rest ih =>
    obtain ⟨p₁, hread, hstill⟩ := Accessor.read_still (H := H) a.key p
    obtain ⟨q, hrest, hq⟩ := ih (fun b hb => hl b (List.mem_cons_of_mem _ hb))
      (p₁.hold (p.slot? a.key).toList)
    have hheld : p.Still (p₁.hold (p.slot? a.key).toList) := hstill.trans (p₁.still_hold _)
    rw [hheld.slot?] at hrest
    refine ⟨q.unhold (p.slot? a.key).toList.length, ?_, (hheld.trans hq).trans (q.still_unhold _)⟩
    rw [← hl a List.mem_cons_self] at hread
    rw [readAll, Action.bind_of_returned hread, Action.bind_apply, Action.holding_apply, hrest,
      List.map_cons, ← hl a List.mem_cons_self]
    rfl

/-- A capture of what the running thread has, of a registry of slots. -/
theorem capture_of_slots {r : RegistryId} {carrier : Option Carrier} {settings : Settings}
    {p : Process η ν} (hslots : (p.registry r).OfSlots)
    (h : ∀ c, ¬ settings.GoesBy carrier c) :
    ∃ q, capture H r carrier settings p = (.returned ((p.registry r).picture p.slot?), q) ∧
      p.Still q := by
  have hnone := Settings.carrierInPlay_eq_none_iff.2 h
  obtain ⟨q, hread, hstill⟩ := readAll_of_slots (H := H) hslots p
  have hentries : (p.registry r).accessors.map (fun a => (⟨.slot a.key, p.slot? a.key⟩ : Entry)) =
      (p.registry r).keys.map fun k => ⟨.slot k, p.slot? k⟩ := by
    rw [← Registry.keys_accessors, List.map_map]
    rfl
  rw [hentries] at hread
  set s := (p.registry r).picture p.slot?
  refine ⟨q.record (.logged (.captured false s.size)), ?_, hstill.trans (q.still_record _)⟩
  rw [capture, Action.bind_of_returned (Registry.look_apply r p), hnone]
  exact Action.bind_of_returned hread _

/-! ### Windows over slots -/

theorem placed_local {p q : Process η ν} {l priors : List Entry} (h : Placed H p l priors q)
    (hl : ∀ e ∈ l, e.accessor = .slot e.key) : p.Local q := by
  induction h with
  | nil p => exact (Still.refl p).local
  | @cons p p₁ p₂ q e rest prior priors hr hw _ ih =>
    have he := hl e List.mem_cons_self
    obtain ⟨q₁, hread, hstill⟩ := Accessor.read_still (H := H) e.key p
    rw [he, hread] at hr
    obtain ⟨rfl, rfl⟩ : p.slot? e.key = prior ∧ q₁ = p₁ := by simpa using hr
    have hwrite := Accessor.write_local (H := H) he e.value none
      (q₁.hold (p.slot? e.key).toList)
    rw [hw] at hwrite
    have hheld := (hstill.trans (q₁.still_hold (p.slot? e.key).toList)).local
    exact (hheld.trans hwrite).trans (ih fun d hd => hl d (List.mem_cons_of_mem _ hd))

/-- Opening a window over slots. -/
theorem install_local {s : Snapshot} {i : Nat} {p q : Process η ν}
    (hs : ∀ e ∈ s.entries, e.accessor = .slot e.key) (h : s.install H p = (.returned (.ok i), q)) :
    p.Local q := by
  obtain ⟨priors, r, n, hplaced, -, rfl⟩ := placed_of_install h
  set r' := r.record (.logged (.installed priors.length))
  have hr' : p.Local r' := ((p.still_hold s.values).local.trans (placed_local hplaced hs)).trans
    (r.still_record _).local
  exact (hr'.trans (r'.local_modifyCurrent _)).trans (Process.still_unhold _ n).local

end Snapshot

theorem WrittenBack.local {ref : WindowRef} {p q : Process η ν}
    {done : List (Entry × Except Failure Unit)} (h : WrittenBack H ref p done q)
    (hd : ∀ d ∈ done, d.1.accessor = .slot d.1.key) : p.Local q := by
  induction h with
  | nil p => exact (Still.refl p).local
  | @ok p p₁ q e rest hw _ ih =>
    have hwrite := Accessor.write_local (H := H) (hd _ List.mem_cons_self) e.value (some ref) p
    rw [hw] at hwrite
    exact hwrite.trans (ih fun d hd' => hd d (List.mem_cons_of_mem _ hd'))
  | @error p p₁ q e rest failure hw _ ih =>
    have hwrite := Accessor.write_local (H := H) (hd _ List.mem_cons_self) e.value (some ref) p
    rw [hw] at hwrite
    have hrest := ih fun d hd' => hd d (List.mem_cons_of_mem _ hd')
    exact (hwrite.trans (p₁.still_record _).local).trans hrest

/-- Restoring a window that stands over slots. -/
theorem Window.restore_local {i : Nat} {win : Window} {p q : Process η ν}
    {answer : Except Failure Unit} (hw : p.current.windows[i]? = some win)
    (hs : win.status = .standing) (hl : ∀ e ∈ win.priors, e.accessor = .slot e.key)
    (h : restore H i p = (.returned answer, q)) : p.Local q := by
  obtain ⟨done, r, hd, hback, rfl⟩ := writtenBack_of_restore hw hs h
  have hdone : ∀ d ∈ done, d.1.accessor = .slot d.1.key := fun d hd' => by
    refine hl d.1 (List.mem_reverse.1 ?_)
    rw [← hd]
    exact List.mem_map_of_mem hd'
  exact ((p.local_modifyCurrent _).trans (hback.local hdone)).trans (r.still_record _).local

end Ambient
