import Mathlib.Data.List.Sort
import Ambient.Proofs.Endings
import Ambient.Proofs.Locality

/-! What a window displaces, as a capture. Just before a snapshot of slots is installed, the running
thread is captured of the registry that the snapshot was captured of. Installing reads the priors
one by one between its own writes, and the capture reads everything first; they come to the same.
Proved: the priors are that capture as far as the snapshot's keys go, and to end the window, at any
later time and in any manner, is to write them. Accessors other than slots are left out. -/

namespace Ambient

variable {η ν : Type} {H : Host η ν}

/-! ### Writing entries into slots -/

/-- What slots hold after the entries were written into those of their keys, first to last. -/
def Entry.writeSlots (l : List Entry) (m : Slots) : Slots :=
  l.foldl (fun n e => Function.update n e.key e.value) m

@[simp] theorem Entry.writeSlots_cons (e : Entry) (l : List Entry) (m : Slots) :
    writeSlots (e :: l) m = writeSlots l (Function.update m e.key e.value) := rfl

/-- Where no key occurs twice, each key has what its entry holds. -/
theorem Entry.writeSlots_apply {l : List Entry} (hd : (l.map Entry.key).Nodup) (m : Slots)
    (k : Key) : Entry.writeSlots l m k = (Entry.lookUp k l).getD (m k) := by
  induction l generalizing m with
  | nil => rfl
  | cons e rest ih =>
    obtain ⟨hnot, hrest⟩ := List.nodup_cons.1 (List.map_cons ▸ hd)
    rw [writeSlots_cons, ih hrest, lookUp]
    by_cases hk : e.key = k
    · subst hk
      have hnone : lookUp e.key rest = none := by
        rw [← Option.not_isSome_iff_eq_none, lookUp_isSome_iff]
        exact hnot
      rw [hnone, if_pos rfl, Option.getD_none, Function.update_self, Option.getD_some]
    · rw [if_neg hk, Function.update_of_ne (Ne.symm hk)]

/-- Entries of slots displace what the slots held before any of them was written. -/
theorem Entry.displaced_slots {l : List Entry} (hl : ∀ e ∈ l, e.accessor = .slot e.key)
    (hd : (l.map Entry.key).Nodup) (m : Contents Empty) :
    Entry.displaced (slotsOnly η) l m =
      (l.map Entry.key).map fun k => ⟨.slot k, m (.slot k)⟩ := by
  induction l generalizing m with
  | nil => rfl
  | cons e rest ih =>
    have he := hl e List.mem_cons_self
    have hcell : e.cell (slotsOnly η) = .slot e.key := by
      rw [Entry.cell, he]
      rfl
    obtain ⟨hnot, hrest⟩ := List.nodup_cons.1 (List.map_cons ▸ hd)
    rw [displaced, ih (fun d hd => hl d (List.mem_cons_of_mem _ hd)) hrest, hcell, he,
      List.map_cons, List.map_cons]
    refine congrArg _ (List.map_congr_left fun k hk => ?_)
    have hne : Cell.slot k ≠ (Cell.slot e.key : Cell Empty) := fun heq =>
      hnot (Cell.slot.inj heq ▸ hk)
    rw [Function.update_of_ne hne]

/-! ### Ending a window -/

/-- In whatever manner the window `i` ends, from `r` on: nothing fails, and the slots of the running
thread are `m` then. -/
structure EndsIn (H : Host η ν) (i : Nat) (r : Process η ν) (m : Slots) : Prop where
  closed : ∃ r', Window.close H i r = (.returned (.ok ()), r') ∧ r'.here = r.here ∧ r'.slot? = m
  dropped : ∃ r', Window.drop H i r = (.returned (), r') ∧ r'.here = r.here ∧ r'.slot? = m
  suspended : ∀ site, ∃ r', Bridge.suspend H site i r = (.returned (.ok ()), r') ∧
    r'.here = r.here ∧ r'.slot? = m

/-- A window that stands gives its own keys back, in whatever manner it ends. -/
theorem Opening.Stands.endsIn {o : Opening} {r : Process η ν} (h : o.Stands r) :
    EndsIn H o.index r (o.snapshot.back o.before r.slot?) := by
  have hclosed : ∀ p, o.Stands p → ∃ p', Window.close H o.index p = (.returned (.ok ()), p') ∧
      p'.here = p.here ∧ p'.slot? = o.snapshot.back o.before p.slot? := by
    intro p hp
    obtain ⟨q, hrestore, hf, hslots⟩ := hp.restored (H := H)
    refine ⟨(q.marked o.index .ended).sweep H, ?_, hf.here, hslots⟩
    rw [Window.close_apply, hrestore]
  refine ⟨hclosed r h, ?_, fun site => ?_⟩
  · obtain ⟨r', hrun, hhere, hslots, -⟩ := h.ended (H := H) .dropped
    exact ⟨r', hrun, hhere, hslots⟩
  · exact hclosed _ (h.of_frame (r.frame_record (.logged (.suspending site))))

/-! ### The priors -/

namespace Snapshot

variable {t : Registry} {s : Snapshot} {p : Process η ν}

/-- What is to be said of the window `i`, which installing `s` opened, with `c` captured of the
table `t` just before: `p` is the process before both, and `q` the one after. -/
structure Displaced (H : Host η ν) (t : Registry) (s c : Snapshot) (i : Nat) (p q : Process η ν) :
    Prop where
  /-- The window remembers the capture as far as the snapshot's keys go, in their order. -/
  window : q.current.windows[i]? =
    some { snapshot := s, priors := c.entries.filter fun e => s.contains e.key }
  keys : (c.entries.filter fun e => s.contains e.key).map Entry.key = s.keys
  ascending : s.keys.Pairwise (· < ·)
  outside : ∀ k, q.prior? i k = none ↔ k ∉ s.keys
  inside : ∀ k ∈ s.keys, q.prior? i k = c.get? k
  installed : ∀ k content, s.get? k = some content → q.slot? k = content
  elsewhere : ∀ k, k ∉ s.keys → q.slot? k = p.slot? k
  /-- Whatever slots hold by then, to end the window is to write its part of the capture. -/
  ended : ∀ r, q.Spares i r →
    EndsIn H i r (Entry.writeSlots (c.entries.filter fun e => s.contains e.key) r.slot?)
  /-- Where all keys of the table were captured, to install the capture does the same. -/
  reinstalled : (∀ k ∈ t.keys, k ∈ s.keys) → ∀ r, q.Spares i r → ∃ j r',
    c.install H r = (.returned (.ok j), r') ∧ r'.here = r.here ∧ EndsIn H i r r'.slot?

/-- The part of a picture that concerns the keys of a snapshot of its registry. -/
theorem filter_picture (hs : (s.entries.map Entry.accessor).Sublist t.accessors) (m : Slots) :
    ((t.picture m).entries.filter fun e => s.contains e.key) =
      s.keys.map fun k => ⟨.slot k, m k⟩ := by
  have hsub : s.keys.Sublist t.keys := by
    rw [keys_eq_map, ← Registry.keys_accessors]
    exact hs.map Accessor.key
  have hkeys : t.keys.filter s.contains = s.keys := by
    refine (t.keys_sorted.filter _).eq_of_mem_iff (keyed_of_sublist hs).1 fun k => ?_
    rw [List.mem_filter, contains_iff]
    exact and_iff_right_of_imp (hsub.subset ·)
  rw [Registry.picture, List.filter_map, ← hkeys]
  rfl

/-- To write the part of a picture that concerns the snapshot's keys is to give these back. -/
theorem writeSlots_filter_picture {captured : SlotSnapshot}
    (hs : (captured.entries.map Entry.accessor).Sublist t.accessors) (m n : Slots) :
    Entry.writeSlots ((t.picture m).entries.filter fun e => captured.contains e.key) n =
      captured.back m n := by
  rw [filter_picture hs]
  funext k
  have hd : ((captured.keys.map fun k => (⟨.slot k, m k⟩ : Entry)).map Entry.key).Nodup := by
    rw [List.map_map]
    exact (List.map_id captured.keys).symm ▸ captured.nodup
  rw [Entry.writeSlots_apply hd, lookUp_slots, SlotSnapshot.back]
  by_cases hk : k ∈ captured.keys
  · rw [if_pos hk, if_pos (contains_iff.2 hk), Option.getD_some]
  · rw [if_neg hk, if_neg (mt contains_iff.1 hk), Option.getD_none]

/-- A window over all keys of a registry gives back what installing a picture puts there. -/
theorem overlay_picture {captured c : SlotSnapshot} {m : Slots} (hc : c.toSnapshot = t.picture m)
    (hall : ∀ k, k ∈ captured.keys ↔ k ∈ t.keys) (n : Slots) :
    c.overlay n = captured.back m n := by
  funext k
  rw [SlotSnapshot.overlay, hc, get?_picture, SlotSnapshot.back,
    if_congr (contains_iff.trans (hall k)) rfl rfl]
  by_cases hk : k ∈ t.keys
  · rw [if_pos hk, if_pos hk, Option.getD_some]
  · rw [if_neg hk, if_neg hk, Option.getD_none]

/-- A window that a snapshot of a registry of slots opened on a thread whose slots were those of
`p`, against the picture of these. -/
theorem displaced_of_installed {captured : SlotSnapshot} {i : Nat} {p₁ q : Process η ν}
    (hs : (captured.entries.map Entry.accessor).Sublist t.accessors) (hsame : p₁.slot? = p.slot?)
    (hlive : p₁.current.storage.isLive = true) (hi : captured.Installed (slotsOnly η) p₁ i q) :
    captured.Displaced H t (t.picture p.slot?) i p q := by
  obtain ⟨c, hc⟩ := exists_picture t p.slot?
  obtain ⟨hsorted, hkeyed⟩ := keyed_of_sublist hs
  have hregistered : ∀ k ∈ captured.keys, k ∈ t.keys := by
    rw [keys_eq_map, ← Registry.keys_accessors]
    exact (hs.map Accessor.key).subset
  -- what installing displaces, read one by one, is the picture's part
  have hpriors : Entry.displaced (slotsOnly η) captured.entries (p₁.contents (slotsOnly η)) =
      (t.picture p.slot?).entries.filter fun e => captured.contains e.key := by
    rw [filter_picture hs, Entry.displaced_slots captured.slots captured.nodup, ← hsame]
    rfl
  have hstands : (⟨captured, i, p.slot?⟩ : Opening).Stands q :=
    hsame ▸ Opening.stands_of_installed hi fun _ _ => hlive
  have hlaid : q.slot? = captured.overlay p.slot? := hsame ▸ SlotSnapshot.slot?_of_installed hi
  exact {
    window := hpriors ▸ hi.window
    keys := by
      rw [filter_picture hs, List.map_map]
      exact List.map_id captured.keys
    ascending := hsorted
    outside := fun k => by
      rw [hstands.prior?, ← contains_iff]
      cases captured.contains k <;> simp
    inside := fun k hk => by
      rw [hstands.prior?, if_pos (contains_iff.2 hk), get?_picture, if_pos (hregistered k hk)]
    installed := fun k content hk => by rw [hlaid, SlotSnapshot.overlay, hk, Option.getD_some]
    elsewhere := fun k hk => by rw [hlaid, overlay_of_not_mem hk]
    ended := fun r hr => by
      rw [writeSlots_filter_picture hs]
      exact (hstands.of_spares hr).endsIn
    reinstalled := fun hall r hr => by
      have hr₁ : r.current.storage.isLive = true := hr.live.trans (hi.frame.live.trans hlive)
      obtain ⟨j, r', hagain, hframe, hover, -⟩ := c.install_apply (H := H) hr₁
      refine ⟨j, r', hc ▸ hagain, hframe.here, ?_⟩
      rw [hover, overlay_picture hc fun k => ⟨hregistered k, hall k⟩]
      exact (hstands.of_spares hr).endsIn }

variable {r : RegistryId} {carrier : Option Carrier} {settings : Settings}

/-- Priors are a capture. Of a registry of slots some snapshot was captured at some time; on a
thread that has slots, the registry being as it was then, the slots are captured and the snapshot
is installed. Then the window remembers the capture as far as the snapshot's keys go, and to end it
is to write just that. -/
theorem priors_eq_capture (hslots : (p.registry r).OfSlots) (hs : s.CapturedFrom H (p.registry r))
    (hp : p.current.storage.isLive = true) (h : ∀ d, ¬ settings.GoesBy carrier d) :
    ∃ c p₁ i q, capture H r carrier settings p = (.returned c, p₁) ∧
      s.install H p₁ = (.returned (.ok i), q) ∧ s.Displaced H (p.registry r) c i p q := by
  obtain ⟨p₁, hcapture, hstill⟩ := capture_of_slots (H := H) hslots h
  have hp₁ : p₁.current.storage.isLive = true := by rw [hstill.current, hp]
  obtain ⟨captured, rfl⟩ : ∃ captured : SlotSnapshot, captured.toSnapshot = s := by
    obtain ⟨r', carrier', settings', p', q', ht, hs⟩ := hs
    exact SlotSnapshot.of_capture (ht ▸ hslots) hs
  obtain ⟨i, q, hinstall, hinstalled⟩ :=
    Snapshot.install_of_unfailing (H := H) captured.isCell (captured.unfailing hp₁)
  exact ⟨_, p₁, i, q, hcapture, hinstall,
    displaced_of_installed hs.accessors hstill.slot? hp₁ hinstalled⟩

/-- A process with a registry of two slots, both of which hold something on the running thread. -/
def furnished : Process (Table Value) Unit where
  here := "main"
  threads := Table.empty.insert "main"
    { storage := .live (.ofList [("a", ⟨.numbered 1, .unit⟩), ("b", ⟨.numbered 2, .unit⟩)]) }
  registries := [(Registry.empty.register (.slot "a")).register (.slot "b")]
  host := .empty

/-- A snapshot of one of them, from a carrier, displaces what this one holds and nothing else. -/
theorem priors_eq_capture_furnished :
    ∃ c p₁ i q, capture bare processWide none {} furnished = (.returned c, p₁) ∧
      (⟨[⟨.slot "b", some ⟨.numbered 3, .unit⟩⟩]⟩ : Snapshot).install bare p₁ =
        (.returned (.ok i), q) ∧
      q.prior? i "a" = none ∧ q.prior? i "b" = some (some ⟨.numbered 2, .unit⟩) ∧
      q.slot? "a" = some ⟨.numbered 1, .unit⟩ ∧ q.slot? "b" = some ⟨.numbered 3, .unit⟩ := by
  have hslots : (furnished.registry processWide).OfSlots := by decide
  have hrun : capture bare processWide (some (.single "b" ⟨.numbered 3, .unit⟩)) {} furnished =
    (.returned ⟨[⟨.slot "b", some ⟨.numbered 3, .unit⟩⟩]⟩, _) := rfl
  have hs : CapturedFrom bare (furnished.registry processWide) _ :=
    ⟨processWide, _, {}, furnished, _, rfl, hrun⟩
  obtain ⟨c, p₁, i, q, hcapture, hinstall, hdisplaced⟩ :=
    priors_eq_capture hslots hs rfl (Settings.not_goesBy_none {})
  have hc : c.get? "b" = some (some ⟨.numbered 2, .unit⟩) := by
    have hknown : capture bare processWide none {} furnished =
      (.returned ⟨[⟨.slot "a", some ⟨.numbered 1, .unit⟩⟩,
        ⟨.slot "b", some ⟨.numbered 2, .unit⟩⟩]⟩, _) := rfl
    have hentries := congrArg Prod.fst (hknown.symm.trans hcapture)
    rw [← Exit.returned.inj hentries]
    rfl
  exact ⟨c, p₁, i, q, hcapture, hinstall, (hdisplaced.outside "a").2 (by decide),
    (hdisplaced.inside "b" (by decide)).trans hc, hdisplaced.elsewhere "a" (by decide),
    hdisplaced.installed "b" _ rfl⟩

end Snapshot

end Ambient
