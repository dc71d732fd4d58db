import Mathlib.Data.List.Sort
import Mathlib.Data.List.Nodup
import Ambient.Proofs.Capturing

/-! Snapshots as carriers, and back. A carrier made of a snapshot keeps the values and drops the
absences; a capture that goes by it finds the values again and has the absences from the registry,
if it is to. Where no value is there the carrier is empty, and a capture goes by the thread instead.
Proved: what comes back is what was given, in either direction, whatever the accessors are and
wherever the snapshot was taken. What installing does with it is left to other modules. -/

namespace Ambient

/-! ### Tables of ascending lists -/

namespace Table

variable {α : Type}

theorem get?_insertAll (t : Table α) {l : List (Key × α)} (h : l.Pairwise fun a b => a.1 < b.1)
    (k : Key) : (t.insertAll l).get? k = (find k l).or (t.get? k) := by
  induction l generalizing t with
  | nil => rfl
  | cons b rest ih =>
    obtain ⟨j, x⟩ := b
    obtain ⟨hlt, hrest⟩ := List.pairwise_cons.1 h
    rw [insertAll_cons, ih _ hrest, get?_insert, find]
    by_cases hj : j = k
    · subst hj
      rw [find_eq_none_of_lt hlt, if_pos rfl, if_pos rfl]
      rfl
    · rw [if_neg hj, if_neg hj]

/-- A list that ascends is the list of the bindings of its table. -/
theorem bindings_ofList {l : List (Key × α)} (h : l.Pairwise fun a b => a.1 < b.1) :
    (ofList l).bindings = l := by
  refine bindings_eq (ofList l).sorted h fun k => ?_
  have hget := get?_insertAll empty h k
  rw [get?_empty, Option.or_none] at hget
  exact hget

end Table

variable {η ν : Type} {H : Host η ν}

namespace Snapshot

/-! ### The carrier of a snapshot -/

variable {s : Snapshot} {k : Key}

/-- The keys of a snapshot in their order, each with the value captured for it or with none. -/
def listing (s : Snapshot) : List (Key × Option Value) := s.entries.map fun e => (e.key, e.value)

theorem bindings_toCarrier (h : s.keys.Pairwise (· < ·)) : s.toCarrier.bindings =
    s.entries.filterMap fun e => e.value.map fun v => (e.key, v) := by
  refine Table.bindings_ofList (List.pairwise_filterMap.2 ?_)
  refine (List.pairwise_map.1 h).imp fun {e f} hlt b hb c hc => ?_
  obtain ⟨v, -, rfl⟩ := Option.map_eq_some_iff.1 hb
  obtain ⟨w, -, rfl⟩ := Option.map_eq_some_iff.1 hc
  exact hlt

theorem get?_toCarrier_eq_some_iff (h : s.keys.Pairwise (· < ·)) {v : Value} :
    s.toCarrier.get? k = some v ↔ ∃ e ∈ s.entries, e.key = k ∧ e.value = some v := by
  rw [Table.get?_eq_some_iff, bindings_toCarrier h, List.mem_filterMap]
  constructor
  · rintro ⟨e, he, hv⟩
    obtain ⟨w, hw, heq⟩ := Option.map_eq_some_iff.1 hv
    obtain ⟨rfl, rfl⟩ := Prod.mk.inj heq
    exact ⟨e, he, rfl, hw⟩
  · rintro ⟨e, he, rfl, hv⟩
    exact ⟨e, he, by rw [hv]; rfl⟩

/-- The carrier has for a captured key what was captured for it. -/
theorem get?_toCarrier (h : s.keys.Pairwise (· < ·)) {e : Entry} (he : e ∈ s.entries) :
    s.toCarrier.get? e.key = e.value := by
  ext v
  rw [get?_toCarrier_eq_some_iff h]
  constructor
  · rintro ⟨f, hf, hk, hv⟩
    rwa [← List.inj_on_of_nodup_map (Table.nodup_of_ascending h) hf he hk]
  · intro hv
    exact ⟨e, he, rfl, hv⟩

theorem get?_toCarrier_of_not_mem (h : s.keys.Pairwise (· < ·)) (hk : k ∉ s.keys) :
    s.toCarrier.get? k = none := by
  refine Option.eq_none_iff_forall_ne_some.2 fun v hv => hk ?_
  obtain ⟨e, he, rfl, -⟩ := (get?_toCarrier_eq_some_iff h).1 hv
  exact List.mem_map_of_mem he

/-- The carrier is empty just if no value was captured. -/
theorem isEmpty_toCarrier_iff (h : s.keys.Pairwise (· < ·)) :
    s.toCarrier.isEmpty = true ↔ s.values = [] := by
  rw [Table.isEmpty, bindings_toCarrier h, List.isEmpty_iff, values, List.filterMap_eq_nil_iff,
    List.filterMap_eq_nil_iff]
  simp only [Option.map_eq_none_iff]

/-- Entries that hold what a carrier says list what it says for their keys. -/
theorem listing_eq_map {c : Carrier} (h : ∀ e ∈ s.entries, e.value = c.get? e.key) :
    s.listing = s.keys.map fun k => (k, c.get? k) := by
  rw [listing, keys, List.map_map]
  exact List.map_congr_left fun e he => by rw [h e he]; rfl

/-! ### From the snapshot and back -/

variable {r : RegistryId} {p : Process η ν} {t : Registry} {c : Carrier} {clear : Bool}

/-- Captures that go by no carrier are alike. -/
theorem capture_congr {carrier carrier' : Option Carrier} {settings settings' : Settings}
    (h : ∀ c, ¬ settings.GoesBy carrier c) (h' : ∀ c, ¬ settings'.GoesBy carrier' c) :
    capture H r carrier settings p = capture H r carrier' settings' p := by
  rw [capture, capture, Settings.carrierInPlay_eq_none_iff.2 h,
    Settings.carrierInPlay_eq_none_iff.2 h']

theorem goesBy_carrierFirst (clear : Bool) (hc : c.isEmpty = false) :
    Settings.GoesBy ⟨.carrierFirst, clear⟩ (some c) c := ⟨rfl, rfl, hc⟩

/-- What captures that go by the carrier of `s` come to, of a registry with the keys of `s`. -/
structure Recaptured (H : Host η ν) (r : RegistryId) (s : Snapshot) (p : Process η ν) : Prop where
  /-- With missing keys cleared, the snapshot comes back as it was, absences and all. -/
  full : s.values ≠ [] → ∃ u q,
    capture H r (some s.toCarrier) ⟨.carrierFirst, true⟩ p = (.returned u, q) ∧
      u.listing = s.listing
  /-- Without, the values that are there come back. -/
  present : s.values ≠ [] → ∃ u q,
    capture H r (some s.toCarrier) ⟨.carrierFirst, false⟩ p = (.returned u, q) ∧
      u.listing = s.listing.filter fun b => b.2.isSome
  /-- Without any value the carrier is empty, and a capture is one of the running thread. -/
  empty : s.values = [] → s.toCarrier.isEmpty = true ∧ ∀ clear,
    capture H r (some s.toCarrier) ⟨.carrierFirst, clear⟩ p = capture H r none {} p ∧
    (AnswerInTurn H p (p.registry r).accessors → ∃ u q,
      capture H r (some s.toCarrier) ⟨.carrierFirst, clear⟩ p = (.returned u, q) ∧
      TakenHere H (p.registry r) p u q)

/-- A capture by the carrier of `s`, of a registry with the keys of `s`, lists as `s` does those
that count. -/
theorem capture_toCarrier (h : s.keys.Pairwise (· < ·)) (hkeys : (p.registry r).keys = s.keys)
    (hfilled : s.toCarrier.isEmpty = false) (clear : Bool) : ∃ u q,
    capture H r (some s.toCarrier) ⟨.carrierFirst, clear⟩ p = (.returned u, q) ∧
      u.listing = s.listing.filter fun b => b.2.isSome || clear := by
  obtain ⟨u, q, hu, htaken⟩ := capture_of_goesBy (H := H) (r := r) (p := p)
    (goesBy_carrierFirst clear hfilled)
  have hs : s.listing = s.keys.map fun k => (k, s.toCarrier.get? k) :=
    listing_eq_map fun e he => (get?_toCarrier h he).symm
  refine ⟨u, q, hu, ?_⟩
  rw [listing_eq_map htaken.values, htaken.keys, hs, List.filter_map, hkeys]
  rfl

theorem recaptured (h : s.keys.Pairwise (· < ·))
    (hkeys : ∀ k, k ∈ s.keys ↔ (p.registry r).isRegistered k = true) : s.Recaptured H r p := by
  have heq : (p.registry r).keys = s.keys :=
    (p.registry r).keys_sorted.eq_of_mem_iff h fun k => Registry.mem_keys.trans (hkeys k).symm
  have hfilled : s.values ≠ [] → s.toCarrier.isEmpty = false := fun hne =>
    Bool.eq_false_iff.2 (mt (isEmpty_toCarrier_iff h).1 hne)
  refine ⟨fun hne => ?_, fun hne => ?_, fun hnone => ⟨(isEmpty_toCarrier_iff h).2 hnone, ?_⟩⟩
  · obtain ⟨u, q, hu, hlisting⟩ := capture_toCarrier (H := H) h heq (hfilled hne) true
    exact ⟨u, q, hu, by simpa using hlisting⟩
  · obtain ⟨u, q, hu, hlisting⟩ := capture_toCarrier (H := H) h heq (hfilled hne) false
    exact ⟨u, q, hu, by simpa using hlisting⟩
  · intro clear
    have hidle : ∀ d, ¬ Settings.GoesBy ⟨.carrierFirst, clear⟩ (some s.toCarrier) d := by
      rintro d ⟨-, hd, hfull⟩
      rw [← Option.some.inj hd, (isEmpty_toCarrier_iff h).2 hnone] at hfull
      cases hfull
    exact ⟨capture_congr hidle (Settings.not_goesBy_none {}), capture_of_answerInTurn hidle⟩

/-! ### From the carrier and back -/

theorem valuesIn_valuesIn (t : Registry) (c : Carrier) :
    Carrier.valuesIn t (c.valuesIn t) = c.valuesIn t := by
  ext k
  rw [Carrier.get?_valuesIn, Carrier.get?_valuesIn]
  split <;> rfl

theorem toCarrier_of_takenFrom {q : Process η ν} (h : s.keys.Pairwise (· < ·))
    (hs : TakenFrom c clear t p s q) : s.toCarrier = c.valuesIn t := by
  ext1 k
  rw [Carrier.get?_valuesIn]
  by_cases hk : k ∈ s.keys
  · obtain ⟨e, he, rfl⟩ := List.mem_map.1 hk
    have hregistered : t.isRegistered e.key = true := by
      rw [hs.keys] at hk
      exact Registry.mem_keys.1 (List.mem_of_mem_filter hk)
    rw [get?_toCarrier h he, hs.values e he, if_pos hregistered]
  · rw [get?_toCarrier_of_not_mem h hk]
    by_cases hregistered : t.isRegistered k = true
    · rw [if_pos hregistered]
      refine (Option.not_isSome_iff_eq_none.1 fun hsome => hk ?_).symm
      rw [hs.keys, List.mem_filter]
      exact ⟨Registry.mem_keys.2 hregistered, Bool.or_eq_true_iff.2 (.inl hsome)⟩
    · rw [if_neg hregistered]

/-- What comes of going by a filled carrier, of a registry: a snapshot whose carrier is what the
carrier has for registered keys, and from which the same snapshot comes again, of any registry with
the same accessors. -/
structure Returned (H : Host η ν) (r : RegistryId) (c : Carrier) (clear : Bool)
    (p : Process η ν) (s : Snapshot) : Prop where
  carrier : s.toCarrier = c.valuesIn (p.registry r)
  again : s.toCarrier.isEmpty = false → ∀ p' : Process η ν, (p.registry r).Alike (p'.registry r) →
    ∃ q', capture H r (some s.toCarrier) ⟨.carrierFirst, clear⟩ p' = (.returned s, q')

theorem returned (hc : c.isEmpty = false) (clear : Bool) : ∃ s q,
    capture H r (some c) ⟨.carrierFirst, clear⟩ p = (.returned s, q) ∧
      s.Returned H r c clear p := by
  have hgoes := goesBy_carrierFirst clear hc
  obtain ⟨s, q, hs, htaken⟩ := capture_of_goesBy (H := H) (r := r) (p := p) hgoes
  have hsorted := (keyed_of_sublist (accessors_capture hs)).1
  have hcarrier := toCarrier_of_takenFrom hsorted htaken
  refine ⟨s, q, hs, hcarrier, fun hfilled p' hp' => ?_⟩
  have hs' := congrArg Prod.fst (hs.symm.trans (capture_apply_of_goesBy hgoes))
  have hagain := capture_apply_of_goesBy (H := H) (r := r) (p := p')
    (goesBy_carrierFirst clear hfilled)
  rw [hcarrier, Carrier.valuesIn_of_alike hp', hp'.accessors, valuesIn_valuesIn] at hagain
  rw [hcarrier, Exit.returned.inj hs']
  exact ⟨_, hagain⟩

/-- Snapshots and carriers come back. The carrier of a snapshot, captured of whatever registry from
whatever there was, gives the snapshot again of any registry with its keys, on any thread, or what
the thread has if it is empty; and the snapshot of a filled carrier gives the carrier again as far
as its keys are registered, and by that the snapshot. -/
theorem carrier_round_trip (r : RegistryId) (p : Process η ν) :
    (∀ (t : Registry) (s : Snapshot), s.CapturedFrom H t →
      (∀ k, k ∈ s.keys ↔ (p.registry r).isRegistered k = true) → s.Recaptured H r p) ∧
    ∀ c clear, c.isEmpty = false → ∃ s q,
      capture H r (some c) ⟨.carrierFirst, clear⟩ p = (.returned s, q) ∧
        s.Returned H r c clear p :=
  ⟨fun _ _ hs hkeys => recaptured hs.keys_sorted hkeys, fun _ clear hc => returned hc clear⟩

/-- A value for the slot `b` alone. -/
def carried : Carrier := .single "b" ⟨.numbered 0, .unit⟩

/-- The registry has another accessor, whose absence is captured and comes back. -/
theorem carrier_round_trip_meddled :
    ∃ (s u : Snapshot) (q : Process (Table Value) Unit),
      s.CapturedFrom meddling (meddled.registry processWide) ∧
      s.listing = [("a", none), ("b", some ⟨.numbered 0, .unit⟩)] ∧
      capture meddling processWide (some s.toCarrier) ⟨.carrierFirst, true⟩ meddled =
        (.returned u, q) ∧ u.listing = s.listing ∧
      ∃ (s' : Snapshot) (q' : Process (Table Value) Unit),
        capture meddling processWide (some carried) ⟨.carrierFirst, false⟩ meddled =
          (.returned s', q') ∧ s'.toCarrier = carried := by
  obtain ⟨hback, hforth⟩ := carrier_round_trip (H := meddling) processWide meddled
  have hrun : capture meddling processWide (some carried) ⟨.carrierFirst, true⟩ meddled =
    (.returned ⟨[⟨.custom "a" 0, none⟩, ⟨.slot "b", some ⟨.numbered 0, .unit⟩⟩]⟩, _) := rfl
  have hs : CapturedFrom meddling (meddled.registry processWide) _ :=
    ⟨processWide, some carried, _, meddled, _, rfl, hrun⟩
  have hkeys : ∀ k, k ∈ (meddled.registry processWide).keys ↔
      (meddled.registry processWide).isRegistered k = true := fun _ => Registry.mem_keys
  obtain ⟨u, q, hu, hlisting⟩ := (hback _ _ hs hkeys).full (by decide)
  obtain ⟨s', q', hs', hreturned⟩ := hforth carried false rfl
  have hcarrier : Carrier.valuesIn (meddled.registry processWide) carried = carried := rfl
  exact ⟨_, u, q, hs, rfl, hu, hlisting, s', q', hs', hreturned.carrier.trans hcarrier⟩

end Snapshot

end Ambient
