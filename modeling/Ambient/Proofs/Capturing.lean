import Ambient.Proofs.Installing
import Ambient.Capture

/-! What a capture takes. Where a carrier is in play, no accessor is called and the carrier alone
says what is captured; otherwise every accessor of the registry is read, each once and in the order
of the keys, and `ReadInTurn` tells that as a relation between states. It counts which accessors the
registry has when the capture begins. A function of an accessor may do what it likes to the
registry meanwhile, or to anything else. -/

namespace Ambient

variable {η ν : Type} (H : Host η ν)

/-! ### Reading one accessor after another -/

/-- From `p` the accessors of the entries are read, one after another, with the answers told, and
`q` is where that leads. What was read is held meanwhile. -/
inductive ReadInTurn : Process η ν → List Entry → Process η ν → Prop
  | nil (p) : ReadInTurn p [] p
  | cons {p p₁ q a value rest} (hr : a.read H p = (.returned value, p₁))
      (h : ReadInTurn (p₁.hold value.toList) rest q) : ReadInTurn p (⟨a, value⟩ :: rest) q

/-- Of the accessors, read one after another from `p` on, none panics when its turn comes. -/
def AnswerInTurn (p : Process η ν) (l : List Accessor) : Prop :=
  ∀ entries a rest q, l = entries.map Entry.accessor ++ a :: rest → ReadInTurn H p entries q →
    ∃ value q', a.read H q = (.returned value, q')

variable {H}

namespace Snapshot

/-- Either all accessors are read, or there is a first whose reading panics. -/
theorem readInTurn_or_panics (l : List Accessor) (p : Process η ν) :
    (∃ entries q, entries.map Entry.accessor = l ∧ ReadInTurn H p entries q) ∨
      ∃ entries a rest r text q, l = entries.map Entry.accessor ++ a :: rest ∧
        ReadInTurn H p entries r ∧ a.read H r = (.panicked text, q) := by
  induction l generalizing p with
  | nil => exact .inl ⟨[], p, rfl, .nil p⟩
  | cons a rest ih =>
    rcases hr : a.read H p with ⟨value | text, p₁⟩
    · rcases ih (p₁.hold value.toList) with
        ⟨entries, q, rfl, h⟩ | ⟨entries, x, after, r, text, q, rfl, h, hx⟩
      · exact .inl ⟨⟨a, value⟩ :: entries, q, rfl, .cons hr h⟩
      · exact .inr ⟨⟨a, value⟩ :: entries, x, after, r, text, q, rfl, .cons hr h, hx⟩
    · exact .inr ⟨[], a, rest, p, text, p₁, rfl, .nil p, hr⟩

/-- Accessors that are read come to their entries; what was held for them is given up again. -/
theorem readAll_of_readInTurn {p q : Process η ν} {entries : List Entry}
    (h : ReadInTurn H p entries q) : readAll H (entries.map Entry.accessor) p =
      (.returned entries, q.unhold (entries.filterMap Entry.value).length) := by
  induction h with
  | nil p => rfl
  | @cons p p₁ q a value rest hr _ ih =>
    have hheld : Action.holding value.toList (readAll H (rest.map Entry.accessor)) p₁ =
        (.returned rest, (q.unhold (rest.filterMap Entry.value).length).unhold value.toList.length) := by
      rw [Action.holding_apply, ih]
    rw [List.map_cons, readAll, Action.bind_of_returned hr, Action.bind_of_returned hheld,
      Process.unhold_unhold, Action.pure_apply]
    cases value <;> simp

theorem readAll_of_panics {p r q : Process η ν} {entries : List Entry} {a : Accessor}
    {text : String} (h : ReadInTurn H p entries r) (ha : a.read H r = (.panicked text, q))
    (rest : List Accessor) :
    ∃ n, readAll H (entries.map Entry.accessor ++ a :: rest) p = (.panicked text, q.unhold n) := by
  induction h with
  | nil p => exact ⟨0, Action.bind_of_panicked ha _⟩
  | @cons p p₁ r b value l hr _ ih =>
    obtain ⟨n, hn⟩ := ih ha
    have hheld : Action.holding value.toList (readAll H (l.map Entry.accessor ++ a :: rest)) p₁ =
        (.panicked text, (q.unhold n).unhold value.toList.length) := by
      rw [Action.holding_apply, hn]
    refine ⟨n + value.toList.length, ?_⟩
    rw [List.map_cons, List.cons_append, readAll, Action.bind_of_returned hr,
      Action.bind_of_panicked hheld, Process.unhold_unhold]

theorem accessors_readAll {l : List Accessor} {p q : Process η ν} {entries : List Entry}
    (h : readAll H l p = (.returned entries, q)) : entries.map Entry.accessor = l := by
  rcases readInTurn_or_panics (H := H) l p with
    ⟨entries', r, rfl, hread⟩ | ⟨entries', a, rest, r, text, q', rfl, hread, ha⟩
  · have hexit := congrArg Prod.fst (h.symm.trans (readAll_of_readInTurn hread))
    rw [Exit.returned.inj hexit]
  · obtain ⟨n, hn⟩ := readAll_of_panics hread ha rest
    exact absurd (congrArg Prod.fst (h.symm.trans hn)) (by simp)

/-! ### Entries from a carrier -/

theorem accessors_entriesOf (values : Carrier) (clearMissing : Bool) (l : List Accessor) :
    (entriesOf values clearMissing l).map Entry.accessor =
      l.filter fun a => values.contains a.key || clearMissing := by
  induction l with
  | nil => rfl
  | cons a rest ih =>
    rw [entriesOf, List.filterMap_cons, List.filter_cons, ← ih, Table.contains]
    cases values.get? a.key with
    | some v => rfl
    | none => cases clearMissing <;> rfl

theorem value_of_mem_entriesOf {values : Carrier} {clearMissing : Bool} {l : List Accessor}
    {e : Entry} (he : e ∈ entriesOf values clearMissing l) : e.value = values.get? e.key := by
  obtain ⟨a, -, ha⟩ := List.mem_filterMap.1 he
  cases hv : values.get? a.key with
  | some v =>
    rw [hv] at ha
    obtain rfl : (⟨a, some v⟩ : Entry) = e := Option.some.inj ha
    exact hv.symm
  | none =>
    rw [hv] at ha
    cases clearMissing with
    | false => exact absurd ha (by simp)
    | true =>
      obtain rfl : (⟨a, none⟩ : Entry) = e := Option.some.inj ha
      exact hv.symm

end Snapshot

/-- A capture is supplied a carrier that holds something, and is to go by it. -/
structure Settings.GoesBy (settings : Settings) (carrier : Option Carrier) (c : Carrier) : Prop where
  policy : settings.policy = .carrierFirst
  supplied : carrier = some c
  filled : c.isEmpty = false

theorem Settings.carrierInPlay_eq_some_iff {settings : Settings} {carrier : Option Carrier}
    {c : Carrier} : settings.carrierInPlay carrier = some c ↔ settings.GoesBy carrier c := by
  constructor
  · intro h
    cases hp : settings.policy with
    | threadLocalOnly => simp [carrierInPlay, hp] at h
    | carrierFirst =>
      obtain ⟨rfl, hc⟩ : carrier = some c ∧ c.isEmpty = false := by
        simpa [carrierInPlay, hp, Option.filter_eq_some_iff] using h
      exact ⟨hp, rfl, hc⟩
  · rintro ⟨hp, rfl, hc⟩
    simp [carrierInPlay, hp, hc]

theorem Settings.carrierInPlay_eq_none_iff {settings : Settings} {carrier : Option Carrier} :
    settings.carrierInPlay carrier = none ↔ ∀ c, ¬ settings.GoesBy carrier c := by
  rw [Option.eq_none_iff_forall_ne_some]
  exact forall_congr' fun c => not_congr carrierInPlay_eq_some_iff

/-- Without a carrier there is none to go by. -/
theorem Settings.not_goesBy_none (settings : Settings) (c : Carrier) : ¬ settings.GoesBy none c :=
  fun h => Option.some_ne_none c h.supplied.symm

/-! ### Captures -/

namespace Snapshot

theorem keys_eq_map (s : Snapshot) : s.keys = (s.entries.map Entry.accessor).map Accessor.key := by
  rw [List.map_map]
  rfl

/-- What a snapshot holds that was taken of accessors `l` of a registry. -/
theorem keyed_of_sublist {t : Registry} {s : Snapshot}
    (h : (s.entries.map Entry.accessor).Sublist t.accessors) :
    s.keys.Pairwise (· < ·) ∧ ∀ e ∈ s.entries, t.get? e.key = some e.accessor := by
  refine ⟨?_, fun e he => ?_⟩
  · have hkeys : s.keys.Sublist t.keys := by
      rw [keys_eq_map, ← Registry.keys_accessors]
      exact h.map Accessor.key
    exact t.keys_sorted.sublist hkeys
  · exact Registry.mem_accessors.1 (h.subset (List.mem_map_of_mem he))

/-- A capture by a carrier. The keys are those that the carrier has, and all others too where missing
ones are to be cleared; and nothing happens but that it is logged. -/
structure TakenFrom (c : Carrier) (clearMissing : Bool) (t : Registry) (p : Process η ν)
    (s : Snapshot) (q : Process η ν) : Prop where
  keys : s.keys = t.keys.filter fun k => c.contains k || clearMissing
  values : ∀ e ∈ s.entries, e.value = c.get? e.key
  last : q = p.record (.logged (.captured true s.size))

/-- A capture of what the running thread has. All accessors were read, in their order, and the
entries hold what these readings answered. -/
structure TakenHere (H : Host η ν) (t : Registry) (p : Process η ν) (s : Snapshot)
    (q : Process η ν) : Prop where
  accessors : s.entries.map Entry.accessor = t.accessors
  read : ∃ r, ReadInTurn H p s.entries r ∧
    q = (r.unhold s.values.length).record (.logged (.captured false s.size))

/-- The snapshot was captured of a registry with this table, some time, on some thread and from
whatever it was to go by. -/
def CapturedFrom (H : Host η ν) (t : Registry) (s : Snapshot) : Prop :=
  ∃ r carrier settings p q, p.registry r = t ∧
    capture H r carrier settings p = (.returned s, q)

variable {r : RegistryId} {carrier : Option Carrier} {settings : Settings} {p : Process η ν}

/-- Whatever a capture goes by, it keeps the accessors that the registry has, in their order. -/
theorem accessors_capture {s : Snapshot} {q : Process η ν}
    (h : capture H r carrier settings p = (.returned s, q)) :
    (s.entries.map Entry.accessor).Sublist (p.registry r).accessors := by
  rw [capture, Action.bind_of_returned (Registry.look_apply r p)] at h
  cases hc : settings.carrierInPlay carrier with
  | none =>
    simp only [hc] at h
    obtain ⟨entries, p₁, hread, h⟩ := Action.returned_of_bind h
    obtain ⟨-, p₂, -, h⟩ := Action.returned_of_bind h
    obtain rfl : ⟨entries⟩ = s := by simpa [Action.pure_apply] using congrArg Prod.fst h
    simp [accessors_readAll hread]
  | some c =>
    simp only [hc, pure_bind] at h
    obtain ⟨-, p₂, -, h⟩ := Action.returned_of_bind h
    obtain rfl : ⟨_⟩ = s := by simpa [Action.pure_apply] using congrArg Prod.fst h
    rw [accessors_entriesOf]
    exact List.filter_sublist

/-- A capture that goes by a carrier takes what the carrier says, and is logged. -/
theorem capture_apply_of_goesBy {c : Carrier} (h : settings.GoesBy carrier c) :
    capture H r carrier settings p =
      (.returned ⟨entriesOf (c.valuesIn (p.registry r)) settings.clearMissing
          (p.registry r).accessors⟩,
        p.record (.logged (.captured true (entriesOf (c.valuesIn (p.registry r))
          settings.clearMissing (p.registry r).accessors).length))) := by
  rw [capture, Action.bind_of_returned (Registry.look_apply r p),
    Settings.carrierInPlay_eq_some_iff.2 h]
  rfl

theorem capture_of_goesBy {c : Carrier} (h : settings.GoesBy carrier c) :
    ∃ s q, capture H r carrier settings p = (.returned s, q) ∧
      TakenFrom c settings.clearMissing (p.registry r) p s q := by
  set t := p.registry r
  set s : Snapshot := ⟨entriesOf (c.valuesIn t) settings.clearMissing t.accessors⟩
  have hcapture : capture H r carrier settings p =
      (.returned s, p.record (.logged (.captured true s.size))) := capture_apply_of_goesBy h
  have haccessors := accessors_entriesOf (c.valuesIn t) settings.clearMissing t.accessors
  have hvalues : ∀ k ∈ t.keys, (c.valuesIn t).get? k = c.get? k := fun k hk => by
    have hregistered : t.isRegistered k = true := Registry.mem_keys.1 hk
    rw [Carrier.get?_valuesIn, if_pos hregistered]
  refine ⟨s, _, hcapture, ?_, fun e he => ?_, rfl⟩
  · rw [keys_eq_map, haccessors, ← Registry.keys_accessors, List.filter_map]
    refine congrArg _ (List.filter_congr fun a ha => ?_)
    have hk : a.key ∈ t.keys := by
      rw [← Registry.keys_accessors]
      exact List.mem_map_of_mem ha
    simp only [Function.comp_apply, Table.contains, hvalues a.key hk]
  · have hsub := accessors_capture hcapture
    rw [value_of_mem_entriesOf he]
    refine hvalues e.key ?_
    rw [← Registry.keys_accessors]
    exact List.mem_map_of_mem (hsub.subset (List.mem_map_of_mem he))

theorem CapturedFrom.accessors {t : Registry} {s : Snapshot} (h : s.CapturedFrom H t) :
    (s.entries.map Entry.accessor).Sublist t.accessors := by
  obtain ⟨r, carrier, settings, p, q, rfl, h⟩ := h
  exact accessors_capture h

theorem CapturedFrom.keys_sorted {t : Registry} {s : Snapshot} (h : s.CapturedFrom H t) :
    s.keys.Pairwise (· < ·) :=
  (keyed_of_sublist h.accessors).1

theorem capture_of_answerInTurn (h : ∀ c, ¬ settings.GoesBy carrier c)
    (hanswers : AnswerInTurn H p (p.registry r).accessors) :
    ∃ s q, capture H r carrier settings p = (.returned s, q) ∧ TakenHere H (p.registry r) p s q := by
  have hnone := Settings.carrierInPlay_eq_none_iff.2 h
  rcases readInTurn_or_panics (H := H) (p.registry r).accessors p with
    ⟨entries, q, hl, hread⟩ | ⟨entries, a, rest, q, text, q', hl, hread, ha⟩
  · have hall := readAll_of_readInTurn hread
    rw [hl] at hall
    refine ⟨⟨entries⟩, _, ?_, hl, q, hread, rfl⟩
    rw [capture, Action.bind_of_returned (Registry.look_apply r p), hnone]
    exact (Action.bind_of_returned hall _).trans rfl
  · obtain ⟨value, q'', hanswer⟩ := hanswers entries a rest q hl hread
    exact absurd (ha.symm.trans hanswer) (by simp)

/-- A capture, with functions of accessors that do not panic and otherwise do what they like. It goes
by the table that the registry has when it begins: each entry has the accessor of its key in that
table, and the keys ascend. If a carrier that holds anything is supplied and counts, the capture
goes by it alone; and otherwise every accessor of the table is read once, in the order of the
keys. -/
theorem capture_exact (r : RegistryId) (carrier : Option Carrier) (settings : Settings)
    (p : Process η ν) (hanswers : AnswerInTurn H p (p.registry r).accessors) :
    ∃ s q, capture H r carrier settings p = (.returned s, q) ∧
      s.keys.Pairwise (· < ·) ∧
      (∀ e ∈ s.entries, (p.registry r).get? e.key = some e.accessor) ∧
      (∀ c, settings.GoesBy carrier c →
        TakenFrom c settings.clearMissing (p.registry r) p s q) ∧
      ((∀ c, ¬ settings.GoesBy carrier c) → TakenHere H (p.registry r) p s q) := by
  by_cases h : ∃ c, settings.GoesBy carrier c
  · obtain ⟨c, hc⟩ := h
    obtain ⟨s, q, hcapture, htaken⟩ := capture_of_goesBy (H := H) (r := r) (p := p) hc
    obtain ⟨hsorted, hkeyed⟩ := keyed_of_sublist (accessors_capture hcapture)
    refine ⟨s, q, hcapture, hsorted, hkeyed, fun d hd => ?_, fun hnone => absurd hc (hnone c)⟩
    obtain rfl : c = d := Option.some.inj (hc.supplied.symm.trans hd.supplied)
    exact htaken
  · obtain ⟨s, q, hcapture, htaken⟩ := capture_of_answerInTurn (not_exists.1 h) hanswers
    obtain ⟨hsorted, hkeyed⟩ := keyed_of_sublist (accessors_capture hcapture)
    exact ⟨s, q, hcapture, hsorted, hkeyed, fun c hc => absurd ⟨c, hc⟩ h, fun _ => htaken⟩

/-- An embedding program whose getters take the accessor of `b` out of the registry and put a value
into its slot. -/
def meddling : Host (Table Value) Unit where
  behaviour ref :=
    { (rack (fun _ => "cell") fun _ _ => .returned (.ok ())).behaviour ref with
      read := do
        let _ ← Registry.remove processWide "b"
        let _ ← Slot.write (rack (fun _ => "cell") fun _ _ => .returned (.ok ())) "b"
          (some ⟨.numbered 1, .unit⟩)
        return some ⟨.numbered 0, .unit⟩ }
  holds i cells := cells.values.any (Value.mentions i)

theorem answer_meddling (p : Process (Table Value) Unit) (l : List Accessor) :
    AnswerInTurn meddling p l := by
  intro _ a _ p _ _
  cases a with
  | slot k => exact ⟨_, _, Accessor.read_slot meddling k p⟩
  | custom k ref =>
    set begun := p.record (.called { accessor := .custom k ref, request := .read })
    have hread : (Accessor.custom k ref).read meddling p = (meddling.behaviour ref).read begun := rfl
    obtain ⟨removed, q, hremove⟩ : ∃ removed q,
        Registry.remove processWide "b" begun = (.returned removed, q) := ⟨_, _, rfl⟩
    obtain ⟨written, r, hwrite⟩ := Slot.write_returned
      (rack (fun _ => "cell") fun _ _ => .returned (.ok ())) "b" (some ⟨.numbered 1, .unit⟩) q
    refine ⟨some ⟨.numbered 0, .unit⟩, r, ?_⟩
    rw [hread]
    exact (Action.bind_of_returned hremove _).trans (Action.bind_of_returned hwrite _)

/-- A process with a registry of such an accessor and of the slot `b`. -/
def meddled : Process (Table Value) Unit where
  here := "main"
  registries := [(Registry.empty.register (.custom "a" 0)).register (.slot "b")]
  host := .empty

/-- The slot is captured all the same, with what the getter read before it has put there. -/
theorem capture_exact_meddled :
    ∃ s q, capture meddling processWide (some .empty) {} meddled = (.returned s, q) ∧
      s.keys = ["a", "b"] ∧ s.get? "b" = some (some ⟨.numbered 1, .unit⟩) ∧
      (q.registry processWide).keys = ["a"] := by
  have hrun : capture meddling processWide (some .empty) {} meddled = (.returned _, _) := rfl
  obtain ⟨s, q, hcapture, -, -, -, hhere⟩ := capture_exact processWide (some .empty) {} meddled
    (answer_meddling _ _)
  obtain ⟨rfl, rfl⟩ : _ = s ∧ _ = q := by simpa using hrun.symm.trans hcapture
  refine ⟨_, _, rfl, ?_, ?_, ?_⟩
  · decide +kernel
  · decide +kernel
  · decide +kernel

end Snapshot

end Ambient
