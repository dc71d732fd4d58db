import Ambient.Capture
import Ambient.Proofs.Amending

/-! Carriers and their histories. A carrier is made from nothing, of a list, of a snapshot or of a
carrier made before, and many may be made of the same one. What was put into a carrier and deleted,
by whatever way it came from carrier to carrier, is its history. Proved: a carrier answers what its
history tells, whatever others are made beside it or of it; and which ways of making one come to the
same. -/

namespace Ambient

namespace Carrier

/-! ### Making carriers -/

/-- A carrier made of no other. -/
inductive Origin where
  | empty
  | single (k : Key) (v : Value)
  /-- Of pairs, one after another. -/
  | collected (l : List (Key × Value))
  | ofSnapshot (s : Snapshot)

/-- What is done to a carrier to make another one. -/
inductive Alteration where
  | put (k : Key) (v : Value)
  | putAll (l : List (Key × Value))
  | delete (k : Key)

/-- How a carrier is made. Those made before are numbered in the order of their making, and a number
that none has stands for the empty one. -/
inductive Making where
  | origin (o : Origin)
  | altered (i : Nat) (a : Alteration)

def Origin.carrier : Origin → Carrier
  | empty => Table.empty
  | single k v => Carrier.single k v
  | collected l => Table.ofList l
  | ofSnapshot s => s.toCarrier

def Alteration.apply (c : Carrier) : Alteration → Carrier
  | put k v => c.insert k v
  | putAll l => c.insertAll l
  | delete k => c.erase k

def Making.carrier (made : List Carrier) : Making → Carrier
  | origin o => o.carrier
  | altered i a => a.apply (made.getD i Table.empty)

/-- Makes carriers, one after another. -/
def makeAll (makings : List Making) : List Carrier :=
  makings.foldl (fun made m => made ++ [m.carrier made]) []

/-! ### Histories -/

/-- Pairs as they are put. -/
def puts (l : List (Key × Value)) : List (Table.Edit Value) := l.map fun b => (b.1, some b.2)

def Origin.edits : Origin → List (Table.Edit Value)
  | empty => []
  | single k v => [(k, some v)]
  | collected l => puts l
  | ofSnapshot s => puts (s.entries.filterMap fun e => e.value.map fun v => (e.key, v))

def Alteration.edits : Alteration → List (Table.Edit Value)
  | put k v => [(k, some v)]
  | putAll l => puts l
  | delete k => [(k, none)]

/-- What was put and deleted, first to last, on the way to a carrier; `told` are the histories of
those made before. -/
def Making.edits (told : List (List (Table.Edit Value))) : Making → List (Table.Edit Value)
  | origin o => o.edits
  | altered i a => told.getD i [] ++ a.edits

/-- The histories of carriers made one after another. -/
def histories (makings : List Making) : List (List (Table.Edit Value)) :=
  makings.foldl (fun told m => told ++ [m.edits told]) []

theorem makeAll_concat (makings : List Making) (m : Making) :
    makeAll (makings ++ [m]) = makeAll makings ++ [m.carrier (makeAll makings)] := by
  simp [makeAll]

theorem histories_concat (makings : List Making) (m : Making) :
    histories (makings ++ [m]) = histories makings ++ [m.edits (histories makings)] := by
  simp [histories]

/-- No carrier changes when others are made. -/
theorem makeAll_prefix (makings more : List Making) :
    makeAll makings <+: makeAll (makings ++ more) := by
  induction more using List.reverseRecOn with
  | nil => simp
  | append_singleton more m ih =>
    rw [← List.append_assoc, makeAll_concat]
    exact ih.trans (List.prefix_append ..)

/-! ### Carriers are what their histories make of nothing -/

theorem Origin.carrier_eq_amend (o : Origin) : o.carrier = Table.empty.amend o.edits := by
  cases o with
  | empty => rfl
  | single k v => rfl
  | collected l => exact Table.insertAll_eq_amend Table.empty l
  | ofSnapshot s => exact Table.insertAll_eq_amend Table.empty _

theorem Alteration.apply_eq_amend (a : Alteration) (c : Carrier) :
    a.apply c = c.amend a.edits := by
  cases a with
  | put k v => rfl
  | putAll l => exact c.insertAll_eq_amend l
  | delete k => rfl

/-- One more carrier: if those before are what their histories make, so is it. -/
theorem Making.carrier_map_amend (m : Making) (told : List (List (Table.Edit Value))) :
    m.carrier (told.map (Table.empty.amend ·)) = Table.empty.amend (m.edits told) := by
  cases m with
  | origin o => exact o.carrier_eq_amend
  | altered i a =>
    have hfound : (told.map (Table.empty.amend ·)).getD i Table.empty =
        Table.empty.amend (told.getD i []) := by
      simp only [List.getD_eq_getElem?_getD, List.getElem?_map]
      cases told[i]? <;> rfl
    rw [carrier, hfound, a.apply_eq_amend, ← Table.amend_append]
    rfl

theorem makeAll_eq_map (makings : List Making) :
    makeAll makings = (histories makings).map (Table.empty.amend ·) := by
  induction makings using List.reverseRecOn with
  | nil => rfl
  | append_singleton makings m ih =>
    rw [makeAll_concat, histories_concat, List.map_append, ih, m.carrier_map_amend]
    rfl

/-! ### What carriers answer -/

/-- The carrier answers what the history tells. -/
structure Recounts (edits : List (Table.Edit Value)) (c : Carrier) : Prop where
  /-- A key has what was put under it last, unless it was deleted since. -/
  get? : ∀ k v, c.get? k = some v ↔ Table.LastGiven edits k v
  size : c.size = {k | ∃ v, Table.LastGiven edits k v}.ncard
  /-- Each key that has a value comes once, with that value. -/
  bindings : (c.bindings.map Prod.fst).Nodup ∧ ∀ k v, (k, v) ∈ c.bindings ↔ c.get? k = some v
  /-- A carrier is empty just if all that was ever put was deleted later. -/
  isEmpty : c.isEmpty = true ↔
    ∀ before k v after, edits = before ++ (k, some v) :: after → (k, none) ∈ after
  /-- Then, and only then, captures that go by a carrier first go by the thread instead. -/
  falls : ∀ clear, Settings.carrierInPlay ⟨.carrierFirst, clear⟩ (some c) = none ↔ c.isEmpty = true

theorem recounts_amend (edits : List (Table.Edit Value)) :
    Recounts edits (Table.empty.amend edits) where
  get? k v := Table.get?_amend_empty
  size := by
    rw [Table.size_eq_ncard]
    simp only [Table.contains, Option.isSome_iff_exists, Table.get?_amend_empty]
  bindings := ⟨Table.nodup_of_ascending (Table.keys_sorted _), fun k v => Table.get?_eq_some_iff.symm⟩
  isEmpty := Table.isEmpty_amend_empty
  falls clear := by simp [Settings.carrierInPlay, Option.filter_eq_none_iff]

/-- Which ways of making carriers of `c` come to the same. -/
structure Lawful (c : Carrier) : Prop where
  /-- Putting a list is putting its pairs one by one. -/
  putAll : ∀ l, Alteration.apply c (.putAll l) =
    l.foldl (fun d b => Alteration.apply d (.put b.1 b.2)) c
  /-- What is done to different keys may change places. -/
  comm : ∀ a a' : Alteration, (∀ d ∈ a.edits, ∀ e ∈ a'.edits, d.1 ≠ e.1) →
    a'.apply (a.apply c) = a.apply (a'.apply c)
  /-- Deleting a key that is not there changes nothing. -/
  delete : ∀ k, c.contains k = false → Alteration.apply c (.delete k) = c

theorem lawful (c : Carrier) : c.Lawful where
  putAll _ := rfl
  comm a a' h := by
    simp only [Alteration.apply_eq_amend]
    exact Table.amend_comm c h
  delete _ := Table.erase_of_not_contains

/-- Carriers made one after another, of one another in whatever manner. Each answers what its own
history tells, and still does when more are made. -/
theorem told_by_history (makings : List Making) :
    List.Forall₂ (fun edits c => Recounts edits c ∧ c.Lawful) (histories makings) (makeAll makings) ∧
      (∀ more, makeAll makings <+: makeAll (makings ++ more)) ∧
      ∀ l, Origin.carrier (.collected l) = Alteration.apply Table.empty (.putAll l) := by
  refine ⟨?_, makeAll_prefix makings, fun _ => rfl⟩
  rw [makeAll_eq_map, List.forall₂_map_right_iff, List.forall₂_same]
  exact fun edits _ => ⟨recounts_amend edits, lawful _⟩

/-- Two carriers made of the same one. -/
example : (makeAll [.origin (.single "a" ⟨.numbered 0, .unit⟩), .altered 0 (.delete "a"),
    .altered 0 (.put "a" ⟨.numbered 1, .unit⟩)]).map (·.get? "a") =
      [some ⟨.numbered 0, .unit⟩, none, some ⟨.numbered 1, .unit⟩] := by decide

end Carrier

end Ambient
