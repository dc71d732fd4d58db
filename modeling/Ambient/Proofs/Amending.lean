import Mathlib.Data.Set.Card
import Ambient.Table

/-! Tables and what was done to them. A table comes about by edits: a key is given a content, or
loses the one it has. Proved: a key has what it was given last, unless something else was done to it
since; which keys have anything, how many they are, and when there are none is told by the edits
alone; and edits of different keys may change places. What the contents are is left to other
modules. -/

namespace Ambient

namespace Table

variable {α : Type}

/-- What is done to a table: the key is given a content, or loses what it has. -/
abbrev Edit (α : Type) := Key × Option α

/-- Does one thing to a table after another. -/
def amend (t : Table α) (edits : List (Edit α)) : Table α :=
  edits.foldl (fun t e => t.assign e.1 e.2) t

@[simp] theorem amend_nil (t : Table α) : t.amend [] = t := rfl

@[simp] theorem amend_cons (t : Table α) (e : Edit α) (edits : List (Edit α)) :
    t.amend (e :: edits) = (t.assign e.1 e.2).amend edits := rfl

theorem amend_append (t : Table α) (l m : List (Edit α)) :
    t.amend (l ++ m) = (t.amend l).amend m := List.foldl_append

theorem insertAll_eq_amend (t : Table α) (l : List (Key × α)) :
    t.insertAll l = t.amend (l.map fun b => (b.1, some b.2)) := by
  induction l generalizing t with
  | nil => rfl
  | cons b rest ih => exact ih (t.insert b.1 b.2)

/-! ### What edits say of a key -/

/-- The key was given the content, and nothing was done to it since. -/
def LastGiven (edits : List (Edit α)) (k : Key) (x : α) : Prop :=
  ∃ before after, edits = before ++ (k, some x) :: after ∧ ∀ e ∈ after, e.1 ≠ k

/-- The key was given something some time, and has not lost what it had since. -/
def Remains (edits : List (Edit α)) (k : Key) : Prop :=
  ∃ before x after, edits = before ++ (k, some x) :: after ∧ (k, none) ∉ after

theorem lastGiven_cons {e : Edit α} {edits : List (Edit α)} {k : Key} {x : α} :
    LastGiven (e :: edits) k x ↔
      LastGiven edits k x ∨ e = (k, some x) ∧ ∀ d ∈ edits, d.1 ≠ k := by
  constructor
  · rintro ⟨before, after, hsplit, hafter⟩
    rcases List.cons_eq_append_iff.1 hsplit with ⟨-, hcons⟩ | ⟨before, -, hrest⟩
    · obtain ⟨rfl, rfl⟩ := List.cons.inj hcons
      exact .inr ⟨rfl, hafter⟩
    · exact .inl ⟨before, after, hrest, hafter⟩
  · rintro (⟨before, after, rfl, hafter⟩ | ⟨rfl, hafter⟩)
    · exact ⟨e :: before, after, rfl, hafter⟩
    · exact ⟨[], edits, rfl, hafter⟩

theorem remains_cons {e : Edit α} {edits : List (Edit α)} {k : Key} :
    Remains (e :: edits) k ↔ Remains edits k ∨ (∃ x, e = (k, some x)) ∧ (k, none) ∉ edits := by
  constructor
  · rintro ⟨before, x, after, hsplit, hafter⟩
    rcases List.cons_eq_append_iff.1 hsplit with ⟨-, hcons⟩ | ⟨before, -, hrest⟩
    · obtain ⟨rfl, rfl⟩ := List.cons.inj hcons
      exact .inr ⟨⟨x, rfl⟩, hafter⟩
    · exact .inl ⟨before, x, after, hrest, hafter⟩
  · rintro (⟨before, x, after, rfl, hafter⟩ | ⟨⟨x, rfl⟩, hafter⟩)
    · exact ⟨e :: before, x, after, rfl, hafter⟩
    · exact ⟨[], x, edits, rfl, hafter⟩

theorem not_remains_iff {edits : List (Edit α)} {k : Key} :
    ¬ Remains edits k ↔
      ∀ before x after, edits = before ++ (k, some x) :: after → (k, none) ∈ after := by
  simp only [Remains, not_exists, not_and, not_not]

/-- A key has what it was given last, or what it had if nothing was done to it. -/
theorem get?_amend_eq_some_iff {t : Table α} {edits : List (Edit α)} {k : Key} {x : α} :
    (t.amend edits).get? k = some x ↔
      LastGiven edits k x ∨ t.get? k = some x ∧ ∀ e ∈ edits, e.1 ≠ k := by
  induction edits generalizing t with
  | nil => simp [LastGiven]
  | cons e rest ih =>
    obtain ⟨j, y⟩ := e
    rw [amend_cons, ih, get?_assign, lastGiven_cons, or_assoc]
    refine or_congr_right ?_
    by_cases hj : j = k
    · subst hj
      simp
    · simp [hj]

theorem contains_assign (t : Table α) (j k : Key) (y : Option α) :
    (t.assign j y).contains k = if j = k then y.isSome else t.contains k := by
  rw [contains, get?_assign]
  split <;> rfl

/-- Whether a key has anything. -/
theorem contains_amend {t : Table α} {edits : List (Edit α)} {k : Key} :
    (t.amend edits).contains k = true ↔
      Remains edits k ∨ t.contains k = true ∧ (k, none) ∉ edits := by
  induction edits generalizing t with
  | nil => simp [Remains]
  | cons e rest ih =>
    obtain ⟨j, y⟩ := e
    rw [amend_cons, ih, contains_assign, remains_cons, or_assoc]
    refine or_congr_right ?_
    by_cases hj : j = k
    · subst hj
      cases y <;> simp
    · simp [hj, Ne.symm hj]

/-! ### Tables made from nothing -/

theorem get?_amend_empty {edits : List (Edit α)} {k : Key} {x : α} :
    (empty.amend edits).get? k = some x ↔ LastGiven edits k x := by
  rw [get?_amend_eq_some_iff]
  simp

theorem contains_amend_empty {edits : List (Edit α)} {k : Key} :
    (empty.amend edits).contains k = true ↔ Remains edits k := by
  rw [contains_amend]
  simp [contains]

/-- A table has as many bindings as keys. -/
theorem size_eq_ncard (t : Table α) : t.size = {k | t.contains k = true}.ncard := by
  have hkeys : {k | t.contains k = true} = (t.keys.toFinset : Set Key) := by
    ext k
    simp [mem_keys]
  rw [hkeys, Set.ncard_coe_finset, List.toFinset_card_of_nodup (nodup_of_ascending t.keys_sorted),
    keys, List.length_map, size]

theorem isEmpty_iff_not_contains {t : Table α} : t.isEmpty = true ↔ ∀ k, t.contains k = false := by
  simp [isEmpty_iff, contains]

theorem isEmpty_amend_empty {edits : List (Edit α)} :
    (empty.amend edits).isEmpty = true ↔
      ∀ before k x after, edits = before ++ (k, some x) :: after → (k, none) ∈ after := by
  rw [isEmpty_iff_not_contains]
  constructor
  · intro h before k x after hsplit
    have hk : ¬ Remains edits k := by
      rw [← contains_amend_empty, h k]
      exact Bool.false_ne_true
    exact not_remains_iff.1 hk before x after hsplit
  · intro h k
    rw [Bool.eq_false_iff, Ne, contains_amend_empty, not_remains_iff]
    exact fun before => h before k

/-! ### Edits of different keys -/

theorem get?_amend_of_not_mem {t : Table α} {edits : List (Edit α)} {k : Key}
    (h : ∀ e ∈ edits, e.1 ≠ k) : (t.amend edits).get? k = t.get? k := by
  ext x
  rw [get?_amend_eq_some_iff]
  constructor
  · rintro (⟨before, after, rfl, -⟩ | ⟨hx, -⟩)
    · exact absurd rfl (h (k, some x) (by simp))
    · exact hx
  · exact fun hx => .inr ⟨hx, h⟩

/-- What a key has is decided by the edits of that key. -/
theorem get?_amend_congr {t u : Table α} {edits : List (Edit α)} {k : Key}
    (h : t.get? k = u.get? k) : (t.amend edits).get? k = (u.amend edits).get? k := by
  ext x
  rw [get?_amend_eq_some_iff, get?_amend_eq_some_iff, h]

theorem amend_comm (t : Table α) {l m : List (Edit α)} (h : ∀ d ∈ l, ∀ e ∈ m, d.1 ≠ e.1) :
    (t.amend l).amend m = (t.amend m).amend l := by
  ext1 k
  by_cases hk : ∃ d ∈ l, d.1 = k
  · obtain ⟨d, hd, rfl⟩ := hk
    have hm : ∀ e ∈ m, e.1 ≠ d.1 := fun e he => Ne.symm (h d hd e he)
    rw [get?_amend_of_not_mem hm]
    exact get?_amend_congr (get?_amend_of_not_mem hm).symm
  · have hl : ∀ d ∈ l, d.1 ≠ k := fun d hd heq => hk ⟨d, hd, heq⟩
    rw [get?_amend_of_not_mem hl]
    exact get?_amend_congr (get?_amend_of_not_mem hl)

end Table

end Ambient
