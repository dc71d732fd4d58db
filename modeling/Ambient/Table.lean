/-! Finite tables sorted by key. A table is the list of its bindings in strictly
ascending key order, so it is determined by its look-ups: two tables that answer
alike are equal. Nothing here knows what the bindings are for. -/

namespace Ambient

/-- A key is its name; keys compare by the code points of their names. -/
abbrev Key := String

/-- Bindings of keys, each key at most once, in ascending order. -/
structure Table (α : Type) where
  /-- The bindings, least key first. -/
  bindings : List (Key × α)
  /-- Keys ascend strictly, so none occurs twice. -/
  sorted : bindings.Pairwise fun a b => a.1 < b.1

namespace Table

variable {α β : Type}

/-! ### Bindings -/

/-- The content bound to `k` in a list of bindings. -/
def find (k : Key) : List (Key × α) → Option α
  | [] => none
  | (j, x) :: r => if j = k then some x else find k r

/-- Puts a binding in its place, displacing the one of the same key. -/
def place (k : Key) (x : α) : List (Key × α) → List (Key × α)
  | [] => [(k, x)]
  | (j, y) :: r =>
    if k < j then (k, x) :: (j, y) :: r
    else if k = j then (k, x) :: r
    else (j, y) :: place k x r

theorem mem_place {k : Key} {x : α} {b : Key × α} {l : List (Key × α)}
    (h : b ∈ place k x l) : b = (k, x) ∨ b ∈ l := by
  induction l with
  | nil => simpa [place] using h
  | cons c r ih => grind [place]

theorem place_sorted (k : Key) (x : α) {l : List (Key × α)}
    (h : l.Pairwise fun a b => a.1 < b.1) :
    (place k x l).Pairwise fun a b => a.1 < b.1 := by
  induction l with
  | nil => simp [place]
  | cons c r ih =>
    obtain ⟨j, y⟩ := c
    have hr := List.pairwise_cons.1 h
    rw [place]
    split
    · next hk =>
      refine List.pairwise_cons.2 ⟨fun b hb => ?_, h⟩
      rcases List.mem_cons.1 hb with rfl | hb
      · exact hk
      · exact String.lt_trans hk (hr.1 b hb)
    · next hk =>
      split
      · next hj =>
        subst hj
        exact List.pairwise_cons.2 ⟨hr.1, hr.2⟩
      · next hj =>
        refine List.pairwise_cons.2 ⟨fun b hb => ?_, ih hr.2⟩
        rcases mem_place hb with rfl | hb
        · by_cases hlt : j < k
          · exact hlt
          · exact absurd (String.le_antisymm (String.not_lt.1 hlt) (String.not_lt.1 hk)) hj
        · exact hr.1 b hb

/-! ### Operations -/

def empty : Table α := ⟨[], .nil⟩

instance : Inhabited (Table α) := ⟨empty⟩

def get? (t : Table α) (k : Key) : Option α := find k t.bindings

/-- Binds `k` to `x`, whatever it was bound to before. -/
def insert (t : Table α) (k : Key) (x : α) : Table α :=
  ⟨place k x t.bindings, place_sorted k x t.sorted⟩

/-- Forgets the binding of `k`, if there is one. -/
def erase (t : Table α) (k : Key) : Table α :=
  ⟨t.bindings.filter fun b => b.1 != k, t.sorted.filter _⟩

/-- Binds `k` to a content, or forgets its binding where there is none to give. -/
def assign (t : Table α) (k : Key) : Option α → Table α
  | some x => t.insert k x
  | none => t.erase k

/-- Adds the given bindings from left to right, so that the last of a key stays. -/
def insertAll (t : Table α) (l : List (Key × α)) : Table α :=
  l.foldl (fun t b => t.insert b.1 b.2) t

/-- The table of a list of bindings, the last of a key counting. -/
def ofList (l : List (Key × α)) : Table α := empty.insertAll l

def contains (t : Table α) (k : Key) : Bool := (t.get? k).isSome

/-- The bound keys, ascending. -/
def keys (t : Table α) : List Key := t.bindings.map (·.1)

/-- What keys are bound to, in the order of the keys. -/
def values (t : Table α) : List α := t.bindings.map (·.2)

def size (t : Table α) : Nat := t.bindings.length

def isEmpty (t : Table α) : Bool := t.bindings.isEmpty

/-! ### Look-ups determine a table -/

theorem find_eq_none_of_lt {k : Key} {l : List (Key × α)}
    (h : ∀ b ∈ l, k < b.1) : find k l = none := by
  induction l with
  | nil => rfl
  | cons c r ih =>
    obtain ⟨j, y⟩ := c
    have hj : k < j := h (j, y) List.mem_cons_self
    have hne : j ≠ k := fun e => String.lt_irrefl k (e ▸ hj)
    simp [find, hne, ih fun b hb => h b (List.mem_cons_of_mem _ hb)]

theorem find_eq_some_iff {k : Key} {x : α} {l : List (Key × α)}
    (h : l.Pairwise fun a b => a.1 < b.1) : find k l = some x ↔ (k, x) ∈ l := by
  induction l with
  | nil => simp [find]
  | cons c r ih =>
    obtain ⟨j, y⟩ := c
    have hr := List.pairwise_cons.1 h
    by_cases hj : j = k
    · subst hj
      have hnot : ∀ z, (j, z) ∉ r := fun z hz => String.lt_irrefl j (hr.1 _ hz)
      simp [find, hnot, eq_comm]
    · simp [find, hj, ih hr.2, Ne.symm hj]

theorem get?_eq_some_iff {t : Table α} {k : Key} {x : α} :
    t.get? k = some x ↔ (k, x) ∈ t.bindings :=
  find_eq_some_iff t.sorted

@[simp] theorem get?_empty (k : Key) : (empty : Table α).get? k = none := rfl

theorem find_place (k j : Key) (x : α) (l : List (Key × α)) :
    find j (place k x l) = if k = j then some x else find j l := by
  induction l with
  | nil => simp [place, find]
  | cons c r ih =>
    obtain ⟨i, y⟩ := c
    rw [place]
    split
    · simp [find]
    · split
      · next hki => subst hki; by_cases hj : k = j <;> simp [find, hj]
      · next hki =>
        by_cases hij : i = j
        · subst hij; simp [find, hki]
        · simp [find, hij, ih]

theorem get?_insert (t : Table α) (k j : Key) (x : α) :
    (t.insert k x).get? j = if k = j then some x else t.get? j :=
  find_place k j x t.bindings

@[simp] theorem get?_insert_self (t : Table α) (k : Key) (x : α) :
    (t.insert k x).get? k = some x := by simp [get?_insert]

theorem find_filter_ne (k j : Key) (l : List (Key × α)) :
    find j (l.filter fun b => b.1 != k) = if k = j then none else find j l := by
  induction l with
  | nil => simp [find]
  | cons c r ih =>
    obtain ⟨i, y⟩ := c
    by_cases hi : i = k
    · subst hi
      by_cases hj : i = j <;> simp_all [find]
    · by_cases hj : i = j
      · subst hj; simp [find, hi, Ne.symm hi]
      · simp_all [find]

theorem get?_erase (t : Table α) (k j : Key) :
    (t.erase k).get? j = if k = j then none else t.get? j :=
  find_filter_ne k j t.bindings

@[simp] theorem get?_erase_self (t : Table α) (k : Key) : (t.erase k).get? k = none := by
  simp [get?_erase]

theorem get?_erase_of_ne (t : Table α) {k j : Key} (h : k ≠ j) :
    (t.erase k).get? j = t.get? j := by simp [get?_erase, h]

theorem get?_assign (t : Table α) (k j : Key) (x : Option α) :
    (t.assign k x).get? j = if k = j then x else t.get? j := by
  cases x with
  | none => exact get?_erase t k j
  | some y => exact get?_insert t k j y

theorem bindings_eq {l m : List (Key × α)}
    (hl : l.Pairwise fun a b => a.1 < b.1) (hm : m.Pairwise fun a b => a.1 < b.1)
    (h : ∀ k, find k l = find k m) : l = m := by
  induction l generalizing m with
  | nil =>
    cases m with
    | nil => rfl
    | cons c r => have := h c.1; simp [find] at this
  | cons c r ih =>
    obtain ⟨k, x⟩ := c
    cases m with
    | nil => have := h k; simp [find] at this
    | cons d s =>
      obtain ⟨j, y⟩ := d
      have hr := List.pairwise_cons.1 hl
      have hs := List.pairwise_cons.1 hm
      have hkm : (k, x) ∈ (j, y) :: s :=
        (find_eq_some_iff hm).1 ((h k).symm.trans (by simp [find]))
      have hjl : (j, y) ∈ (k, x) :: r :=
        (find_eq_some_iff hl).1 ((h j).trans (by simp [find]))
      have hkj : k = j := by
        rcases List.mem_cons.1 hkm with e | hk
        · exact congrArg Prod.fst e
        · rcases List.mem_cons.1 hjl with e | hj
          · exact (congrArg Prod.fst e).symm
          · exact absurd (hs.1 _ hk) (String.lt_asymm (hr.1 _ hj))
      subst hkj
      obtain rfl : x = y := by have := h k; simp_all [find]
      congr 1
      refine ih hr.2 hs.2 fun i => ?_
      by_cases hi : k = i
      · subst hi
        rw [find_eq_none_of_lt hr.1, find_eq_none_of_lt hs.1]
      · simpa [find, hi] using h i

/-- Tables that answer every look-up alike are equal. -/
@[ext] theorem ext_get? {t u : Table α} (h : ∀ k, t.get? k = u.get? k) : t = u := by
  obtain ⟨l, hl⟩ := t
  obtain ⟨m, hm⟩ := u
  obtain rfl : l = m := bindings_eq hl hm h
  rfl

/-! ### Keys and contents -/

theorem keys_sorted (t : Table α) : t.keys.Pairwise (· < ·) :=
  List.pairwise_map.2 t.sorted

/-- Keys that ascend are different from one another. -/
theorem nodup_of_ascending {l : List Key} (h : l.Pairwise (· < ·)) : l.Nodup :=
  List.Pairwise.imp (fun {j k} (hlt : j < k) (heq : j = k) => String.lt_irrefl k (heq ▸ hlt)) h

theorem mem_keys {t : Table α} {k : Key} : k ∈ t.keys ↔ t.contains k = true := by
  simp only [keys, List.mem_map, contains, Option.isSome_iff_exists]
  constructor
  · rintro ⟨⟨j, x⟩, h, rfl⟩
    exact ⟨x, get?_eq_some_iff.2 h⟩
  · rintro ⟨x, h⟩
    exact ⟨(k, x), get?_eq_some_iff.1 h, rfl⟩

theorem isEmpty_iff {t : Table α} : t.isEmpty = true ↔ ∀ k, t.get? k = none := by
  constructor
  · intro h k
    have : t.bindings = [] := by simpa [isEmpty] using h
    simp [get?, this, find]
  · intro h
    have : t = empty := ext_get? fun k => by simp [h k]
    simp [this, isEmpty, empty]

@[simp] theorem insertAll_cons (t : Table α) (b : Key × α) (l : List (Key × α)) :
    t.insertAll (b :: l) = (t.insert b.1 b.2).insertAll l := rfl

theorem assign_assign (t : Table α) (k : Key) (x y : Option α) :
    (t.assign k x).assign k y = t.assign k y := by
  ext j
  simp only [get?_assign]
  split <;> rfl

theorem assign_comm (t : Table α) {j k : Key} (h : j ≠ k) (x y : Option α) :
    (t.assign j x).assign k y = (t.assign k y).assign j x := by
  ext i
  simp only [get?_assign]
  grind

/-- All contents are that of a key and those of the others. -/
theorem any_values (t : Table α) (k : Key) (f : α → Bool) :
    t.values.any f = ((t.get? k).any f || (t.erase k).values.any f) := by
  have hmem : ∀ u : Table α, u.values.any f = true ↔ ∃ j x, u.get? j = some x ∧ f x = true := by
    intro u
    simp only [values, List.any_map, List.any_eq_true, Prod.exists, get?_eq_some_iff,
      Function.comp_apply]
  rw [Bool.eq_iff_iff, Bool.or_eq_true, hmem, hmem, Option.any_eq_true]
  constructor
  · rintro ⟨j, x, hx, hf⟩
    by_cases hj : k = j
    · exact .inl ⟨x, hj ▸ hx, hf⟩
    · exact .inr ⟨j, x, by rw [get?_erase_of_ne t hj, hx], hf⟩
  · rintro (⟨x, hx, hf⟩ | ⟨j, x, hx, hf⟩)
    · exact ⟨k, x, hx, hf⟩
    · by_cases hj : k = j
      · simp [hj] at hx
      · exact ⟨j, x, by rw [← hx, get?_erase_of_ne t hj], hf⟩

theorem erase_of_not_contains {t : Table α} {k : Key} (h : t.contains k = false) :
    t.erase k = t := by
  ext j
  have hk : t.get? k = none := by simpa [contains] using h
  grind [get?_erase]

end Table

end Ambient
