import Ambient.Table

/-! Lists sorted by key. Nothing here knows what is sorted. -/

namespace Ambient

variable {α : Type}

/-- Puts `x` into a sorted list, before all that has no lesser key. -/
def sortIn (key : α → Key) (x : α) : List α → List α
  | [] => [x]
  | y :: rest => if key y < key x then y :: sortIn key x rest else x :: y :: rest

/-- Sorts by key. What has the same key stays in the order that it is in. -/
def sortBy (key : α → Key) : List α → List α
  | [] => []
  | x :: rest => sortIn key x (sortBy key rest)

variable {key : α → Key}

theorem sortIn_perm (x : α) (l : List α) : (sortIn key x l).Perm (x :: l) := by
  induction l with
  | nil => exact .refl _
  | cons y rest ih =>
    rw [sortIn]
    split
    · exact (ih.cons y).trans (.swap x y rest)
    · exact .refl _

theorem sortBy_perm (l : List α) : (sortBy key l).Perm l := by
  induction l with
  | nil => exact .refl _
  | cons x rest ih => exact (sortIn_perm x _).trans (ih.cons x)

theorem sortIn_ascending {x : α} {l : List α} (h : l.Pairwise fun a b => key a ≤ key b) :
    (sortIn key x l).Pairwise fun a b => key a ≤ key b := by
  induction l with
  | nil => exact List.pairwise_singleton _ x
  | cons y rest ih =>
    have hrest := List.pairwise_cons.1 h
    rw [sortIn]
    split
    · next hlt =>
      refine List.pairwise_cons.2 ⟨fun b hb => ?_, ih hrest.2⟩
      rcases List.mem_cons.1 ((sortIn_perm x rest).subset hb) with rfl | hb
      · exact String.not_lt.1 (String.lt_asymm hlt)
      · exact hrest.1 b hb
    · next hlt =>
      have hle : key x ≤ key y := String.not_lt.1 hlt
      refine List.pairwise_cons.2 ⟨fun b hb => ?_, h⟩
      rcases List.mem_cons.1 hb with rfl | hb
      · exact hle
      · exact String.le_trans hle (hrest.1 b hb)

theorem sortBy_ascending (l : List α) : (sortBy key l).Pairwise fun a b => key a ≤ key b := by
  induction l with
  | nil => exact .nil
  | cons x rest ih => exact sortIn_ascending ih

/-- Where keys are different, elements of the same key are the same. -/
theorem eq_of_key_eq {l : List α} (hd : (l.map key).Nodup) {a b : α} (ha : a ∈ l) (hb : b ∈ l)
    (h : key a = key b) : a = b := by
  induction l with
  | nil => exact absurd ha List.not_mem_nil
  | cons c rest ih =>
    obtain ⟨hc, hrest⟩ := List.nodup_cons.1 hd
    rcases List.mem_cons.1 ha with rfl | ha' <;> rcases List.mem_cons.1 hb with rfl | hb'
    · rfl
    · exact absurd (h ▸ List.mem_map_of_mem hb') hc
    · exact absurd (h ▸ List.mem_map_of_mem ha') hc
    · exact ih hrest ha' hb'

/-- Sorting forgets in which order things of different keys were. -/
theorem sortBy_eq_of_perm {l m : List α} (h : l.Perm m) (hd : (l.map key).Nodup) :
    sortBy key l = sortBy key m := by
  refine List.Perm.eq_of_pairwise (fun a b ha hb hab hba => ?_) (sortBy_ascending l)
    (sortBy_ascending m) ((sortBy_perm l).trans (h.trans (sortBy_perm m).symm))
  have hmem : b ∈ l := h.symm.subset ((sortBy_perm m).subset hb)
  exact eq_of_key_eq hd ((sortBy_perm l).subset ha) hmem (String.le_antisymm hab hba)

theorem map_sortIn (x : α) (l : List α) : (sortIn key x l).map key = sortIn id (key x) (l.map key) := by
  induction l with
  | nil => rfl
  | cons y rest ih =>
    simp only [sortIn, List.map_cons, id_eq, apply_ite (List.map key), ih]

theorem map_sortBy (l : List α) : (sortBy key l).map key = sortBy id (l.map key) := by
  induction l with
  | nil => rfl
  | cons x rest ih => rw [sortBy, map_sortIn, ih, List.map_cons, sortBy]

end Ambient
