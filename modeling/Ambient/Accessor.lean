import Ambient.Sorting

/-! Accessors and registries. An accessor gives access to one ambient value of the
running thread: the thread's own slot of a key, or something that the embedding
program keeps and gives access to by functions of its own. A registry says which
accessor stands for which key. It has them in no order of its own: whoever asks for
all of them gets them sorted by key. -/

namespace Ambient

/-! ### Accessors -/

inductive Accessor where
  /-- The slot of the key on the running thread. -/
  | slot (key : Key)
  /-- The functions that the embedding program registered under the number `ref`. -/
  | custom (key : Key) (ref : Nat)
  deriving DecidableEq, Repr

namespace Accessor

def key : Accessor → Key
  | slot key => key
  | custom key _ => key

end Accessor

/-! ### Registries -/

/-- The accessors of a program, at most one for each key. -/
structure Registry where
  /-- The accessors, in whatever order they happen to lie. -/
  listed : List Accessor
  /-- No two of them stand for the same key. -/
  distinct : (listed.map Accessor.key).Nodup

namespace Registry

def empty : Registry := ⟨[], .nil⟩

instance : Inhabited Registry := ⟨empty⟩

def get? (r : Registry) (k : Key) : Option Accessor := r.listed.find? fun a => a.key = k

/-- Takes the accessor of `k` away. -/
def unregister (r : Registry) (k : Key) : Registry :=
  ⟨r.listed.filter fun a => a.key ≠ k, r.distinct.sublist (List.filter_sublist.map _)⟩

/-- Lets `a` stand for its key, in place of any other accessor. -/
def register (r : Registry) (a : Accessor) : Registry :=
  ⟨a :: (r.unregister a.key).listed, List.nodup_cons.2 ⟨by simp [unregister], distinct _⟩⟩

def isRegistered (r : Registry) (k : Key) : Bool := (r.get? k).isSome

def size (r : Registry) : Nat := r.listed.length

def isEmpty (r : Registry) : Bool := r.listed.isEmpty

/-- The keys that have an accessor, ascending. -/
def keys (r : Registry) : List Key := sortBy id (r.listed.map Accessor.key)

/-- The accessors in the order of their keys. -/
def accessors (r : Registry) : List Accessor := sortBy Accessor.key r.listed

theorem get?_eq_some_iff {r : Registry} {k : Key} {a : Accessor} :
    r.get? k = some a ↔ a ∈ r.listed ∧ a.key = k := by
  constructor
  · intro h
    exact ⟨List.mem_of_find?_eq_some h, by simpa using List.find?_some h⟩
  · rintro ⟨ha, rfl⟩
    obtain ⟨b, hb⟩ := Option.isSome_iff_exists.1
      (List.find?_isSome.2 ⟨a, ha, decide_eq_true rfl⟩ : (r.get? a.key).isSome)
    have hkey : b.key = a.key := by simpa using List.find?_some hb
    exact eq_of_key_eq r.distinct (List.mem_of_find?_eq_some hb) ha hkey ▸ hb

@[simp] theorem get?_empty (k : Key) : empty.get? k = none := rfl

theorem get?_unregister (r : Registry) (j k : Key) :
    (r.unregister j).get? k = if j = k then none else r.get? k := by
  ext a
  rw [get?_eq_some_iff, unregister, List.mem_filter]
  grind [get?_eq_some_iff]

theorem get?_register (r : Registry) (a : Accessor) (k : Key) :
    (r.register a).get? k = if a.key = k then some a else r.get? k := by
  ext b
  rw [get?_eq_some_iff, register, List.mem_cons, unregister, List.mem_filter]
  grind [get?_eq_some_iff]

/-! ### What a registry lists -/

variable {r s : Registry} {k : Key} {a : Accessor}

theorem isRegistered_iff : r.isRegistered k = true ↔ k ∈ r.listed.map Accessor.key := by
  rw [isRegistered, Option.isSome_iff_exists, List.mem_map]
  exact exists_congr fun a => get?_eq_some_iff

/-- The keys of the accessors, in their order, are the registered keys. -/
theorem keys_accessors (r : Registry) : r.accessors.map Accessor.key = r.keys := map_sortBy r.listed

theorem mem_keys : k ∈ r.keys ↔ r.isRegistered k = true := by
  rw [keys, (sortBy_perm _).mem_iff, isRegistered_iff]

theorem nodup_keys (r : Registry) : r.keys.Nodup := (sortBy_perm _).nodup_iff.2 r.distinct

theorem keys_sorted (r : Registry) : r.keys.Pairwise (· < ·) := by
  refine (sortBy_ascending _).imp₂ (fun j k hle hne => ?_) r.nodup_keys
  exact String.not_le.1 fun hge => hne (String.le_antisymm hle hge)

theorem mem_accessors : a ∈ r.accessors ↔ r.get? a.key = some a := by
  rw [accessors, (sortBy_perm _).mem_iff, get?_eq_some_iff]
  simp

/-! ### Registries that answer alike -/

/-- The registries have the same accessors, in whatever orders these lie. -/
def Alike (r s : Registry) : Prop := ∀ k, s.get? k = r.get? k

namespace Alike

theorem refl (r : Registry) : r.Alike r := fun _ => rfl

theorem symm (h : r.Alike s) : s.Alike r := fun k => (h k).symm

theorem trans {t : Registry} (h : r.Alike s) (g : s.Alike t) : r.Alike t :=
  fun k => (g k).trans (h k)

theorem perm (h : r.Alike s) : s.listed.Perm r.listed := by
  have hnodup : ∀ t : Registry, t.listed.Nodup := fun t =>
    (List.pairwise_map.1 t.distinct).imp fun {a b} hab heq => hab (congrArg Accessor.key heq)
  refine (List.perm_ext_iff_of_nodup (hnodup s) (hnodup r)).2 fun a => ?_
  simpa only [get?_eq_some_iff, and_true] using Option.ext_iff.1 (h a.key) a

theorem accessors (h : r.Alike s) : s.accessors = r.accessors :=
  sortBy_eq_of_perm h.perm s.distinct

theorem of_accessors (h : s.accessors = r.accessors) : r.Alike s := by
  intro k
  ext a
  rw [get?_eq_some_iff, get?_eq_some_iff, ← (sortBy_perm s.listed).mem_iff,
    ← (sortBy_perm r.listed).mem_iff]
  exact (congrArg (a ∈ · ∧ a.key = k) h).to_iff

theorem keys (h : r.Alike s) : s.keys = r.keys := by
  rw [← keys_accessors, h.accessors, keys_accessors]

theorem size (h : r.Alike s) : s.size = r.size := h.perm.length_eq

theorem isEmpty (h : r.Alike s) : s.isEmpty = r.isEmpty := h.perm.isEmpty_eq

theorem isRegistered (h : r.Alike s) (k : Key) : s.isRegistered k = r.isRegistered k :=
  congrArg Option.isSome (h k)

theorem register (h : r.Alike s) (a : Accessor) : (r.register a).Alike (s.register a) := fun k => by
  rw [get?_register, get?_register, h k]

theorem unregister (h : r.Alike s) (j : Key) : (r.unregister j).Alike (s.unregister j) := fun k => by
  rw [get?_unregister, get?_unregister, h k]

end Alike

end Registry

end Ambient
