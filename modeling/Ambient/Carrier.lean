import Ambient.Accessor
import Ambient.Value

/-! Carriers. A carrier hands ambient values along a pipeline. It never changes: each
operation answers a new carrier, and all others answer as before. -/

namespace Ambient

/-- Values by key. -/
abbrev Carrier := Table Value

namespace Carrier

def single (k : Key) (v : Value) : Carrier := Table.empty.insert k v

/-- The entries of `c` whose keys have an accessor in `r`. -/
def valuesIn (r : Registry) (c : Carrier) : Carrier :=
  ⟨c.bindings.filter fun b => r.isRegistered b.1, c.sorted.filter _⟩

theorem find_filter_key (p : Key → Bool) (k : Key) (l : List (Key × Value)) :
    Table.find k (l.filter fun b => p b.1) = if p k then Table.find k l else none := by
  induction l with
  | nil => simp [Table.find]
  | cons b rest ih =>
    obtain ⟨j, v⟩ := b
    by_cases hj : j = k
    · subst hj
      cases hp : p j <;> simp_all [Table.find]
    · cases hp : p j <;> simp_all [Table.find]

theorem get?_valuesIn (r : Registry) (c : Carrier) (k : Key) :
    (valuesIn r c).get? k = if r.isRegistered k then c.get? k else none :=
  find_filter_key r.isRegistered k c.bindings

/-- What a carrier has for registered keys depends on no order. -/
theorem valuesIn_of_alike {r s : Registry} (h : r.Alike s) (c : Carrier) :
    c.valuesIn s = c.valuesIn r := by
  ext1 k
  rw [get?_valuesIn, get?_valuesIn, h.isRegistered]

end Carrier

end Ambient
