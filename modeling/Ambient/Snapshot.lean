import Ambient.Carrier

/-! Snapshots as data. A snapshot is an immutable list of entries, each an accessor
with the value captured through it or with the absence of one. Taking and installing
snapshots is the business of other modules. -/

namespace Ambient

/-- An accessor with a value, or with none. -/
structure Entry where
  accessor : Accessor
  value : Option Value
  deriving DecidableEq, Repr

namespace Entry

def key (e : Entry) : Key := e.accessor.key

/-- Whether holding the entry keeps the value of identity `i` alive. -/
def mentions (i : Identity) (e : Entry) : Bool := e.value.any (Value.mentions i)

/-- The value found under a key: `none` if no entry has the key, and otherwise the
entry's value or its absence. -/
def lookUp (k : Key) : List Entry → Option (Option Value)
  | [] => none
  | e :: rest => if e.key = k then some e.value else lookUp k rest

theorem lookUp_isSome_iff {k : Key} {l : List Entry} :
    (lookUp k l).isSome = true ↔ k ∈ l.map key := by
  induction l with
  | nil => simp [lookUp]
  | cons e rest ih =>
    by_cases h : e.key = k
    · simp [lookUp, h]
    · simp [lookUp, h, ih, Ne.symm h]

end Entry

/-- What was captured, in the order of the keys. -/
structure Snapshot where
  entries : List Entry
  deriving DecidableEq, Repr

namespace Snapshot

def keys (s : Snapshot) : List Key := s.entries.map Entry.key

def size (s : Snapshot) : Nat := s.entries.length

def isEmpty (s : Snapshot) : Bool := s.entries.isEmpty

/-- What was captured for a key: `none` if the key was not captured at all. -/
def get? (s : Snapshot) (k : Key) : Option (Option Value) := Entry.lookUp k s.entries

/-- Whether a key was captured, with a value or without. -/
def contains (s : Snapshot) (k : Key) : Bool := (s.get? k).isSome

def values (s : Snapshot) : List Value := s.entries.filterMap Entry.value

/-- The captured values that are there, as a carrier. -/
def toCarrier (s : Snapshot) : Carrier :=
  Table.ofList (s.entries.filterMap fun e => e.value.map fun v => (e.key, v))

theorem contains_iff {s : Snapshot} {k : Key} : s.contains k = true ↔ k ∈ s.keys :=
  Entry.lookUp_isSome_iff

end Snapshot

end Ambient
