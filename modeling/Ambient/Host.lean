import Ambient.Action

/-! Embedding programs, and who holds a value. What the functions behind a custom accessor do is up
to the embedding program. A value that has code of its own is watched: when nobody holds it any
more, it is released. All that this code does here is look at slots. -/

namespace Ambient

/-! ### Embedding programs -/

/-- The functions behind a custom accessor. -/
structure Behaviour (η ν : Type) where
  read : Action η ν (Option Value)
  write : Value → Action η ν (Except Failure Unit)
  clear : Action η ν (Except Failure Unit)

/-- An embedding program: its accessors' functions, and the values it holds. -/
structure Host (η ν : Type) where
  /-- The functions registered under a number. -/
  behaviour : Nat → Behaviour η ν
  /-- Whether the program's own state keeps the value of identity `i` alive. -/
  holds : Identity → η → Bool

/-! ### Who holds a value -/

variable {η ν : Type} (H : Host η ν)

namespace Process

/-- Whether anything at all keeps the value of identity `i` alive. -/
def holds (i : Identity) (p : Process η ν) : Bool :=
  p.threads.values.any (Thread.holds i) || p.pinned.any (Value.mentions i) || H.holds i p.host

/-- The process while it holds some more values. -/
def hold (values : List Value) (p : Process η ν) : Process η ν :=
  { p with pinned := values ++ p.pinned }

/-- The process when it gives up the values that it came to hold last. -/
def unhold (n : Nat) (p : Process η ν) : Process η ν := { p with pinned := p.pinned.drop n }

/-- The event of a value's release, with what its own code reads in the state `p`. -/
def releaseEvent (p : Process η ν) (v : Value) : Event ν :=
  .released v (v.watches.map fun k => (k, p.slot? k))

/-- The process when the values that have code of their own and that nobody holds any more have been
released, where their code may look at slots. -/
def sweep (p : Process η ν) : Process η ν :=
  let (kept, gone) := p.watchers.partition fun v => p.holds H v.id
  { p with watchers := kept, history := (gone.map p.releaseEvent).reverse ++ p.history }

@[simp] theorem unhold_hold (p : Process η ν) (values : List Value) :
    (p.hold values).unhold values.length = p := by
  simp [hold, unhold]

@[simp] theorem current_sweep (p : Process η ν) : (p.sweep H).current = p.current := rfl

end Process

end Ambient
