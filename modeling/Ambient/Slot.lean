import Ambient.Host

/-! Slots of the running thread. An operation that changes a slot has the slots lent out to it for as
long as the change takes, and whoever looks at them or wants them lent meanwhile panics. A value that
a slot gives up is therefore let go only when the slots have been given back: its own code may run
then, and may look at slots. -/

namespace Ambient

variable {η ν α : Type} (H : Host η ν)

namespace Slot

/-- The failure of a slot on a thread that is past the end of its storage. -/
def destroyed (k : Key) : Failure := .accessor k "thread-local storage already destroyed"

/-! ### Lending the slots out -/

/-- A part of an operation on the slots of the running thread. The state tells whether they are lent
out. A panic ends the operation, and with it the loan. -/
abbrev Step (η ν : Type) : Type → Type := StateT Bool (Action η ν)

/-- Does something to the process that needs no slots. -/
def act (m : Action η ν α) : Step η ν α := StateT.lift m

/-- Carries out an operation on slots that are not lent out. -/
def perform (m : Step η ν α) : Action η ν α := do return (← m false).1

/-- What the slot `k` holds. Slots that are lent out cannot be looked at. -/
def look (k : Key) : Step η ν (Option Value) := fun lent p =>
  match p.current.storage with
  | .destroyed => (.returned (none, lent), p)
  | .live slots =>
    if lent then (.panicked "already mutably borrowed", p)
    else (.returned (slots.get? k, lent), p)

/-- Lends the slots out for `m`, which may change them. -/
def lending (m : Step η ν α) : Step η ν α := do
  if ← get then act (Action.panic "already borrowed")
  set true
  let a ← m
  set false
  return a

/-- Puts a content into the slot `k`, or empties it, and takes out what was there; the operation
holds that from now on. -/
def swap (k : Key) (content : Option Value) : Step η ν (Option Value) := fun lent p =>
  (.returned (p.slot? k, lent), (p.put k content).hold (p.slot? k).toList)

/-! ### Letting values go -/

/-- What the code of a released value finds in the slots that it looks at. -/
def lookAll : List Key → Step η ν (List (Key × Option Value))
  | [] => return []
  | k :: rest => do
    let content ← look k
    return (k, content) :: (← lookAll rest)

/-- Runs the code of values, one after another. -/
def runAll : List Value → Step η ν Unit
  | [] => return
  | v :: rest => do
    let readings ← lookAll v.watches
    act (Action.record (.released v readings))
    runAll rest

/-- Releases the values that have code of their own and that nobody holds any more. -/
def release : Step η ν Unit := do
  let (kept, gone) ← act (Action.inspect fun p =>
    p.watchers.partition fun v => p.holds H v.id)
  act (Action.change fun p => { p with watchers := kept })
  runAll gone

/-- Lets go of what was taken out of a slot. -/
def letGo (content : Option Value) : Step η ν Unit := do
  act (Action.change (·.unhold content.toList.length))
  release H

/-! ### Reading and writing -/

def read (k : Key) : Action η ν (Option Value) := perform (look k)

/-- Puts a value into a slot of the running thread, or empties it. What was there before is let go
when the slots have been given back. -/
def write (k : Key) (content : Option Value) : Action η ν (Except Failure Unit) := perform do
  match ← act (Action.inspect fun p => p.current.storage) with
  | .destroyed => return .error (destroyed k)
  | .live _ =>
    letGo H (← lending (swap k content))
    return .ok ()

/-- The running thread passes the end of its storage: its slots are gone, and what they held
is released after that, if nobody else holds it. -/
def destroyAll : Action η ν Unit := Action.change fun p =>
  (p.modifyCurrent fun t => { t with storage := .destroyed }).sweep H

/-! ### What the pieces do to a state -/

variable {H} {p : Process η ν}

theorem bind_of_returned {β : Type} {m : Step η ν α} {a : α} {lent lent' : Bool}
    {q : Process η ν} (h : m lent p = (.returned (a, lent'), q)) (f : α → Step η ν β) :
    (m >>= f) lent p = f a lent' q := Action.bind_of_returned h _

theorem perform_of_returned {m : Step η ν α} {a : α} {lent : Bool} {q : Process η ν}
    (h : m false p = (.returned (a, lent), q)) : perform m p = (.returned a, q) :=
  Action.bind_of_returned h _

theorem look_of_free (k : Key) (p : Process η ν) :
    look k false p = (.returned (p.slot? k, false), p) := by
  rw [look, Process.slot?]
  cases p.current.storage <;> rfl

theorem look_of_lent {slots : Table Value} (h : p.current.storage = .live slots) (k : Key) :
    look k true p = (.panicked "already mutably borrowed", p) := by
  rw [look, h]
  rfl

theorem lookAll_of_free (keys : List Key) (p : Process η ν) :
    lookAll keys false p = (.returned (keys.map fun k => (k, p.slot? k), false), p) := by
  induction keys with
  | nil => rfl
  | cons k rest ih =>
    rw [lookAll, bind_of_returned (look_of_free k p), bind_of_returned ih]
    rfl

theorem runAll_of_free (values : List Value) (p : Process η ν) :
    runAll values false p = (.returned ((), false),
      { p with history := (values.map p.releaseEvent).reverse ++ p.history }) := by
  induction values generalizing p with
  | nil => rfl
  | cons v rest ih =>
    rw [runAll, bind_of_returned (lookAll_of_free v.watches p)]
    refine (ih (p.record (p.releaseEvent v))).trans ?_
    rw [List.map_cons, List.reverse_cons, List.append_assoc]
    rfl

theorem lookAll_of_lent {slots : Table Value} (h : p.current.storage = .live slots)
    {keys : List Key} (hkeys : keys ≠ []) :
    lookAll keys true p = (.panicked "already mutably borrowed", p) := by
  cases keys with
  | nil => exact absurd rfl hkeys
  | cons k rest => exact Action.bind_of_panicked (look_of_lent h k) _

/-- Where slots are lent out, values cannot be let go whose code looks at some. -/
theorem runAll_of_lent {slots : Table Value} (h : p.current.storage = .live slots)
    {values : List Value} (hlooks : ∃ v ∈ values, v.watches ≠ []) :
    ∃ q, runAll values true p = (.panicked "already mutably borrowed", q) := by
  induction values generalizing p with
  | nil => simp at hlooks
  | cons v rest ih =>
    by_cases hv : v.watches = []
    · have hruns : runAll (v :: rest) true p = runAll rest true (p.record (.released v [])) := by
        rw [runAll, hv]
        rfl
      rw [hruns]
      obtain ⟨w, hw, hlooks⟩ := hlooks
      rcases List.mem_cons.1 hw with rfl | hw
      · exact absurd hv hlooks
      · exact ih h ⟨w, hw, hlooks⟩
    · exact ⟨p, Action.bind_of_panicked (lookAll_of_lent h hv) _⟩

variable (H)

theorem release_of_lent {slots : Table Value} (h : p.current.storage = .live slots)
    (hlooks : ∃ v ∈ p.watchers, p.holds H v.id = false ∧ v.watches ≠ []) :
    ∃ q, release H true p = (.panicked "already mutably borrowed", q) := by
  let halves := p.watchers.partition fun v => p.holds H v.id
  have hrelease : release H true p = runAll halves.2 true { p with watchers := halves.1 } := rfl
  obtain ⟨v, hv, hheld, hlooks⟩ := hlooks
  have hgone : v ∈ halves.2 := by simp [halves, hv, hheld]
  rw [hrelease]
  exact runAll_of_lent (p := { p with watchers := halves.1 }) h ⟨v, hgone, hlooks⟩

/-- Where slots are not lent out, releasing goes through. -/
theorem release_of_free (p : Process η ν) :
    release H false p = (.returned ((), false), p.sweep H) := by
  let halves := p.watchers.partition fun v => p.holds H v.id
  have hrelease : release H false p = runAll halves.2 false { p with watchers := halves.1 } := rfl
  rw [hrelease, runAll_of_free]
  rfl

omit H in
theorem read_apply (k : Key) (p : Process η ν) : Slot.read k p = (.returned (p.slot? k), p) :=
  perform_of_returned (look_of_free k p)

omit H in
theorem read_eq (k : Key) : (Slot.read k : Action η ν _) = Action.inspect fun p => p.slot? k :=
  funext (read_apply k)

/-- Outside of the loan, what is let go is released as anywhere. -/
theorem letGo_of_free (p : Process η ν) (content : Option Value) :
    letGo H content false (p.hold content.toList) = (.returned ((), false), p.sweep H) := by
  have hletGo : letGo H content false (p.hold content.toList) =
      release H false ((p.hold content.toList).unhold content.toList.length) := rfl
  rw [hletGo, Process.unhold_hold, release_of_free]

omit H in
theorem lending_swap (k : Key) (content : Option Value) (p : Process η ν) :
    lending (swap k content) false p =
      (.returned (p.slot? k, false), (p.put k content).hold (p.slot? k).toList) := rfl

/-- The content that was there is released when the slot has its new one and the slots are not lent
out any more. -/
theorem write_apply (k : Key) (content : Option Value) (p : Process η ν) :
    write H k content p = match p.current.storage with
      | .destroyed => (.returned (.error (destroyed k)), p)
      | .live _ => (.returned (.ok ()), (p.put k content).sweep H) := by
  have hstorage : (act (Action.inspect fun p => p.current.storage) : Step η ν Storage) false p =
      (.returned (p.current.storage, false), p) := rfl
  cases h : p.current.storage with
  | destroyed =>
    refine perform_of_returned (?_ : _ = (Exit.returned (_, false), p))
    rw [bind_of_returned hstorage, h]
    rfl
  | live slots =>
    refine perform_of_returned (?_ : _ = (Exit.returned (_, false), (p.put k content).sweep H))
    rw [bind_of_returned hstorage, h]
    refine (bind_of_returned (lending_swap k content p) _).trans ?_
    exact bind_of_returned (letGo_of_free H (p.put k content) (p.slot? k)) _

theorem write_live {slots : Table Value} (h : p.current.storage = .live slots) (k : Key)
    (content : Option Value) :
    write H k content p = (.returned (.ok ()),
      (p.modifyCurrent fun t => { t with storage := .live (slots.assign k content) }).sweep H) := by
  rw [write_apply, h, Process.put, Process.modifyCurrent, h]
  rfl

theorem write_destroyed (h : p.current.storage = .destroyed) (k : Key) (content : Option Value) :
    write H k content p = (.returned (.error (destroyed k)), p) := by
  rw [write_apply, h]

/-- A write to a slot never panics. -/
theorem write_returned (k : Key) (content : Option Value) (p : Process η ν) :
    ∃ answer q, write H k content p = (.returned answer, q) := by
  cases h : p.current.storage with
  | destroyed => exact ⟨_, _, write_destroyed H h k content⟩
  | live slots => exact ⟨_, _, write_live H h k content⟩

/-- A write changes the slot it is addressed to and no other. -/
theorem slot?_write {slots : Table Value} (h : p.current.storage = .live slots) (k j : Key)
    (content : Option Value) :
    (write H k content p).2.slot? j = if k = j then content else p.slot? j := by
  rw [write_live H h]
  simp [Process.slot?, Process.modifyCurrent, Storage.get?, h, Table.get?_assign]

end Slot

end Ambient
