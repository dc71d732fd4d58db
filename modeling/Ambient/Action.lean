import Ambient.Process

/-! Actions on the state of a process. An action ends by returning a value or by a panic;
either way it leaves the state as it made it, so that what was done before a panic
stays done. Sequencing stops at a panic, `attempt` catches one. -/

namespace Ambient

/-- How an action ends. -/
inductive Exit (α : Type) where
  | returned (a : α)
  /-- With a panic that says `text`. -/
  | panicked (text : String)
  deriving DecidableEq, Repr

/-- An action on the state of a process. -/
def Action (η ν α : Type) : Type := Process η ν → Exit α × Process η ν

variable {η ν α β : Type}

instance : Monad (Action η ν) where
  pure a := fun p => (.returned a, p)
  bind m f := fun p =>
    match m p with
    | (.returned a, p') => f a p'
    | (.panicked text, p') => (.panicked text, p')

theorem action_id_map (m : Action η ν α) : id <$> m = m := by
  funext p
  simp only [Functor.map, Function.comp, id_eq]
  rcases m p with ⟨_ | _, _⟩ <;> rfl

theorem action_bind_assoc {γ : Type} (m : Action η ν α) (f : α → Action η ν β)
    (g : β → Action η ν γ) : m >>= f >>= g = m >>= fun a => f a >>= g := by
  funext p
  simp only [bind]
  rcases m p with ⟨_ | _, _⟩ <;> rfl

instance : LawfulMonad (Action η ν) :=
  LawfulMonad.mk' _ action_id_map (fun _ _ => rfl) action_bind_assoc

namespace Action

def inspect (f : Process η ν → α) : Action η ν α := fun p => (.returned (f p), p)

def change (f : Process η ν → Process η ν) : Action η ν Unit := fun p => (.returned (), f p)

def panic (text : String) : Action η ν α := fun p => (.panicked text, p)

/-- Runs `m` and answers how it ended; a panic goes no further. -/
def attempt (m : Action η ν α) : Action η ν (Exit α) := fun p =>
  let (exit, p') := m p
  (.returned exit, p')

def finish (exit : Exit α) : Action η ν α := fun p => (exit, p)

/-- Runs `m`, then `after`, however `m` ended; a panic of `m` goes on after that. -/
def ensuring (m : Action η ν α) (after : Action η ν Unit) : Action η ν α := do
  let exit ← attempt m
  after
  finish exit

def record (e : Event ν) : Action η ν Unit := change fun p => p.record e

def log (e : LogEvent) : Action η ν Unit := record (.logged e)

/-- Runs `m` while holding values. -/
def holding (values : List Value) (m : Action η ν α) : Action η ν α := do
  change fun p => { p with pinned := values ++ p.pinned }
  ensuring m (change fun p => { p with pinned := p.pinned.drop values.length })

/-- Runs `m` on another thread, which the running one waits for. -/
def onThread (n : ThreadName) (m : Action η ν α) : Action η ν α := do
  let caller ← inspect Process.here
  change fun p => { p with here := n, waiting := caller :: p.waiting }
  ensuring m (change fun p => { p with here := caller, waiting := p.waiting.drop 1 })

/-! ### What the pieces do to a state -/

theorem pure_apply (a : α) (p : Process η ν) : (pure a : Action η ν α) p = (.returned a, p) := rfl

theorem bind_apply (m : Action η ν α) (f : α → Action η ν β) (p : Process η ν) :
    (m >>= f) p = match m p with
      | (.returned a, p') => f a p'
      | (.panicked text, p') => (.panicked text, p') := rfl

theorem bind_of_returned {m : Action η ν α} {a : α} {p p' : Process η ν}
    (h : m p = (.returned a, p')) (f : α → Action η ν β) : (m >>= f) p = f a p' := by
  rw [bind_apply, h]

theorem bind_of_panicked {m : Action η ν α} {text : String} {p p' : Process η ν}
    (h : m p = (.panicked text, p')) (f : α → Action η ν β) :
    (m >>= f) p = (.panicked text, p') := by
  rw [bind_apply, h]

/-- A sequence that returns has returned at every stage. -/
theorem returned_of_bind {m : Action η ν α} {f : α → Action η ν β} {b : β} {p q : Process η ν}
    (h : (m >>= f) p = (.returned b, q)) : ∃ a r, m p = (.returned a, r) ∧ f a r = (.returned b, q) := by
  rw [bind_apply] at h
  rcases hm : m p with ⟨a | text, r⟩ <;> rw [hm] at h
  · exact ⟨a, r, rfl, h⟩
  · exact absurd (congrArg Prod.fst h) (by simp)

theorem attempt_apply (m : Action η ν α) (p : Process η ν) :
    attempt m p = (.returned (m p).1, (m p).2) := rfl

theorem inspect_apply (f : Process η ν → α) (p : Process η ν) :
    inspect f p = (.returned (f p), p) := rfl

theorem change_apply (f : Process η ν → Process η ν) (p : Process η ν) :
    change f p = (.returned (), f p) := rfl

theorem ensuring_apply (m : Action η ν α) (f : Process η ν → Process η ν) (p : Process η ν) :
    ensuring m (change f) p = ((m p).1, f (m p).2) := rfl

end Action

/-- The process when thread `n` runs, for which the running one waits. -/
def Process.entered (n : ThreadName) (p : Process η ν) : Process η ν :=
  { p with here := n, waiting := p.here :: p.waiting }

/-- The process when thread `n` runs again, which waited for the running one. -/
def Process.reentered (n : ThreadName) (p : Process η ν) : Process η ν :=
  { p with here := n, waiting := p.waiting.drop 1 }

theorem Action.onThread_apply (n : ThreadName) (m : Action η ν α) (p : Process η ν) :
    onThread n m p = ((m (p.entered n)).1, (m (p.entered n)).2.reentered p.here) := rfl

end Ambient
