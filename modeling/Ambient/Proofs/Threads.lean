import Ambient.Proofs.Coupling

/-! Threads and their turns. In its turn a thread does something of its own: it writes its slots,
installs a snapshot of slots that other threads may install as well, ends a window, polls a task, or
lets a registry be in force or be no longer. What the embedding program keeps for a thread, such as
the state of its tasks, is for that thread alone. The turns of all threads come one after another
in any order. Proved: a thread observes the same, and has the same in the end, as if it had been
alone, and turns of different threads may change places. -/

namespace Ambient

variable {μ ν α ω : Type}

/-! ### Programs that keep to their thread -/

def Accessor.IsSlot (a : Accessor) : Prop := ∃ k, a = .slot k

/-- Code of the thread's own, which sees and changes what the program keeps for the running
thread. -/
def Action.atHome (f : μ → Exit α × μ) : Action (ThreadName → μ) ν α := fun p =>
  let answer := f (p.host p.here)
  (answer.1, { p with host := Function.update p.host p.here answer.2 })

/-- Programs that use the library's operations on the running thread, with slots only. A snapshot
may come from anywhere. -/
inductive Confined : {α : Type} → Action (ThreadName → μ) ν α → Prop
  | atHome {α : Type} (f : μ → Exit α × μ) : Confined (Action.atHome f)
  | bind {α β : Type} {m : Action (ThreadName → μ) ν α} {f : α → Action (ThreadName → μ) ν β}
      (hm : Confined m) (hf : ∀ a, Confined (f a)) : Confined (m >>= f)
  | attempt {α : Type} {m : Action (ThreadName → μ) ν α} (hm : Confined m) :
      Confined (Action.attempt m)
  | holding {α : Type} {m : Action (ThreadName → μ) ν α} (values : List Value) (hm : Confined m) :
      Confined (Action.holding values m)
  | under {α : Type} {m : Action (ThreadName → μ) ν α} (r : RegistryId) (hm : Confined m) :
      Confined (Registry.within r m)
  | deed {α : Type} (H : Host (ThreadName → μ) ν) {d : Deed α} (hd : d.Over Accessor.IsSlot) :
      Confined (d.run H)
  | within {α : Type} (H : Host (ThreadName → μ) ν) {s : Snapshot}
      (hs : ∀ e ∈ s.entries, e.accessor.IsSlot) {body : Action (ThreadName → μ) ν α}
      (hb : Confined body) : Confined (s.within H body)
  | poll {ω : Type} (H : Host (ThreadName → μ) ν) {t : Task}
      (ht : ∀ e ∈ t.bridge.snapshot.entries, e.accessor.IsSlot)
      {inner : Action (ThreadName → μ) ν (Progress ω)} (hb : Confined inner) :
      Confined (t.poll H inner).2

theorem Confined.pure (a : α) : Confined (Pure.pure a : Action (ThreadName → μ) ν α) := by
  have hpure : Action.atHome (fun memory => (.returned a, memory)) =
      (Pure.pure a : Action (ThreadName → μ) ν α) := by
    funext p
    simp only [Action.atHome, Function.update_eq_self]
    rfl
  rw [← hpure]
  exact .atHome _

/-! ### Two processes with the same thread running -/

namespace Process

/-- What belongs to a thread: its slots, its registries and its windows, and what the program keeps
for it. -/
def belongings (p : Process (ThreadName → μ) ν) (n : ThreadName) : Thread × μ :=
  (p.thread n, p.host n)

theorem thread_of_belongings {p q : Process (ThreadName → μ) ν} {n : ThreadName}
    (h : q.belongings n = p.belongings n) : q.thread n = p.thread n := congrArg Prod.fst h

theorem host_of_belongings {p q : Process (ThreadName → μ) ν} {n : ThreadName}
    (h : q.belongings n = p.belongings n) : q.host n = p.host n := congrArg Prod.snd h

/-- Windows are over slots. -/
def OverSlots (p : Process (ThreadName → μ) ν) : Prop :=
  ∀ n, ∀ win ∈ (p.thread n).windows, ∀ e ∈ win.priors, e.accessor.IsSlot

/-- In both processes thread `n` runs, and has the same. The other threads have what `B` and `B'`
tell. -/
structure Beside (n : ThreadName) (B B' : ThreadName → Thread × μ)
    (p p' : Process (ThreadName → μ) ν) : Prop where
  here : p.here = n
  here' : p'.here = n
  same : p'.belongings n = p.belongings n
  slots : ∀ win ∈ p.current.windows, ∀ e ∈ win.priors, e.accessor.IsSlot
  rest : ∀ k, k ≠ n → p.belongings k = B k
  rest' : ∀ k, k ≠ n → p'.belongings k = B' k

namespace Beside

variable {n : ThreadName} {B B' : ThreadName → Thread × μ} {p p' q q' : Process (ThreadName → μ) ν}

theorem current (h : Beside n B B' p p') : p'.current = p.current := by
  rw [Process.current, Process.current, h.here, h.here', thread_of_belongings h.same]

/-- Nothing but what belongs to threads is looked at. -/
theorem of_eq (h : Beside n B B' p p') (hq : q.here = p.here) (hq' : q'.here = p'.here)
    (hb : q.belongings = p.belongings) (hb' : q'.belongings = p'.belongings) :
    Beside n B B' q q' := by
  have hcurrent : q.current = p.current := by
    have hthread := congrArg (fun belongings => (belongings p.here).1) hb
    rw [Process.current, hq]
    exact hthread
  refine ⟨hq.trans h.here, hq'.trans h.here', ?_, ?_, ?_, ?_⟩
  · rw [hb, hb']
    exact h.same
  · rw [hcurrent]
    exact h.slots
  · rw [hb]
    exact h.rest
  · rw [hb']
    exact h.rest'

theorem modifyCurrent (h : Beside n B B' p p') {f : Thread → Thread}
    (hf : ∀ win ∈ (f p.current).windows, ∀ e ∈ win.priors, e.accessor.IsSlot) :
    Beside n B B' (p.modifyCurrent f) (p'.modifyCurrent f) := by
  have hother : ∀ k, k ≠ n → (p.modifyCurrent f).belongings k = p.belongings k := fun k hk => by
    rw [belongings, thread_modifyCurrent, if_neg fun heq => hk (heq.trans h.here)]
    rfl
  have hother' : ∀ k, k ≠ n → (p'.modifyCurrent f).belongings k = p'.belongings k := fun k hk => by
    rw [belongings, thread_modifyCurrent, if_neg fun heq => hk (heq.trans h.here')]
    rfl
  have hmemory := congrArg Prod.snd h.same
  refine ⟨h.here, h.here', ?_, ?_, fun k hk => ?_, fun k hk => ?_⟩
  · rw [belongings, belongings, thread_modifyCurrent, thread_modifyCurrent, if_pos h.here.symm,
      if_pos h.here'.symm, h.current]
    exact congrArg (Prod.mk _) hmemory
  · rw [Process.modifyCurrent, current_setCurrent]
    exact hf
  · rw [hother k hk]
    exact h.rest k hk
  · rw [hother' k hk]
    exact h.rest' k hk

/-- The running thread's memory changes in the same way. -/
theorem remember (h : Beside n B B' p p') (memory : μ) :
    Beside n B B' { p with host := Function.update p.host p.here memory }
      { p' with host := Function.update p'.host p'.here memory } := by
  have hthread := congrArg Prod.fst h.same
  refine ⟨h.here, h.here', ?_, h.slots, fun k hk => ?_, fun k hk => ?_⟩
  · simp only [belongings, h.here, h.here', Function.update_self]
    exact congrArg (·, memory) hthread
  · simp only [belongings, h.here, Function.update_of_ne hk]
    exact h.rest k hk
  · simp only [belongings, h.here', Function.update_of_ne hk]
    exact h.rest' k hk

/-- The library looks at nothing but what belongs to the running thread, as long as all windows are
over slots. -/
theorem coupling (n : ThreadName) (B B' : ThreadName → Thread × μ) (H : Host (ThreadName → μ) ν) :
    Coupling H H Accessor.IsSlot (Beside n B B') where
  here h := h.here'.trans h.here.symm
  current h := h.current
  priors h := h.slots
  stored h _ := h.modifyCurrent h.slots
  stacked h _ := h.modifyCurrent h.slots
  opened h s priors hp := by
    refine h.modifyCurrent fun win hw => ?_
    rcases List.mem_append.1 hw with hw | hw
    · exact h.slots win hw
    · rw [List.mem_singleton.1 hw]
      exact hp
  marked h i status := by
    refine h.modifyCurrent fun win hw => ?_
    obtain ⟨j, hj⟩ := List.mem_iff_getElem?.1 hw
    rw [List.getElem?_modify] at hj
    obtain ⟨old, hold, rfl⟩ := Option.map_eq_some_iff.1 hj
    have hslots := h.slots old (List.mem_of_getElem? hold)
    split <;> exact hslots
  held h _ := h.of_eq rfl rfl rfl rfl
  unheld h _ := h.of_eq rfl rfl rfl rfl
  swept h := h.of_eq rfl rfl rfl rfl
  logged h _ := h.of_eq rfl rfl rfl rfl
  called h _ := h.of_eq rfl rfl rfl rfl
  read k ref hslot := absurd hslot (by simp [Accessor.IsSlot])
  write k ref hslot := absurd hslot (by simp [Accessor.IsSlot])
  clear k ref hslot := absurd hslot (by simp [Accessor.IsSlot])

end Beside

end Process

/-- Programs that keep to their thread find and leave it the same, whatever other threads have. -/
theorem Confined.agree {m : Action (ThreadName → μ) ν α} (hm : Confined m) (n : ThreadName)
    (B B' : ThreadName → Thread × μ) : Action.Agree (Process.Beside n B B') m m := by
  induction hm with
  | atHome f =>
    intro p p' h
    have hmemory : p'.host p'.here = p.host p.here := by
      rw [h.here, h.here', Process.host_of_belongings h.same]
    rw [Action.atHome, Action.atHome, hmemory]
    exact ⟨rfl, h.remember _⟩
  | bind _ _ hm hf => exact hm.bind hf
  | attempt _ hm => exact hm.attempt
  | @holding α m values _ hm =>
    intro p p' h
    have hheld : Process.Beside n B B' (p.hold values) (p'.hold values) := h.of_eq rfl rfl rfl rfl
    obtain ⟨hexit, hbeside⟩ := hm _ _ hheld
    rw [Action.holding_apply, Action.holding_apply]
    exact ⟨hexit, hbeside.of_eq rfl rfl rfl rfl⟩
  | under r _ hm => exact hm.under (fun h _ => h.modifyCurrent h.slots) r
  | deed H hd => exact (Process.Beside.coupling n B B' H).deed hd
  | within H hs _ hb => exact (Process.Beside.coupling n B B' H).within hs hb
  | poll H ht _ hb => exact (Process.Beside.coupling n B B' H).poll ht hb

/-! ### Turns -/

/-- What a thread does in its turn. What it observes is what the program answers. -/
structure Turn (μ ν ω : Type) where
  thread : ThreadName
  program : Action (ThreadName → μ) ν ω
  confined : Confined program

/-- Threads take turns. Answered is what they observe, each thread in its turn. -/
def runTurns : List (Turn μ ν ω) → Process (ThreadName → μ) ν →
    List (ThreadName × Exit ω) × Process (ThreadName → μ) ν
  | [], p => ([], p)
  | turn :: rest, p =>
    let (exit, q) := Action.onThread turn.thread turn.program p
    let (exits, last) := runTurns rest q
    ((turn.thread, exit) :: exits, last)

namespace Turn

variable {p p' : Process (ThreadName → μ) ν}

/-- A thread observes the same in its turn, and changes what belongs to it in the same way, wherever
the same belongs to it; other threads keep what they have. -/
theorem apart (turn : Turn μ ν ω) (hp : p.OverSlots)
    (h : p'.belongings turn.thread = p.belongings turn.thread) :
    (Action.onThread turn.thread turn.program p').1 =
        (Action.onThread turn.thread turn.program p).1 ∧
      (Action.onThread turn.thread turn.program p').2.belongings turn.thread =
        (Action.onThread turn.thread turn.program p).2.belongings turn.thread ∧
      (∀ k, k ≠ turn.thread → (Action.onThread turn.thread turn.program p).2.belongings k =
        p.belongings k) ∧
      (Action.onThread turn.thread turn.program p).2.OverSlots := by
  have hbeside : Process.Beside turn.thread p.belongings p'.belongings (p.entered turn.thread)
      (p'.entered turn.thread) :=
    ⟨rfl, rfl, h, hp turn.thread, fun _ _ => rfl, fun _ _ => rfl⟩
  obtain ⟨hexit, hlast⟩ := turn.confined.agree _ _ _ _ _ hbeside
  have hslots := hlast.slots
  rw [Process.current, hlast.here] at hslots
  refine ⟨hexit, hlast.same, hlast.rest, fun k => ?_⟩
  by_cases hk : k = turn.thread
  · rw [hk]
    exact hslots
  · have hkept : (Action.onThread turn.thread turn.program p).2.belongings k = p.belongings k :=
      hlast.rest k hk
    rw [Process.thread_of_belongings hkept]
    exact hp k

/-- The turns of one thread, in their order. -/
def ofThread (n : ThreadName) (turns : List (Turn μ ν ω)) : List (Turn μ ν ω) :=
  turns.filter fun turn => turn.thread = n

/-- What one thread observes among what all do. -/
def observed (n : ThreadName) (answers : List (ThreadName × Exit ω)) : List (Exit ω) :=
  (answers.filter fun answer => answer.1 = n).map Prod.snd

/-- From processes in which the same belongs to a thread, the turns of all threads lead to what
that thread's turns lead to alone, as far as it can tell. -/
theorem runTurns_ofThread (n : ThreadName) (turns : List (Turn μ ν ω)) (hp : p.OverSlots)
    (h : p'.belongings n = p.belongings n) :
    observed n (runTurns turns p).1 = observed n (runTurns (ofThread n turns) p').1 ∧
      (runTurns turns p).2.belongings n = (runTurns (ofThread n turns) p').2.belongings n := by
  induction turns generalizing p p' with
  | nil => exact ⟨rfl, h.symm⟩
  | cons turn rest ih =>
    by_cases hturn : turn.thread = n
    · subst hturn
      obtain ⟨hexit, hsame, -, hslots⟩ := turn.apart hp h
      obtain ⟨hobserved, hlast⟩ := ih hslots hsame
      have hcons : ofThread turn.thread (turn :: rest) = turn :: ofThread turn.thread rest :=
        List.filter_cons_of_pos (by simp)
      rw [hcons]
      refine ⟨?_, hlast⟩
      simp only [observed, runTurns, decide_true, List.filter_cons_of_pos, List.map_cons, hexit]
      exact congrArg _ hobserved
    · obtain ⟨-, -, hother, hslots⟩ := turn.apart hp rfl
      have hkept := hother n (Ne.symm hturn)
      obtain ⟨hobserved, hlast⟩ := ih hslots (h.trans hkept.symm)
      have hcons : ofThread n (turn :: rest) = ofThread n rest :=
        List.filter_cons_of_neg (by simpa using hturn)
      rw [hcons]
      refine ⟨?_, hlast⟩
      simpa [observed, runTurns, hturn] using hobserved

/-- Threads that take turns do not interfere. -/
theorem observed_runTurns_eq_alone (turns : List (Turn μ ν ω)) (hp : p.OverSlots) :
    (∀ n, observed n (runTurns turns p).1 = observed n (runTurns (ofThread n turns) p).1 ∧
      (runTurns turns p).2.belongings n = (runTurns (ofThread n turns) p).2.belongings n) ∧
    ∀ before a b after, turns = before ++ a :: b :: after → a.thread ≠ b.thread → ∀ n,
      observed n (runTurns (before ++ b :: a :: after) p).1 = observed n (runTurns turns p).1 ∧
        (runTurns (before ++ b :: a :: after) p).2.belongings n =
          (runTurns turns p).2.belongings n := by
  refine ⟨fun n => runTurns_ofThread n turns hp rfl, ?_⟩
  rintro before a b after rfl hab n
  have hsame : ofThread n (before ++ b :: a :: after) = ofThread n (before ++ a :: b :: after) := by
    simp only [ofThread, List.filter_append, List.filter_cons]
    by_cases ha : a.thread = n
    · have hb : b.thread ≠ n := fun hb => hab (ha.trans hb.symm)
      simp [ha, hb]
    · simp [ha]
  obtain ⟨hobserved, hlast⟩ := runTurns_ofThread n (before ++ a :: b :: after) hp rfl
  obtain ⟨hobserved', hlast'⟩ := runTurns_ofThread n (before ++ b :: a :: after) hp rfl
  rw [hsame] at hobserved' hlast'
  exact ⟨hobserved'.trans hobserved.symm, hlast'.trans hlast.symm⟩

/-- An embedding program whose accessors do nothing. -/
def idle : Host (ThreadName → Nat) Unit where
  behaviour _ := { read := return none, write := fun _ => return .ok (), clear := return .ok () }
  holds _ _ := false

/-- A slot with a value, for all threads to install. -/
def shared : Snapshot where
  entries := [⟨.slot "a", some ⟨.numbered 0, .unit⟩⟩]

theorem isSlot_shared : ∀ e ∈ shared.entries, e.accessor.IsSlot := by
  intro e he
  rw [List.mem_singleton.1 he]
  exact ⟨"a", rfl⟩

/-- A turn in which a thread calls an operation, and observes whether it succeeded. -/
def doing (n : ThreadName) (op : Operation (Except Failure α)) (hasks : op.asksRegistry = false)
    (hover : op.Over Accessor.IsSlot) : Turn Nat Unit Bool where
  thread := n
  program := do return (← op.perform idle).isOk
  confined := (Confined.deed (d := .operation op hasks) idle hover).bind fun _ => .pure _

/-- A turn in which a thread polls a task that counts how often it was polled. -/
def polling (n : ThreadName) : Turn Nat Unit Bool where
  thread := n
  program := do
    return (← (Task.poll idle { bridge := ⟨shared⟩ } (Action.atHome fun polls =>
      (.returned (Progress.ready ()), polls + 1))).2).isOk
  confined := (Confined.poll idle isSlot_shared (.atHome _)).bind fun _ => .pure _

/-- One thread installs the snapshot, polls its task and ends the window. Another one installs the
snapshot too, and puts another value into the slot. -/
def relay : List (Turn Nat Unit Bool) :=
  [doing "one" (.install shared) rfl isSlot_shared, doing "two" (.install shared) rfl isSlot_shared,
    polling "one", doing "two" (.writeSlot "a" (some ⟨.numbered 1, .unit⟩)) rfl trivial,
    doing "one" (.close 0) rfl trivial]

def fresh : Process (ThreadName → Nat) Unit where
  here := "main"
  host _ := 0

/-- The thread that ended its window has an empty slot again, and had its task polled once; the
other one has its own value in its slot. -/
theorem observed_relay_eq_alone :
    ((runTurns relay fresh).2.thread "one").storage.get? "a" = none ∧
      (runTurns relay fresh).2.host "one" = 1 ∧
      ((runTurns relay fresh).2.thread "two").storage.get? "a" = some ⟨.numbered 1, .unit⟩ ∧
      observed "two" (runTurns relay fresh).1 = [.returned true, .returned true] := by
  have hslots : fresh.OverSlots := fun n win hw => absurd hw List.not_mem_nil
  obtain ⟨halone, -⟩ := observed_runTurns_eq_alone relay hslots
  obtain ⟨-, hone⟩ := halone "one"
  obtain ⟨hobserved, htwo⟩ := halone "two"
  rw [Process.thread_of_belongings hone, Process.host_of_belongings hone,
    Process.thread_of_belongings htwo, hobserved]
  refine ⟨?_, ?_, ?_, ?_⟩
  · decide +kernel
  · decide +kernel
  · decide +kernel
  · decide +kernel

end Turn

end Ambient
