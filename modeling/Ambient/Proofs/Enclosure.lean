import Mathlib.Data.List.Induction
import Mathlib.Logic.Function.Iterate
import Ambient.Proofs.Coupling
import Ambient.Proofs.Lasting

/-! Registries in force while something runs. Each thread runs a program, which calls for registries
to be in force while parts of it run, one call inside another, and panics and catches panics at
any depth; the threads take their steps in any order. Where a thread is in its program is told by
frames, as in an abstract machine. Proved: at every moment the registries of a thread are those of
the calls around the place where it is, so that a call finds after it what there was before it,
however it ended, and no thread notices the calls of another. -/

namespace Ambient

variable {η ν α β ω : Type}

/-! ### Code that leaves the registries in force alone -/

namespace Process

/-- The same thread runs in `q` as in `p`, and on each thread the same registries are in force. -/
structure Level (p q : Process η ν) : Prop where
  here : q.here = p.here
  registries : ∀ n, (q.thread n).registries = (p.thread n).registries

theorem Level.refl (p : Process η ν) : p.Level p := ⟨rfl, fun _ => rfl⟩

theorem Level.trans {p q r : Process η ν} (h : p.Level q) (k : q.Level r) : p.Level r :=
  ⟨k.here.trans h.here, fun n => (k.registries n).trans (h.registries n)⟩

theorem level_modifyCurrent (p : Process η ν) {f : Thread → Thread}
    (hf : (f p.current).registries = p.current.registries) : p.Level (p.modifyCurrent f) := by
  refine ⟨rfl, fun n => ?_⟩
  rw [thread_modifyCurrent]
  split
  · next h => rw [hf, h, current]
  · rfl

theorem level_record (p : Process η ν) (e : Event ν) : p.Level (p.record e) := ⟨rfl, fun _ => rfl⟩

theorem level_opened (p : Process η ν) (s : Snapshot) (priors : List Entry) :
    p.Level (p.opened s priors) := p.level_modifyCurrent rfl

theorem level_marked (p : Process η ν) (i : Nat) (status : WindowStatus) :
    p.Level (p.marked i status) := p.level_modifyCurrent rfl

/-- What becomes of the registries in force if those of the running thread are changed. -/
theorem stacks_modifyCurrent (p : Process η ν) (f : List RegistryId → List RegistryId) :
    (p.modifyCurrent fun t => { t with registries := f t.registries }).current.registries =
        f p.current.registries ∧
      ∀ n, n ≠ p.here →
        ((p.modifyCurrent fun t => { t with registries := f t.registries }).thread n).registries =
          (p.thread n).registries := by
  refine ⟨?_, fun n hn => ?_⟩
  · rw [modifyCurrent, current_setCurrent]
  · rw [thread_modifyCurrent, if_neg hn]

end Process

/-- Whatever windows go through, the registries in force stay the same. -/
theorem Process.Level.lasting {H : Host η ν} (hH : ∀ ref, (H.behaviour ref).Lasts Level) :
    Lasting H (fun _ => True) Level where
  aside h := ⟨h.here, h.registries⟩
  called p _ _ := p.level_record _
  logged p _ _ _ := p.level_record _
  trans := .trans
  installed p s priors _ := (p.level_record _).trans ((p.record _).level_opened s priors)
  refused p s _ _ _ priors _ _ _ := (p.level_record _).trans ((p.record _).level_opened s priors)
  functions := hH
  restoring p _ := p.level_record _
  closed {p r i _} _ _ h :=
    (p.level_marked i _).trans (h.trans ((r.level_record _).trans ((r.record _).level_marked i _)))
  aborted {p r i _} _ _ h _ := (p.level_marked i _).trans (h.trans (r.level_marked i _))
  spoils := H.spoils_true

/-! ### Calls -/

/-- Which registry a call is for, by which something runs with a registry in force. -/
inductive Enclosure
  | given (r : RegistryId)
  /-- One that the call makes. -/
  | fresh

namespace Enclosure

/-- The call itself. -/
def around : Enclosure → Action η ν α → Action η ν α
  | given r, body => Registry.within r body
  | fresh, body => Registry.withFresh body

/-- The registry that is in force in a call which begins in `p`. -/
def registry (p : Process η ν) : Enclosure → RegistryId
  | given r => r
  | fresh => p.registries.length

/-- The state in which a call that begins in `p` leaves off to run its body. -/
def begun (p : Process η ν) : Enclosure → Process η ν
  | given r => (Registry.enter r p).2
  | fresh => (Registry.enter p.registries.length (Registry.create p).2).2

theorem around_apply (e : Enclosure) (body : Action η ν α) (p : Process η ν) :
    e.around body p = ((body (e.begun p)).1, (Registry.leave (body (e.begun p)).2).2) := by
  cases e <;> rfl

theorem stacks_begun (e : Enclosure) (p : Process η ν) :
    (e.begun p).here = p.here ∧
      (e.begun p).current.registries = e.registry p :: p.current.registries ∧
      ∀ n, n ≠ p.here → ((e.begun p).thread n).registries = (p.thread n).registries := by
  cases e with
  | given r =>
    obtain ⟨hcurrent, hothers⟩ := p.stacks_modifyCurrent (r :: ·)
    exact ⟨rfl, hcurrent, hothers⟩
  | fresh =>
    obtain ⟨hcurrent, hothers⟩ :=
      (Registry.create p).2.stacks_modifyCurrent (p.registries.length :: ·)
    exact ⟨rfl, hcurrent, hothers⟩

/-- A fresh registry is none of those there were, and empty. -/
theorem registry_fresh (p : Process η ν) : (∀ r : Fin p.registries.length, fresh.registry p ≠ r) ∧
    (fresh.begun p).registry (fresh.registry p) = .empty := by
  refine ⟨fun r => (Nat.ne_of_lt r.isLt).symm, ?_⟩
  have hnew : (p.registries ++ [Registry.empty])[p.registries.length]? = some .empty := by simp
  rw [Process.registry, List.getD_eq_getElem?_getD]
  exact congrArg (·.getD Registry.empty) hnew

/-- A call leaves the registries in force alone if its body does. -/
theorem around_level {body : Action η ν α} (hb : body.Lasts Process.Level) (e : Enclosure) :
    (e.around body).Lasts Process.Level := by
  intro p
  rw [around_apply]
  obtain ⟨hhere, hbegun, hbegun'⟩ := e.stacks_begun p
  have hbody := hb (e.begun p)
  obtain ⟨hended, hended'⟩ := (body (e.begun p)).2.stacks_modifyCurrent (·.drop 1)
  have hback : (body (e.begun p)).2.here = p.here := hbody.here.trans hhere
  refine ⟨hback, fun n => ?_⟩
  by_cases hn : n = p.here
  · subst hn
    have hsame : (body (e.begun p)).2.current.registries = e.registry p :: p.current.registries := by
      rw [Process.current, hbody.here, hbody.registries]
      exact hbegun
    rw [hsame, Process.current] at hended
    exact (congrArg (fun n => (Process.thread _ n).registries) hback.symm).trans hended
  · have hne : n ≠ (body (e.begun p)).2.here := fun h => hn (h.trans hback)
    exact (hended' n hne).trans ((hbody.registries n).trans (hbegun' n hn))

end Enclosure

/-! ### Programs -/

/-- A program of one thread. -/
inductive Code (η ν : Type) : Type → Type 1
  /-- Code of the program's own, which has no access to the registries in force. -/
  | own {α : Type} (m : Action η ν α) (hm : m.Lasts Process.Level) : Code η ν α
  /-- An operation of the library. The functions behind the accessors are programs in turn. -/
  | operation {α : Type} (holds : Identity → η → Bool) (read : Nat → Code η ν (Option Value))
      (write : Nat → Value → Code η ν (Except Failure Unit))
      (clear : Nat → Code η ν (Except Failure Unit)) (op : Operation α) : Code η ν α
  | bind {α β : Type} (c : Code η ν α) (f : α → Code η ν β) : Code η ν β
  /-- Runs a program and answers how it ended; a panic goes no further. -/
  | catching {α : Type} (c : Code η ν α) : Code η ν (Exit α)
  /-- A call with a program for its body. -/
  | under {α : Type} (e : Enclosure) (c : Code η ν α) : Code η ν α

namespace Code

/-- What a program does when it runs on its own. -/
def run : {α : Type} → Code η ν α → Action η ν α
  | _, own m _ => m
  | _, operation holds read write clear op =>
    op.perform
      { behaviour := fun ref =>
          { read := (read ref).run, write := fun v => (write ref v).run, clear := (clear ref).run }
        holds }
  | _, bind c f => c.run >>= fun a => (f a).run
  | _, catching c => Action.attempt c.run
  | _, under e c => e.around c.run

end Code

/-- Each construct of programs leaves the registries in force as they were. -/
theorem Code.run_level (c : Code η ν α) : c.run.Lasts Process.Level := by
  induction c with
  | own m hm => exact hm
  | operation holds read write clear op hr hw hc =>
    intro p
    refine (Process.Level.lasting ?_).enduring.perform (fun p _ _ => p.level_record _) op
      fun i _ _ _ _ q => q.level_marked i _
    exact fun ref => ⟨hr ref, hw ref, hc ref⟩
  | bind c f hc hf =>
    intro p
    rw [run, Action.bind_apply]
    have hp := hc p
    rcases hm : c.run p with ⟨a | text, q⟩ <;> rw [hm] at hp
    · exact hp.trans (hf a q)
    · exact hp
  | catching c hc => exact hc
  | under e c hc => exact e.around_level hc

/-! ### The library's own constructs as programs -/

/-- An embedding program whose functions are programs. -/
structure Embedding (η ν : Type) : Type 1 where
  holds : Identity → η → Bool
  read : Nat → Code η ν (Option Value)
  write : Nat → Value → Code η ν (Except Failure Unit)
  clear : Nat → Code η ν (Except Failure Unit)

namespace Embedding

def host (E : Embedding η ν) : Host η ν where
  behaviour ref :=
    { read := (E.read ref).run, write := fun v => (E.write ref v).run, clear := (E.clear ref).run }
  holds := E.holds

def call (E : Embedding η ν) (op : Operation α) : Code η ν α :=
  .operation E.holds E.read E.write E.clear op

end Embedding

namespace Code

variable (E : Embedding η ν)

def ret (a : α) : Code η ν α := .own (pure a) Process.Level.refl

def log (e : LogEvent) : Code η ν Unit := .own (Action.log e) fun p => p.level_record _

/-- Asks for the registry in force. -/
def current : Code η ν RegistryId := .own Registry.current Process.Level.refl

/-- A bridge over what the registry in force finds. -/
def bridge : Code η ν Bridge :=
  .bind current fun r => .bind (E.call (.capture r none {})) fun s => ret ⟨s⟩

/-- A task over the same. -/
def propagate : Code η ν Task := .bind (bridge E) fun b => ret { bridge := b }

/-- Runs a program with a snapshot installed. -/
def within (s : Snapshot) (c : Code η ν α) : Code η ν (Except Failure α) :=
  .bind (E.call (.install s)) fun
    | .error failure => ret (.error failure)
    | .ok i => .bind (.catching c) fun exit => .bind (E.call (.close i)) fun closed =>
      match exit with
      | .panicked text => .own (Action.panic text) Process.Level.refl
      | .returned a => ret (closed.map fun _ => a)

/-- A poll of a task whose inner computation is a program. -/
def poll (t : Task) (c : Code η ν (Progress ω)) : Code η ν (Except Failure (Progress ω)) :=
  .bind (E.call (.resume t.bridge t.advance.site)) fun
    | .error failure => ret (.error failure)
    | .ok i => .bind (.catching c) fun
      | .panicked text => .bind (.catching (E.call (.suspend t.advance.site i))) fun answer =>
        .bind (match answer with
          | .returned (.error failure) => log (.unwindFailed failure)
          | .returned (.ok ()) => ret ()
          | .panicked _ => ret ()) fun _ => .own (Action.panic text) Process.Level.refl
      | .returned progress => .bind (E.call (.suspend t.advance.site i)) fun
        | .ok () => ret (.ok progress)
        | .error failure => .bind
          (if progress.isReady then log (.discarding t.advance.site failure) else ret ())
          fun _ => ret (.error failure)

theorem run_within (s : Snapshot) (c : Code η ν α) : (within E s c).run = s.within E.host c.run := by
  refine congrArg (s.install E.host >>= ·) (funext fun answer => ?_)
  cases answer with
  | error failure => rfl
  | ok i =>
    refine congrArg (Action.attempt c.run >>= ·) (funext fun exit => ?_)
    cases exit <;> rfl

theorem run_poll (t : Task) (c : Code η ν (Progress ω)) :
    (poll E t c).run = (t.poll E.host c.run).2 := by
  refine congrArg (t.bridge.resume E.host t.advance.site >>= ·) (funext fun answer => ?_)
  cases answer with
  | error failure => rfl
  | ok i =>
    refine congrArg (Action.attempt c.run >>= ·) (funext fun exit => ?_)
    cases exit with
    | panicked text =>
      refine congrArg (Action.attempt (Bridge.suspend E.host t.advance.site i) >>= ·)
        (funext fun suspended => ?_)
      rcases suspended with (failure | ⟨⟩) | later <;> rfl
    | returned progress =>
      refine congrArg (Bridge.suspend E.host t.advance.site i >>= ·) (funext fun suspended => ?_)
      rcases suspended with failure | ⟨⟩
      · cases progress <;> rfl
      · rfl

end Code

/-- What the library does with whole programs, and with the registry in force, is in programs. -/
structure Embedding.Covers (E : Embedding η ν) : Prop where
  within : ∀ (α : Type) s (c : Code η ν α), (Code.within E s c).run = s.within E.host c.run
  poll : ∀ (ω : Type) (t : Task) (c : Code η ν (Progress ω)),
    (Code.poll E t c).run = (t.poll E.host c.run).2
  bridge : (Code.bridge E).run = Bridge.current E.host
  propagate : (Code.propagate E).run = Task.propagate E.host

theorem Embedding.covers (E : Embedding η ν) : E.Covers where
  within _ := Code.run_within E
  poll _ := Code.run_poll E
  bridge := rfl
  propagate := rfl

/-! ### Steps -/

/-- What is left to do of a program when the part of it that runs has answered. -/
inductive Frames (η ν ω : Type) : Type → Type 1
  | last : Frames η ν ω ω
  | bind {α β : Type} (f : α → Code η ν β) (k : Frames η ν ω β) : Frames η ν ω α
  | catching {α : Type} (k : Frames η ν ω (Exit α)) : Frames η ν ω α
  | under {α : Type} (r : RegistryId) (k : Frames η ν ω α) : Frames η ν ω α

namespace Frames

/-- The registries of the calls that have begun and not ended, the innermost first. -/
def calls : {α : Type} → Frames η ν ω α → List RegistryId
  | _, last => []
  | _, bind _ k => k.calls
  | _, catching k => k.calls
  | _, under r k => r :: k.calls

/-- First what is left of one program, and then of another one around it. -/
def on : {α : Type} → Frames η ν β α → Frames η ν ω β → Frames η ν ω α
  | _, last, outer => outer
  | _, bind f k, outer => bind f (k.on outer)
  | _, catching k, outer => catching (k.on outer)
  | _, under r k, outer => under r (k.on outer)

theorem calls_on (k : Frames η ν β α) (outer : Frames η ν ω β) :
    (k.on outer).calls = k.calls ++ outer.calls := by
  induction k with
  | last => rfl
  | bind _ _ ih => exact ih
  | catching _ ih => exact ih
  | under r _ ih => exact congrArg (r :: ·) ih

end Frames

/-- Where a thread is in its program. -/
inductive Running (η ν ω : Type) : Type 1
  | doing {α : Type} (c : Code η ν α) (k : Frames η ν ω α)
  /-- A part has ended, and what is around it goes on from there. -/
  | ended {α : Type} (exit : Exit α) (k : Frames η ν ω α)

namespace Running

/-- The registries of the calls that a thread is in, the innermost first. -/
def calls : Running η ν ω → List RegistryId
  | doing _ k => k.calls
  | ended _ k => k.calls

/-- A program that runs inside another one. -/
def on : Running η ν β → Frames η ν ω β → Running η ν ω
  | doing c k, outer => doing c (k.on outer)
  | ended exit k, outer => ended exit (k.on outer)

/-- One step of the running thread. An operation is one step; a thread that is done does nothing. -/
def step : Running η ν ω → Process η ν → Running η ν ω × Process η ν
  | doing (.own m _) k, p => (ended (m p).1 k, (m p).2)
  | doing (.operation holds read write clear op) k, p =>
    let answer := (Code.operation holds read write clear op).run p
    (ended answer.1 k, answer.2)
  | doing (.bind c f) k, p => (doing c (.bind f k), p)
  | doing (.catching c) k, p => (doing c (.catching k), p)
  | doing (.under e c) k, p => (doing c (.under (e.registry p) k), e.begun p)
  | ended exit .last, p => (ended exit .last, p)
  | ended (.returned a) (.bind f k), p => (doing (f a) k, p)
  | ended (.panicked text) (.bind _ k), p => (ended (.panicked text) k, p)
  | ended exit (.catching k), p => (ended (.returned exit) k, p)
  | ended exit (.under _ k), p => (ended exit k, (Registry.leave p).2)

theorem calls_on (run : Running η ν β) (outer : Frames η ν ω β) :
    (run.on outer).calls = run.calls ++ outer.calls := by
  cases run with
  | doing c k => exact k.calls_on outer
  | ended exit k => exact k.calls_on outer

/-- A program takes the steps inside another one that it takes alone. -/
theorem step_on {run : Running η ν β} (h : ∀ exit, run ≠ ended exit .last)
    (outer : Frames η ν ω β) (p : Process η ν) :
    (run.on outer).step p = ((run.step p).1.on outer, (run.step p).2) := by
  cases run with
  | doing c k => cases c <;> rfl
  | ended exit k =>
    cases k with
    | last => exact absurd rfl (h exit)
    | bind f k => cases exit <;> rfl
    | catching k => rfl
    | under r k => rfl

/-- A step changes the registries of the thread that runs, from those of the calls around it over
some others to those of the calls around it then. -/
theorem step_stacks (run : Running η ν ω) (p : Process η ν) :
    (run.step p).2.here = p.here ∧
      (∀ base, p.current.registries = run.calls ++ base →
        (run.step p).2.current.registries = (run.step p).1.calls ++ base) ∧
      ∀ n, n ≠ p.here → ((run.step p).2.thread n).registries = (p.thread n).registries := by
  have hlevel : ∀ {q : Process η ν} {run' : Running η ν ω}, p.Level q → run'.calls = run.calls →
      q.here = p.here ∧
        (∀ base, p.current.registries = run.calls ++ base →
          q.current.registries = run'.calls ++ base) ∧
        ∀ n, n ≠ p.here → (q.thread n).registries = (p.thread n).registries := by
    intro q run' hq hcalls
    refine ⟨hq.here, fun base h => ?_, fun n _ => hq.registries n⟩
    rw [hcalls, ← h, Process.current, hq.here, hq.registries]
    rfl
  have hstay : ∀ {run' : Running η ν ω}, run'.calls = run.calls → _ := hlevel (.refl p)
  cases run with
  | doing c k =>
    cases c with
    | own m hm => exact hlevel (hm p) rfl
    | operation holds read write clear op => exact hlevel (Code.run_level _ p) rfl
    | bind c f => exact hstay rfl
    | catching c => exact hstay rfl
    | under e c =>
      obtain ⟨hhere, hcurrent, hothers⟩ := e.stacks_begun p
      exact ⟨hhere, fun base h => hcurrent.trans (congrArg (e.registry p :: ·) h), hothers⟩
  | ended exit k =>
    cases k with
    | last => exact hstay rfl
    | bind f k => cases exit <;> exact hstay rfl
    | catching k => exact hstay rfl
    | under r k =>
      obtain ⟨hcurrent, hothers⟩ := p.stacks_modifyCurrent (·.drop 1)
      exact ⟨rfl, fun base h => hcurrent.trans (congrArg (·.drop 1) h), hothers⟩

/-- Steps that a thread takes while no other thread does. -/
def alone (state : Running η ν ω × Process η ν) : Running η ν ω × Process η ν := state.1.step state.2

/-- Alone, a thread comes from one state to another. -/
def Reaches (s s' : Running η ν ω × Process η ν) : Prop := ∃ n, alone^[n] s = s'

theorem Reaches.refl (s : Running η ν ω × Process η ν) : Reaches s s := ⟨0, rfl⟩

theorem Reaches.trans {s s' s'' : Running η ν ω × Process η ν} (h : Reaches s s')
    (k : Reaches s' s'') : Reaches s s'' := by
  obtain ⟨m, rfl⟩ := h
  obtain ⟨n, rfl⟩ := k
  exact ⟨n + m, Function.iterate_add_apply alone n m s⟩

/-- What is reached after one step is reached. -/
theorem Reaches.after {s s' : Running η ν ω × Process η ν} (h : Reaches (alone s) s') :
    Reaches s s' := Reaches.trans ⟨1, rfl⟩ h

/-- Alone, a program comes to its end, as if it had been run at once; that is what its frames are
told. -/
theorem reaches_run (c : Code η ν α) (k : Frames η ν ω α) (p : Process η ν) :
    Reaches (doing c k, p) (ended (c.run p).1 k, (c.run p).2) := by
  induction c generalizing p with
  | own m hm => exact .after (.refl _)
  | operation holds read write clear op => exact .after (.refl _)
  | bind c f hc hf =>
    refine .after ((hc (.bind f k) p).trans (.after ?_))
    rw [Code.run, Action.bind_apply]
    rcases c.run p with ⟨a | text, q⟩
    · exact hf a k q
    · exact .refl _
  | catching c hc => exact .after ((hc (.catching k) p).trans (.after (.refl _)))
  | under e c hc =>
    refine .after ((hc (.under (e.registry p) k) (e.begun p)).trans (.after ?_))
    rw [Code.run, e.around_apply]
    exact .refl _

end Running

/-! ### Threads that take steps in any order -/

/-- A process, and where each of its threads is in its program. -/
structure World (η ν ω : Type) where
  process : Process η ν
  running : ThreadName → Running η ν ω

/-- The registry in force on a thread. -/
def Process.inForce (p : Process η ν) (n : ThreadName) : RegistryId := (p.entered n).currentRegistry

theorem Process.inForce_eq (p : Process η ν) (n : ThreadName) :
    p.inForce n = (p.thread n).registries.headD processWide := rfl

namespace World

open Process (inForce_eq)

/-- Each thread is at the beginning of its program. -/
def start (programs : ThreadName → Code η ν ω) (p : Process η ν) : World η ν ω :=
  ⟨p, fun n => .doing (programs n) .last⟩

/-- A thread takes a step. -/
def turn (w : World η ν ω) (n : ThreadName) : World η ν ω :=
  let stepped := (w.running n).step (w.process.entered n)
  ⟨stepped.2.reentered w.process.here, Function.update w.running n stepped.1⟩

/-- The threads named take steps, one after another. -/
def after (w : World η ν ω) (turns : List ThreadName) : World η ν ω := turns.foldl turn w

theorem after_append (w : World η ν ω) (l r : List ThreadName) :
    w.after (l ++ r) = (w.after l).after r := List.foldl_append

/-- On each thread the registries of the calls that it is in are in force, over those that were in
force in the beginning. -/
def Stacked (base : ThreadName → List RegistryId) (w : World η ν ω) : Prop :=
  ∀ n, (w.process.thread n).registries = (w.running n).calls ++ base n

theorem running_turn_of_ne (w : World η ν ω) {n m : ThreadName} (h : m ≠ n) :
    (w.turn n).running m = w.running m := Function.update_of_ne h _ _

theorem running_turn (w : World η ν ω) (n : ThreadName) :
    (w.turn n).running n = ((w.running n).step (w.process.entered n)).1 := Function.update_self ..

/-- A step of one thread changes the registries of no other. -/
theorem stacks_turn_of_ne (w : World η ν ω) {n m : ThreadName} (h : m ≠ n) :
    ((w.turn n).process.thread m).registries = (w.process.thread m).registries :=
  ((w.running n).step_stacks (w.process.entered n)).2.2 m h

theorem Stacked.turn {base : ThreadName → List RegistryId} {w : World η ν ω} (h : w.Stacked base)
    (n : ThreadName) : (w.turn n).Stacked base := by
  intro m
  by_cases hm : m = n
  · subst hm
    obtain ⟨hhere, hstack, -⟩ := (w.running m).step_stacks (w.process.entered m)
    have hlast := hstack (base m) (h m)
    rw [Process.current, hhere] at hlast
    rw [running_turn]
    exact hlast
  · rw [w.stacks_turn_of_ne hm, w.running_turn_of_ne hm]
    exact h m

theorem Stacked.after {base : ThreadName → List RegistryId} {w : World η ν ω} (h : w.Stacked base)
    (turns : List ThreadName) : (w.after turns).Stacked base := by
  induction turns generalizing w with
  | nil => exact h
  | cons n rest ih => exact ih (h.turn n)

/-! ### The course of a call -/

/-- How a call goes that thread `n` is about to make in `w`, when the turns have been taken: the
call `e` runs `c`, and `k` is what is around it. -/
inductive Course (w : World η ν ω) (n : ThreadName) (e : Enclosure) (c : Code η ν α)
    (k : Frames η ν ω α) (turns : List ThreadName) : Prop
  /-- It has not begun. -/
  | ahead (hrunning : (w.after turns).running n = .doing (.under e c) k)
      (hstack : ((w.after turns).process.thread n).registries = (w.process.thread n).registries)
  /-- It has begun and not ended. Its registry is in force, but for calls further in. -/
  | inside (before later : List ThreadName) (r : RegistryId) (body : Running η ν α)
      (hturns : turns = before ++ n :: later)
      (hbegun : (w.after before).running n = .doing (.under e c) k)
      (hregistry : r = e.registry (w.after before).process)
      (hrunning : (w.after turns).running n = body.on (.under r k))
      (hstack : ((w.after turns).process.thread n).registries =
        body.calls ++ r :: (w.process.thread n).registries)
      (hcurrent : (w.after turns).process.inForce n = body.calls.headD r)
  /-- It has ended, as `c` did, and there was in force what was in force before it. -/
  | past (before later : List ThreadName) (r : RegistryId) (exit : Exit α)
      (hturns : turns = before ++ n :: later)
      (hbody : (w.after before).running n = (Running.ended exit .last).on (.under r k))
      (hrunning : (w.after (before ++ [n])).running n = .ended exit k)
      (hstack : ((w.after (before ++ [n])).process.thread n).registries =
        (w.process.thread n).registries)

/-- Every call takes its course. -/
theorem course {base : ThreadName → List RegistryId} {w : World η ν ω} (h : w.Stacked base)
    {n : ThreadName} {e : Enclosure} {c : Code η ν α} {k : Frames η ν ω α}
    (hw : w.running n = .doing (.under e c) k) (turns : List ThreadName) :
    Course w n e c k turns := by
  have houtside : (w.process.thread n).registries = k.calls ++ base n := by rw [h n, hw]; rfl
  have hinside : ∀ {turns : List ThreadName} (before later : List ThreadName) (r : RegistryId)
      (body : Running η ν α), turns = before ++ n :: later →
      (w.after before).running n = .doing (.under e c) k → r = e.registry (w.after before).process →
      (w.after turns).running n = body.on (.under r k) → Course w n e c k turns := by
    intro turns before later r body hturns hbegun hregistry hbody
    have hstack : ((w.after turns).process.thread n).registries =
        body.calls ++ r :: (w.process.thread n).registries := by
      rw [(h.after turns) n, hbody, body.calls_on, houtside, List.append_assoc]
      rfl
    refine .inside before later r body hturns hbegun hregistry hbody hstack ?_
    rw [inForce_eq, hstack]
    cases body.calls <;> rfl
  induction turns using List.reverseRecOn with
  | nil => exact .ahead hw rfl
  | append_singleton turns m ih =>
    have hafter : w.after (turns ++ [m]) = (w.after turns).turn m := w.after_append turns [m]
    have hlater : ∀ {before later : List ThreadName}, turns = before ++ n :: later →
        turns ++ [m] = before ++ n :: (later ++ [m]) := fun hturns => by rw [hturns]; simp
    by_cases hm : n = m
    · subst hm
      cases ih with
      | ahead hrunning _ =>
        refine hinside turns [] _ (.doing c .last) rfl hrunning rfl ?_
        rw [hafter, running_turn, hrunning]
        rfl
      | inside before later r body hturns hbegun hregistry hrunning _ _ =>
        by_cases hend : ∃ exit, body = .ended exit .last
        · obtain ⟨exit, rfl⟩ := hend
          have hover : (w.after (turns ++ [n])).running n = .ended exit k := by
            rw [hafter, running_turn, hrunning]
            rfl
          refine .past turns [] r exit rfl hrunning hover ?_
          rw [(h.after _) n, hover, houtside]
          rfl
        · refine hinside before _ r (body.step ((w.after turns).process.entered n)).1
            (hlater hturns) hbegun hregistry ?_
          rw [hafter, running_turn, hrunning, Running.step_on fun exit he => hend ⟨exit, he⟩]
      | past before later r exit hturns hbody hrunning hstack =>
        exact .past before _ r exit (hlater hturns) hbody hrunning hstack
    · have hrun : (w.after (turns ++ [m])).running n = (w.after turns).running n := by
        rw [hafter, running_turn_of_ne _ hm]
      cases ih with
      | ahead hrunning hstack =>
        refine .ahead (hrun.trans hrunning) ?_
        rw [hafter, stacks_turn_of_ne _ hm, hstack]
      | inside before later r body hturns hbegun hregistry hrunning _ _ =>
        exact hinside before _ r body (hlater hturns) hbegun hregistry (hrun.trans hrunning)
      | past before later r exit hturns hbody hrunning hstack =>
        exact .past before _ r exit (hlater hturns) hbody hrunning hstack

/-- At one moment of a run that began in `p`, the registries in force on each thread are those of
the calls that it is in, over those that were in force in the beginning. -/
structure StackedByCalls (p : Process η ν) (w : World η ν ω) : Prop where
  registries : ∀ n, (w.process.thread n).registries = (w.running n).calls ++ (p.thread n).registries
  /-- The innermost call counts, and outside all calls the registry of the process. -/
  current : ∀ n, w.process.inForce n =
    ((w.running n).calls ++ (p.thread n).registries).headD processWide
  /-- A bridge is over what that registry finds. -/
  bridge : ∀ (H : Host η ν) n, Action.onThread n (Bridge.current H) w.process =
    Action.onThread n (Bridge.capture H (w.process.inForce n) none {}) w.process
  /-- So is a task. -/
  propagate : ∀ (H : Host η ν) n, Action.onThread n (Task.propagate H) w.process =
    Action.onThread n (do return { bridge := ← Bridge.capture H (w.process.inForce n) none {} })
      w.process
  /-- What a thread does next concerns no other thread. -/
  apart : ∀ n m, m ≠ n →
    ((w.turn n).process.thread m).registries = (w.process.thread m).registries ∧
      (w.turn n).process.inForce m = w.process.inForce m
  /-- A call that is about to begin takes its course, whatever threads take steps then. -/
  course : ∀ (α : Type) n e (c : Code η ν α) k, w.running n = .doing (.under e c) k →
    ∀ turns, Course w n e c k turns

theorem StackedByCalls.of_stacked {p : Process η ν} {w : World η ν ω}
    (h : w.Stacked fun n => (p.thread n).registries) : w.StackedByCalls p where
  registries := h
  current n := by rw [inForce_eq, h n]
  bridge _ _ := rfl
  propagate _ _ := rfl
  apart n m hm := by
    have hstacks := w.stacks_turn_of_ne hm
    exact ⟨hstacks, by rw [inForce_eq, hstacks, inForce_eq]⟩
  course _ _ _ _ _ hw := World.course h hw

/-- Programs on any number of threads that take steps in any order. At every moment each thread has
the registries of the calls in force that it is in. Left alone a call comes to an end, with the
answer or the panic of its body, and with all threads' registries as they were; that is what the
library's own call does. A registry that a call makes is a new one and empty. What the library does
with windows, bridges and tasks is in programs too. -/
theorem stackedByCalls_after (programs : ThreadName → Code η ν ω) (p : Process η ν)
    (turns : List ThreadName) :
    ((start programs p).after turns).StackedByCalls p ∧
      (∀ (α : Type) (e : Enclosure) (c : Code η ν α) (k : Frames η ν ω α) (q : Process η ν),
        (e.begun q).currentRegistry = e.registry q ∧
          ∃ exit last, e.around c.run q = (exit, last) ∧ exit = (c.run (e.begun q)).1 ∧
            q.Level last ∧ Running.Reaches (.doing (.under e c) k, q) (.ended exit k, last)) ∧
      (∀ q : Process η ν, (∀ r : Fin q.registries.length, Enclosure.fresh.registry q ≠ r) ∧
        (Enclosure.fresh.begun q).registry (Enclosure.fresh.registry q) = .empty) ∧
      ∀ E : Embedding η ν, E.Covers := by
  have hstart : (start programs p).Stacked fun n => (p.thread n).registries := fun n => rfl
  refine ⟨.of_stacked (hstart.after turns), fun α e c k q => ?_, Enclosure.registry_fresh,
    Embedding.covers⟩
  have hcurrent : (e.begun q).currentRegistry = e.registry q := by
    rw [Process.currentRegistry, (e.stacks_begun q).2.1]
    rfl
  have hexit := congrArg Prod.fst (e.around_apply c.run q)
  exact ⟨hcurrent, _, _, (Prod.eta (e.around c.run q)).symm, hexit,
    e.around_level c.run_level q, Running.reaches_run (.under e c) k q⟩

/-- Thread `one` makes two calls, one in the other, and catches a panic outside the inner one, which
has a registry of its own. The other threads make one call each. -/
def crossing (n : ThreadName) : Code Unit Unit Unit :=
  if n = "one" then
    .under (.given 1) (.bind (.catching (.under .fresh (.own (Action.panic "out") .refl)))
      fun _ : Exit Unit => .ret ())
  else .under (.given 3) (.ret ())

/-- After the panic has been caught on thread `one`, and while the call of thread `two` lasts that
began meanwhile. -/
example :
    let w := (start crossing { here := "main", host := () }).after
      ["one", "one", "one", "one", "two", "one", "one", "one"]
    w.process.inForce "one" = 1 ∧ w.process.inForce "two" = 3 ∧
      w.process.inForce "main" = processWide := by
  decide +kernel

end World

end Ambient
