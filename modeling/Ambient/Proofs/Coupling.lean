import Ambient.Operation
import Ambient.Proofs.Restoring
import Ambient.Task

/-! Two runs side by side. A coupling is a relation between the states of two runs under which
these look alike to the library on the running thread, and which outlasts every single thing that
the library does to a state. Proved: the library's operations lead from related states to related
states and end alike in both, with accessors whose functions do so. What the relation says of the
rest of the state, and what becomes of operations on registries, is left to other modules. -/

namespace Ambient

variable {η ν α β ω : Type}

/-! ### Actions that agree -/

/-- Begun in related states, the two actions end alike and in related states. -/
def Action.Agree (R : Process η ν → Process η ν → Prop) (m m' : Action η ν α) : Prop :=
  ∀ p p', R p p' → (m' p').1 = (m p).1 ∧ R (m p).2 (m' p').2

namespace Action.Agree

variable {R : Process η ν → Process η ν → Prop} {m m' : Action η ν α} {f f' : α → Action η ν β}

theorem pure (a : α) : Agree R (Pure.pure a) (Pure.pure a) := fun _ _ h => ⟨rfl, h⟩

theorem panic (text : String) : Agree R (Action.panic text : Action η ν α) (Action.panic text) :=
  fun _ _ h => ⟨rfl, h⟩

theorem change {g g' : Process η ν → Process η ν} (h : ∀ p p', R p p' → R (g p) (g' p')) :
    Agree R (Action.change g) (Action.change g') := fun p p' hp => ⟨rfl, h p p' hp⟩

theorem inspect {g g' : Process η ν → α} (h : ∀ p p', R p p' → g' p' = g p) :
    Agree R (Action.inspect g) (Action.inspect g') :=
  fun p p' hp => ⟨congrArg Exit.returned (h p p' hp), hp⟩

/-- Actions that agree go on together: what comes after has the same to go on from. -/
theorem bind_of {p p' : Process η ν} (hm : (m' p').1 = (m p).1 ∧ R (m p).2 (m' p').2)
    (hf : ∀ a q q', m p = (.returned a, q) → R q q' →
      (f' a q').1 = (f a q).1 ∧ R (f a q).2 (f' a q').2) :
    ((m' >>= f') p').1 = ((m >>= f) p).1 ∧ R ((m >>= f) p).2 ((m' >>= f') p').2 := by
  obtain ⟨hexit, hr⟩ := hm
  have hq' : m' p' = ((m p).1, (m' p').2) := Prod.ext hexit rfl
  rcases hq : m p with ⟨a | text, q⟩ <;> rw [hq] at hr hq'
  · rw [bind_of_returned hq, bind_of_returned hq']
    exact hf a q _ hq hr
  · rw [bind_of_panicked hq, bind_of_panicked hq']
    exact ⟨rfl, hr⟩

/-- Where the one action leads, the other one follows. -/
theorem follow (hm : Agree R m m') {p p' q : Process η ν} (h : R p p') {exit : Exit α}
    (hp : m p = (exit, q)) : ∃ q', m' p' = (exit, q') ∧ R q q' := by
  obtain ⟨hexit, hr⟩ := hm p p' h
  rw [hp] at hexit hr
  exact ⟨(m' p').2, Prod.ext hexit rfl, hr⟩

theorem bind (hm : Agree R m m') (hf : ∀ a, Agree R (f a) (f' a)) :
    Agree R (m >>= f) (m' >>= f') :=
  fun p p' h => bind_of (hm p p' h) fun a q q' _ => hf a q q'

theorem attempt (hm : Agree R m m') : Agree R (Action.attempt m) (Action.attempt m') := by
  intro p p' h
  obtain ⟨hexit, hr⟩ := hm p p' h
  rw [attempt_apply, attempt_apply]
  exact ⟨congrArg Exit.returned hexit, hr⟩

theorem ensuring {after after' : Action η ν Unit} (hm : Agree R m m') (ha : Agree R after after') :
    Agree R (Action.ensuring m after) (Action.ensuring m' after') :=
  hm.attempt.bind fun _ => ha.bind fun _ _ _ h => ⟨rfl, h⟩

end Action.Agree

/-! ### Operations -/

/-- With a registry in force, actions agree that agree otherwise. -/
theorem Action.Agree.under {R : Process η ν → Process η ν → Prop} {m m' : Action η ν α}
    (hm : Agree R m m')
    (hR : ∀ {p p'}, R p p' → ∀ f : List RegistryId → List RegistryId,
      R (p.modifyCurrent fun t => { t with registries := f t.registries })
        (p'.modifyCurrent fun t => { t with registries := f t.registries }))
    (r : RegistryId) : Agree R (Registry.within r m) (Registry.within r m') := by
  have henter : Agree R (Registry.enter r) (Registry.enter r) := .change fun _ _ h => hR h (r :: ·)
  have hleave : Agree R Registry.leave Registry.leave := .change fun _ _ h => hR h (·.drop 1)
  exact henter.bind fun _ => hm.ensuring hleave

/-- The operation itself brings no other accessors into play than `A`. -/
def Operation.Over (A : Accessor → Prop) : Operation α → Prop
  | read a => A a
  | write a _ => A a
  | install s => ∀ e ∈ s.entries, A e.accessor
  | resume b _ => ∀ e ∈ b.snapshot.entries, A e.accessor
  | _ => True

theorem Operation.over_of_forall {A : Accessor → Prop} (hA : ∀ a, A a) (op : Operation α) :
    op.Over A := by
  cases op with
  | read a => exact hA a
  | write a content => exact hA a
  | install s => exact fun e _ => hA e.accessor
  | resume b site => exact fun e _ => hA e.accessor
  | _ => trivial

/-- What programs do that asks no registry: operations of the library, and a few things besides. -/
inductive Deed : Type → Type 1
  | log (e : LogEvent) : Deed Unit
  | enter (r : RegistryId) : Deed Unit
  | leave : Deed Unit
  | currentRegistry : Deed RegistryId
  | operation {α : Type} (op : Operation α) (h : op.asksRegistry = false) : Deed α

namespace Deed

def run (H : Host η ν) : Deed α → Action η ν α
  | log e => Action.log e
  | enter r => Registry.enter r
  | leave => Registry.leave
  | currentRegistry => Registry.current
  | operation op _ => op.perform H

/-- The same as for operations. -/
def Over (A : Accessor → Prop) : Deed α → Prop
  | operation op _ => op.Over A
  | _ => True

theorem over_of_forall {A : Accessor → Prop} (hA : ∀ a, A a) (d : Deed α) : d.Over A := by
  cases d with
  | operation op h => exact op.over_of_forall hA
  | _ => trivial

end Deed

/-- The relation does not tell by the log which of the two call sites an operation was called
from. -/
structure CallSite.Interchangeable (R : Process η ν → Process η ν → Prop) (site site' : CallSite) :
    Prop where
  resuming : Action.Agree R (Action.log (.resuming site)) (Action.log (.resuming site'))
  suspending : Action.Agree R (Action.log (.suspending site)) (Action.log (.suspending site'))
  discarding : ∀ failure,
    Action.Agree R (Action.log (.discarding site failure)) (Action.log (.discarding site' failure))

/-! ### Couplings -/

/-- A relation between the states of two runs, of the embedding programs `H` and `H'`, in which
windows are made of the accessors `A` only. -/
structure Coupling (H H' : Host η ν) (A : Accessor → Prop)
    (R : Process η ν → Process η ν → Prop) : Prop where
  here : ∀ {p p'}, R p p' → p'.here = p.here
  current : ∀ {p p'}, R p p' → p'.current = p.current
  priors : ∀ {p p'}, R p p' → ∀ win ∈ p.current.windows, ∀ e ∈ win.priors, A e.accessor
  stored : ∀ {p p'}, R p p' → ∀ storage, R (p.modifyCurrent fun t => { t with storage })
    (p'.modifyCurrent fun t => { t with storage })
  stacked : ∀ {p p'}, R p p' → ∀ f : List RegistryId → List RegistryId,
    R (p.modifyCurrent fun t => { t with registries := f t.registries })
      (p'.modifyCurrent fun t => { t with registries := f t.registries })
  opened : ∀ {p p'}, R p p' → ∀ s priors, (∀ e ∈ priors, A e.accessor) →
    R (p.opened s priors) (p'.opened s priors)
  marked : ∀ {p p'}, R p p' → ∀ i status, R (p.marked i status) (p'.marked i status)
  held : ∀ {p p'}, R p p' → ∀ values, R (p.hold values) (p'.hold values)
  unheld : ∀ {p p'}, R p p' → ∀ n, R (p.unhold n) (p'.unhold n)
  swept : ∀ {p p'}, R p p' → R (p.sweep H) (p'.sweep H')
  logged : ∀ {p p'}, R p p' → ∀ e, R (p.record (.logged e)) (p'.record (.logged e))
  called : ∀ {p p'}, R p p' → ∀ call, R (p.record (.called call)) (p'.record (.called call))
  read : ∀ k ref, A (.custom k ref) → Action.Agree R (H.behaviour ref).read (H'.behaviour ref).read
  write : ∀ k ref, A (.custom k ref) → ∀ v,
    Action.Agree R ((H.behaviour ref).write v) ((H'.behaviour ref).write v)
  clear : ∀ k ref, A (.custom k ref) →
    Action.Agree R (H.behaviour ref).clear (H'.behaviour ref).clear

namespace Coupling

open Ambient.Action (Agree)

variable {H H' : Host η ν} {A : Accessor → Prop} {R : Process η ν → Process η ν → Prop}

theorem log (C : Coupling H H' A R) (e : LogEvent) : Agree R (Action.log e) (Action.log e) :=
  .change fun _ _ h => C.logged h e

theorem holding (C : Coupling H H' A R) (values : List Value) {m m' : Action η ν α}
    (hm : Agree R m m') : Agree R (Action.holding values m) (Action.holding values m') := by
  intro p p' h
  obtain ⟨hexit, hr⟩ := hm _ _ (C.held h values)
  rw [Action.holding_apply, Action.holding_apply]
  exact ⟨hexit, C.unheld hr _⟩

/-! ### Accessors -/

theorem readSlot (C : Coupling H H' A R) (k : Key) : Agree R (Slot.read k) (Slot.read k) := by
  rw [Slot.read_eq]
  exact .inspect fun p p' h => by rw [Process.slot?, Process.slot?, C.current h]

theorem writeSlot (C : Coupling H H' A R) (k : Key) (content : Option Value) :
    Agree R (Slot.write H k content) (Slot.write H' k content) := by
  intro p p' h
  have hc := C.current h
  cases hs : p.current.storage with
  | destroyed =>
    rw [Slot.write_destroyed H hs, Slot.write_destroyed H' (by rw [hc, hs])]
    exact ⟨rfl, h⟩
  | live slots =>
    rw [Slot.write_live H hs, Slot.write_live H' (by rw [hc, hs])]
    exact ⟨rfl, C.swept (C.stored h _)⟩

theorem readAccessor (C : Coupling H H' A R) {a : Accessor} (ha : A a) :
    Agree R (a.read H) (a.read H') := by
  refine .bind (.change fun _ _ h => C.called h _) fun _ => ?_
  cases a with
  | slot k => exact C.readSlot k
  | custom k ref => exact C.read k ref ha

theorem writeAccessor (C : Coupling H H' A R) {a : Accessor} (ha : A a) (content : Option Value)
    (restoring : Option WindowRef) :
    Agree R (a.write H content restoring) (a.write H' content restoring) := by
  have hsweep : Agree R (Action.change (Process.sweep H)) (Action.change (Process.sweep H')) :=
    .change fun _ _ h => C.swept h
  refine .bind (.change fun _ _ h => C.called h _) fun _ => ?_
  cases a with
  | slot k => exact C.writeSlot k content
  | custom k ref =>
    cases content with
    | none => exact (C.clear k ref ha).ensuring hsweep
    | some v => exact (C.write k ref ha v).ensuring hsweep

/-! ### Windows -/

theorem putBack (C : Coupling H H' A R) (ref : WindowRef) {l : List Entry}
    (hl : ∀ e ∈ l, A e.accessor) (first : Option Failure) :
    Agree R (Window.putBack H ref l first) (Window.putBack H' ref l first) := by
  induction l generalizing first with
  | nil => exact .pure first
  | cons e rest ih =>
    have hrest : ∀ d ∈ rest, A d.accessor := fun d hd => hl d (List.mem_cons_of_mem _ hd)
    refine (C.writeAccessor (hl e List.mem_cons_self) e.value (some ref)).bind fun answer => ?_
    cases answer with
    | ok => exact ih hrest first
    | error failure => exact (C.log _).bind fun _ => ih hrest _

/-- Both runs find the same window, and it is made of accessors that agree. -/
theorem restore (C : Coupling H H' A R) (i : Nat) :
    Agree R (Window.restore H i) (Window.restore H' i) := by
  intro p p' h
  have hpriors : ∀ win, p.current.windows[i]? = some win → ∀ e ∈ win.priors, A e.accessor :=
    fun win hw => C.priors h win (List.mem_of_getElem? hw)
  have hlook : Agree R (Window.look i) (Window.look i) :=
    .inspect fun q q' hq => by rw [C.current hq]
  refine Agree.bind_of (hlook p p' h) fun found q q' hfound hq => ?_
  obtain ⟨rfl, rfl⟩ : p.current.windows[i]? = found ∧ p = q := by
    simpa [Window.look_apply] using hfound
  cases hw : p.current.windows[i]? with
  | none => exact ⟨rfl, hq⟩
  | some win =>
    by_cases hs : win.status = .standing
    · simp only [hs, if_true]
      refine Agree.bind_of ⟨rfl, C.marked hq i .closing⟩ fun _ r r' _ hr => ?_
      rw [Action.bind_of_returned (Action.inspect_apply ..),
        Action.bind_of_returned (Action.inspect_apply ..), C.here hr]
      have hback := C.putBack ⟨r.here, i⟩ (fun e he => hpriors win hw e (List.mem_reverse.1 he)) none
      refine Agree.bind_of (hback r r' hr) fun first t t' _ ht => ?_
      refine Agree.bind_of ⟨rfl, C.logged ht _⟩ fun _ u u' _ hu => ?_
      cases first <;> exact ⟨rfl, hu⟩
    · simp only [hs, if_false]
      exact ⟨rfl, hq⟩

theorem retire (C : Coupling H H' A R) (i : Nat) :
    Agree R (Window.retire H i) (Window.retire H' i) :=
  Agree.bind (.change fun _ _ h => C.marked h i _) fun _ => .change fun _ _ h => C.swept h

theorem endWith (C : Coupling H H' A R) (i : Nat) (report : Failure → LogEvent) :
    Agree R (Window.endWith H i report) (Window.endWith H' i report) := by
  refine Agree.ensuring ((C.restore i).bind fun answer => ?_) (C.retire i)
  cases answer with
  | ok => exact .pure ()
  | error failure => exact C.log _

theorem close (C : Coupling H H' A R) (i : Nat) :
    Agree R (Window.close H i) (Window.close H' i) := (C.restore i).ensuring (C.retire i)

theorem drop (C : Coupling H H' A R) (i : Nat) :
    Agree R (Window.drop H i) (Window.drop H' i) := C.endWith i _

/-! ### Snapshots, bridges and tasks -/

theorem addWindow (C : Coupling H H' A R) (s : Snapshot) {priors : List Entry}
    (hp : ∀ e ∈ priors, A e.accessor) : Agree R (Window.add s priors) (Window.add s priors) := by
  intro p p' h
  rw [Window.add_opened, Window.add_opened, C.current h]
  exact ⟨rfl, C.opened h s priors hp⟩

theorem installFrom (C : Coupling H H' A R) (s : Snapshot) {l priors : List Entry}
    (hl : ∀ e ∈ l, A e.accessor) (hp : ∀ e ∈ priors, A e.accessor) :
    Agree R (s.installFrom H l priors) (s.installFrom H' l priors) := by
  induction l generalizing priors with
  | nil => exact (C.log _).bind fun _ => (C.addWindow s hp).bind fun i => .pure _
  | cons e rest ih =>
    have he := hl e List.mem_cons_self
    refine (C.readAccessor he).bind fun prior => C.holding _ ?_
    have hp' : ∀ d ∈ priors ++ [⟨e.accessor, prior⟩], A d.accessor := by
      intro d hd
      rcases List.mem_append.1 hd with hd | hd
      · exact hp d hd
      · rw [List.mem_singleton.1 hd]
        exact he
    refine (C.writeAccessor he e.value none).bind fun answer => ?_
    cases answer with
    | ok => exact ih (fun d hd => hl d (List.mem_cons_of_mem _ hd)) hp'
    | error failure =>
      refine (C.log _).bind fun _ => (C.addWindow s hp').bind fun i => ?_
      exact (C.endWith i _).bind fun _ => .pure _

theorem install (C : Coupling H H' A R) {s : Snapshot} (hs : ∀ e ∈ s.entries, A e.accessor) :
    Agree R (s.install H) (s.install H') :=
  C.holding _ (C.installFrom s hs (by simp))

theorem within (C : Coupling H H' A R) {s : Snapshot} (hs : ∀ e ∈ s.entries, A e.accessor)
    {body body' : Action η ν α} (hb : Agree R body body') :
    Agree R (s.within H body) (s.within H' body') := by
  refine (C.install hs).bind fun answer => ?_
  cases answer with
  | error failure => exact .pure _
  | ok i =>
    refine hb.attempt.bind fun exit => (C.close i).bind fun closed => ?_
    cases exit with
    | panicked text => exact .panic text
    | returned a => exact .pure _

/-- Hooks that are called from different sites, between which the relation does not tell. -/
theorem resumeFrom (C : Coupling H H' A R) {b : Bridge} (hb : ∀ e ∈ b.snapshot.entries, A e.accessor)
    {site site' : CallSite} (hsite : site.Interchangeable R site') :
    Agree R (b.resume H site) (b.resume H' site') :=
  hsite.resuming.bind fun _ => C.install hb

theorem suspendFrom (C : Coupling H H' A R) {site site' : CallSite}
    (hsite : site.Interchangeable R site') (i : Nat) :
    Agree R (Bridge.suspend H site i) (Bridge.suspend H' site' i) :=
  hsite.suspending.bind fun _ => C.close i

theorem interchangeable (C : Coupling H H' A R) (site : CallSite) : site.Interchangeable R site :=
  ⟨C.log _, C.log _, fun _ => C.log _⟩

theorem resume (C : Coupling H H' A R) {b : Bridge} (hb : ∀ e ∈ b.snapshot.entries, A e.accessor)
    (site : CallSite) : Agree R (b.resume H site) (b.resume H' site) :=
  C.resumeFrom hb (C.interchangeable site)

theorem suspend (C : Coupling H H' A R) (site : CallSite) (i : Nat) :
    Agree R (Bridge.suspend H site i) (Bridge.suspend H' site i) :=
  C.suspendFrom (C.interchangeable site) i

/-- Operations that ask no registry. -/
theorem operation (C : Coupling H H' A R) {op : Operation α} (hop : op.Over A)
    (h : op.asksRegistry = false) : Agree R (op.perform H) (op.perform H') := by
  cases op with
  | readSlot k => exact C.readSlot k
  | writeSlot k content => exact C.writeSlot k content
  | destroySlots => exact .change fun _ _ h => C.swept (C.stored h _)
  | read a => exact C.readAccessor hop
  | write a content => exact C.writeAccessor hop content none
  | install s => exact C.install hop
  | resume b site => exact C.resume hop site
  | close i => exact C.close i
  | drop i => exact C.drop i
  | suspend site i => exact C.suspend site i
  | _ => exact absurd h (by simp [Operation.asksRegistry])

theorem deed (C : Coupling H H' A R) {d : Deed α} (hd : d.Over A) :
    Agree R (d.run H) (d.run H') := by
  cases d with
  | log e => exact C.log e
  | enter r => exact .change fun _ _ h => C.stacked h (r :: ·)
  | leave => exact .change fun _ _ h => C.stacked h (·.drop 1)
  | currentRegistry =>
    exact .inspect fun p p' h => by rw [Process.currentRegistry, Process.currentRegistry, C.current h]
  | operation op h => exact C.operation hd h

theorem unwindFrom (C : Coupling H H' A R) {t t' : Task} (hsite : t.site.Interchangeable R t'.site)
    (i : Nat) (text : String) :
    Agree R (t.unwind H i text : Action η ν (Except Failure (Progress ω))) (t'.unwind H' i text) := by
  refine (C.suspendFrom hsite i).attempt.bind fun answer => ?_
  rcases answer with (failure | ⟨⟩) | later
  · exact (C.log _).bind fun _ => .panic text
  · exact .bind (.pure ()) fun _ => .panic text
  · exact .bind (.pure ()) fun _ => .panic text

/-- Polls of two tasks that carry the same and differ in what they say of themselves. -/
theorem pollFrom (C : Coupling H H' A R) {t t' : Task} (hbridge : t'.bridge = t.bridge)
    (hsite : t.advance.site.Interchangeable R t'.advance.site)
    (ht : ∀ e ∈ t.bridge.snapshot.entries, A e.accessor)
    {inner inner' : Action η ν (Progress ω)} (hb : Agree R inner inner') :
    Agree R (t.poll H inner).2 (t'.poll H' inner').2 := by
  have hresume : Agree R (t.advance.bridge.resume H t.advance.site)
      (t'.advance.bridge.resume H' t'.advance.site) := by
    rw [Task.bridge_advance, Task.bridge_advance, hbridge]
    exact C.resumeFrom ht hsite
  change Agree R (t.advance.window H inner) (t'.advance.window H' inner')
  refine hresume.bind fun answer => ?_
  cases answer with
  | error failure => exact .pure _
  | ok i =>
    refine hb.attempt.bind fun exit => ?_
    cases exit with
    | panicked text => exact C.unwindFrom hsite i text
    | returned progress =>
      refine (C.suspendFrom hsite i).bind fun answer => ?_
      cases answer with
      | ok => exact .pure _
      | error failure =>
        cases progress with
        | pending => exact .bind (.pure ()) fun _ => .pure _
        | ready output => exact (hsite.discarding failure).bind fun _ => .pure _

theorem poll (C : Coupling H H' A R) {t : Task} (ht : ∀ e ∈ t.bridge.snapshot.entries, A e.accessor)
    {inner inner' : Action η ν (Progress ω)} (hb : Agree R inner inner') :
    Agree R (t.poll H inner).2 (t.poll H' inner').2 :=
  C.pollFrom rfl (C.interchangeable t.advance.site) ht hb

end Coupling

/-! ### States that are the same but for registries and history -/

namespace Process

/-- The releases that are due, the latest first. -/
def releases (H : Host η ν) (p : Process η ν) : List (Event ν) :=
  ((p.watchers.partition fun v => p.holds H v.id).2.map p.releaseEvent).reverse

theorem history_sweep (H : Host η ν) (p : Process η ν) :
    (p.sweep H).history = p.releases H ++ p.history := rfl

end Process

/-- Of registries and of the history the states show the same to `f` and to `g`; all else is the
same in both. -/
structure Process.Same {ρ ε : Type} (f : List Registry → ρ) (g : List (Event ν) → ε)
    (p p' : Process η ν) : Prop where
  here : p'.here = p.here
  waiting : p'.waiting = p.waiting
  threads : p'.threads = p.threads
  pinned : p'.pinned = p.pinned
  watchers : p'.watchers = p.watchers
  host : p'.host = p.host
  registries : f p'.registries = f p.registries
  history : g p'.history = g p.history

/-- Whether the embedding program noted the event itself. -/
def Event.IsNote : Event ν → Prop
  | .noted _ => True
  | _ => False

/-- Histories that show the same to `g` still do so when something happens, unless it is noted. -/
def Event.Continues {ε : Type} (g : List (Event ν) → ε) : Prop :=
  ∀ (e : Event ν) (h h' : List (Event ν)), ¬ e.IsNote → g h' = g h → g (e :: h') = g (e :: h)

theorem Event.Continues.append {ε : Type} {g : List (Event ν) → ε} (hg : Event.Continues g)
    {l h h' : List (Event ν)} (hl : ∀ e ∈ l, ¬ e.IsNote) (hh : g h' = g h) :
    g (l ++ h') = g (l ++ h) := by
  induction l with
  | nil => exact hh
  | cons e rest ih =>
    exact hg e _ _ (hl e List.mem_cons_self) (ih fun d hd => hl d (List.mem_cons_of_mem _ hd))

namespace Process.Same

variable {ρ ε : Type} {f : List Registry → ρ} {g : List (Event ν) → ε} {p p' p'' : Process η ν}

theorem refl (p : Process η ν) : Same f g p p := ⟨rfl, rfl, rfl, rfl, rfl, rfl, rfl, rfl⟩

theorem trans (h : Same f g p p') (k : Same f g p' p'') : Same f g p p'' :=
  ⟨k.here.trans h.here, k.waiting.trans h.waiting, k.threads.trans h.threads,
    k.pinned.trans h.pinned, k.watchers.trans h.watchers, k.host.trans h.host,
    k.registries.trans h.registries, k.history.trans h.history⟩

theorem thread (h : Same f g p p') (n : ThreadName) : p'.thread n = p.thread n := by
  rw [Process.thread, Process.thread, h.threads]

theorem current (h : Same f g p p') : p'.current = p.current := by
  rw [Process.current, h.here, h.thread, Process.current]

theorem modifyCurrent (h : Same f g p p') (change : Thread → Thread) :
    Same f g (p.modifyCurrent change) (p'.modifyCurrent change) := by
  refine ⟨h.here, h.waiting, ?_, h.pinned, h.watchers, h.host, h.registries, h.history⟩
  simp only [Process.modifyCurrent, Process.setCurrent, h.threads, h.here, h.current]

theorem record (h : Same f g p p') (hg : Event.Continues g) {e : Event ν}
    (he : ¬ e.IsNote) : Same f g (p.record e) (p'.record e) :=
  ⟨h.here, h.waiting, h.threads, h.pinned, h.watchers, h.host, h.registries,
    hg e _ _ he h.history⟩

theorem hold (h : Same f g p p') (values : List Value) : Same f g (p.hold values) (p'.hold values) :=
  ⟨h.here, h.waiting, h.threads, congrArg (values ++ ·) h.pinned, h.watchers, h.host, h.registries,
    h.history⟩

theorem unhold (h : Same f g p p') (n : Nat) : Same f g (p.unhold n) (p'.unhold n) :=
  ⟨h.here, h.waiting, h.threads, congrArg (·.drop n) h.pinned, h.watchers, h.host, h.registries,
    h.history⟩

theorem holds {H H' : Host η ν} (hH : H'.holds = H.holds) (h : Same f g p p') (i : Identity) :
    p'.holds H' i = p.holds H i := by
  rw [Process.holds, Process.holds, h.threads, h.pinned, h.host, hH]

/-- The same values are released, and read the same. -/
theorem releases {H H' : Host η ν} (hH : H'.holds = H.holds) (h : Same f g p p') :
    p'.releases H' = p.releases H := by
  have hrelease : p'.releaseEvent = p.releaseEvent := by
    funext v
    simp only [Process.releaseEvent, Process.slot?, h.current]
  simp only [Process.releases, h.watchers, h.holds hH, hrelease]

theorem sweep {H H' : Host η ν} (hH : H'.holds = H.holds) (h : Same f g p p')
    (hg : Event.Continues g) : Same f g (p.sweep H) (p'.sweep H') := by
  refine ⟨h.here, h.waiting, h.threads, h.pinned, ?_, h.host, h.registries, ?_⟩
  · simp only [Process.sweep, h.watchers, h.holds hH]
  · rw [Process.history_sweep, Process.history_sweep, h.releases hH]
    refine hg.append (fun e he => ?_) h.history
    obtain ⟨v, -, rfl⟩ := List.mem_map.1 (List.mem_reverse.1 he)
    exact id

theorem entered (h : Same f g p p') (n : ThreadName) : Same f g (p.entered n) (p'.entered n) :=
  ⟨rfl, by simp only [Process.entered, h.here, h.waiting], h.threads, h.pinned, h.watchers, h.host,
    h.registries, h.history⟩

theorem reentered (h : Same f g p p') (n : ThreadName) :
    Same f g (p.reentered n) (p'.reentered n) :=
  ⟨rfl, by simp only [Process.reentered, h.waiting], h.threads, h.pinned, h.watchers, h.host,
    h.registries, h.history⟩

/-- Sameness is a coupling of programs whose functions go the same way in both runs. -/
theorem coupling {H H' : Host η ν} (hg : Event.Continues g) (hH : H'.holds = H.holds)
    (hr : ∀ ref, Action.Agree (Same f g) (H.behaviour ref).read (H'.behaviour ref).read)
    (hw : ∀ ref v, Action.Agree (Same f g) ((H.behaviour ref).write v) ((H'.behaviour ref).write v))
    (hc : ∀ ref, Action.Agree (Same f g) (H.behaviour ref).clear (H'.behaviour ref).clear) :
    Coupling H H' (fun _ => True) (Same f g) where
  here h := h.here
  current h := h.current
  priors _ _ _ _ _ := trivial
  stored h _ := h.modifyCurrent _
  stacked h _ := h.modifyCurrent _
  opened h _ _ _ := h.modifyCurrent _
  marked h _ _ := h.modifyCurrent _
  held h := h.hold
  unheld h := h.unhold
  swept h := h.sweep hH hg
  logged h _ := h.record hg id
  called h _ := h.record hg id
  read _ ref _ := hr ref
  write _ ref _ := hw ref
  clear _ ref _ := hc ref

end Process.Same

namespace Action.Agree

variable {ρ ε : Type} {f : List Registry → ρ} {g : List (Event ν) → ε} {m m' : Action η ν α}

/-- Actions that agree do so while values are held. -/
theorem holding (hm : Agree (Process.Same f g) m m') (values : List Value) :
    Agree (Process.Same f g) (Action.holding values m) (Action.holding values m') := by
  intro p p' h
  obtain ⟨hexit, hr⟩ := hm _ _ (h.hold values)
  rw [holding_apply, holding_apply]
  exact ⟨hexit, hr.unhold _⟩

/-- Actions that agree on a thread agree on any other that waits for it. -/
theorem onThread (hm : Agree (Process.Same f g) m m') (n : ThreadName) :
    Agree (Process.Same f g) (Action.onThread n m) (Action.onThread n m') := by
  intro p p' h
  obtain ⟨hexit, hr⟩ := hm _ _ (h.entered n)
  rw [onThread_apply, onThread_apply, h.here]
  exact ⟨hexit, hr.reentered _⟩

end Action.Agree

end Ambient
