import Ambient.Proofs.Capturing
import Ambient.Proofs.Coupling
import Ambient.Proofs.Registering

/-! Snapshots by name. A snapshot keeps accessors, and installs and restores through them; the same
might be done key by key, asking the registry for the accessor each time. Proved: while the registry
has the accessors that it was captured with, it comes to the same which of the two is done. The
loops by name are bare; windows, the log and what is held over time have no part in them. -/

namespace Ambient

variable {η ν α β : Type}

/-! ### Loops by name -/

/-- Ways to read and to write what stands for a key. -/
structure KeyAccess (η ν : Type) where
  read : Key → Action η ν (Option Value)
  write : Key → Option Value → Action η ν (Except Failure Unit)

/-- Keys with the contents to be written, or that were read. -/
abbrev Contented : Type := List (Key × Option Value)

namespace KeyAccess

variable (K : KeyAccess η ν)

/-- Writes contents one after another, and answers the first failure. -/
def putAll : Contented → Action η ν (Except Failure Unit)
  | [] => pure (.ok ())
  | (k, content) :: rest => do
    let answer ← K.write k content
    let later ← putAll rest
    return answer.bind fun _ => later

/-- Reads each key, remembers what was there and writes the content. At the first failure all that
is remembered is written back, the last key first. -/
def swapIn : Contented → Contented → Action η ν (Except Failure Contented)
  | [], remembered => pure (.ok remembered)
  | (k, content) :: rest, remembered => do
    let prior ← K.read k
    match ← K.write k content with
    | .ok () => swapIn rest (remembered ++ [(k, prior)])
    | .error failure => do
      let _ ← K.putAll (remembered ++ [(k, prior)]).reverse
      return .error failure

end KeyAccess

/-- Keys that have an accessor are read and written as the registry does it. -/
structure KeyAccess.GoesBy (K : KeyAccess η ν) (H : Host η ν) (r : RegistryId) : Prop where
  read : ∀ k p, (p.registry r).isRegistered k = true → K.read k p = Registry.read H r k p
  write : ∀ k content p, (p.registry r).isRegistered k = true →
    K.write k content p = Registry.write H r k content p

namespace Registry

/-- A registry's own reading and writing. -/
def byName (H : Host η ν) (r : RegistryId) : KeyAccess η ν where
  read := Registry.read H r
  write := Registry.write H r

theorem goesBy_byName (H : Host η ν) (r : RegistryId) : (byName H r).GoesBy H r :=
  ⟨fun _ _ _ => rfl, fun _ _ _ _ => rfl⟩

end Registry

/-- What an entry says besides how it is accessed. -/
def Entry.pair (e : Entry) : Key × Option Value := (e.key, e.value)

/-! ### States that look alike -/

/-- What is to be seen of an event but by the log: which accessor was called and what it was asked,
or what the embedding program noted. -/
def Event.deed? : Event ν → Option ((Accessor × Request) ⊕ ν)
  | .called call => some (.inl (call.accessor, call.request))
  | .noted note => some (.inr note)
  | _ => none

/-- The states are the same but for the log, the windows, and what is held or to be released, and for
the order in which registries have their accessors. -/
structure Process.Resembles (p q : Process η ν) : Prop where
  here : q.here = p.here
  waiting : q.waiting = p.waiting
  storage : ∀ n, (q.thread n).storage = (p.thread n).storage
  inForce : ∀ n, (q.thread n).registries = (p.thread n).registries
  count : q.registries.length = p.registries.length
  registry : ∀ r, (p.registry r).Alike (q.registry r)
  host : q.host = p.host
  deeds : q.history.filterMap Event.deed? = p.history.filterMap Event.deed?

namespace Process.Resembles

variable {p q s : Process η ν}

theorem refl (p : Process η ν) : p.Resembles p :=
  ⟨rfl, rfl, fun _ => rfl, fun _ => rfl, rfl, fun _ => .refl _, rfl, rfl⟩

theorem symm (h : p.Resembles q) : q.Resembles p :=
  ⟨h.here.symm, h.waiting.symm, fun n => (h.storage n).symm, fun n => (h.inForce n).symm,
    h.count.symm, fun r => (h.registry r).symm, h.host.symm, h.deeds.symm⟩

theorem trans (h : p.Resembles q) (k : q.Resembles s) : p.Resembles s :=
  ⟨k.here.trans h.here, k.waiting.trans h.waiting, fun n => (k.storage n).trans (h.storage n),
    fun n => (k.inForce n).trans (h.inForce n), k.count.trans h.count,
    fun r => (h.registry r).trans (k.registry r), k.host.trans h.host, k.deeds.trans h.deeds⟩

theorem current_storage (h : p.Resembles q) : q.current.storage = p.current.storage := by
  rw [Process.current, Process.current, h.here, h.storage]

theorem of_threads (hh : q.here = p.here) (hw : q.waiting = p.waiting) (ht : q.threads = p.threads)
    (hr : q.registries = p.registries) (hg : q.host = p.host)
    (hd : q.history.filterMap Event.deed? = p.history.filterMap Event.deed?) : p.Resembles q := by
  have hthread : q.thread = p.thread := by
    funext n
    rw [thread, thread, ht]
  refine ⟨hh, hw, fun n => by rw [hthread], fun n => by rw [hthread], congrArg List.length hr,
    fun r k => ?_, hg, hd⟩
  rw [Process.registry, Process.registry, hr]

/-! Bookkeeping makes no difference. -/

theorem logged (p : Process η ν) (e : LogEvent) : p.Resembles (p.record (.logged e)) :=
  of_threads rfl rfl rfl rfl rfl rfl

theorem hold (p : Process η ν) (values : List Value) : p.Resembles (p.hold values) :=
  of_threads rfl rfl rfl rfl rfl rfl

theorem unhold (p : Process η ν) (n : Nat) : p.Resembles (p.unhold n) :=
  of_threads rfl rfl rfl rfl rfl rfl

theorem sweep (H : Host η ν) (p : Process η ν) : p.Resembles (p.sweep H) := by
  refine of_threads rfl rfl rfl rfl rfl ?_
  have hnone : ∀ gone : List Value, (gone.map p.releaseEvent).filterMap Event.deed? = [] := by
    intro gone
    simp [List.filterMap_map, Function.comp_def, releaseEvent, Event.deed?]
  simp only [Process.sweep, List.filterMap_append, List.filterMap_reverse, hnone, List.reverse_nil,
    List.nil_append]

theorem windows (p : Process η ν) (f : List Window → List Window) :
    p.Resembles (p.modifyCurrent fun t => { t with windows := f t.windows }) := by
  refine ⟨rfl, rfl, fun n => ?_, fun n => ?_, rfl, fun _ => .refl _, rfl, rfl⟩
  · rw [thread_modifyCurrent]
    split
    · next h => rw [h, Process.current]
    · rfl
  · rw [thread_modifyCurrent]
    split
    · next h => rw [h, Process.current]
    · rfl

theorem opened (p : Process η ν) (s : Snapshot) (priors : List Entry) :
    p.Resembles (p.opened s priors) :=
  windows p fun l => l ++ [({ snapshot := s, priors } : Window)]

theorem marked (p : Process η ν) (i : Nat) (status : WindowStatus) :
    p.Resembles (p.marked i status) :=
  windows p (·.modify i fun win => { win with status })

/-! What is done to both states alike. -/

theorem called (h : p.Resembles q) {c c' : Call} (ha : c'.accessor = c.accessor)
    (hr : c'.request = c.request) : (p.record (.called c)).Resembles (q.record (.called c')) := by
  refine ⟨h.here, h.waiting, h.storage, h.inForce, h.count, h.registry, h.host, ?_⟩
  simp only [record, List.filterMap_cons, Event.deed?, ha, hr, h.deeds]

theorem stored (h : p.Resembles q) (storage : Storage) :
    (p.modifyCurrent fun t => { t with storage }).Resembles
      (q.modifyCurrent fun t => { t with storage }) := by
  refine ⟨h.here, h.waiting, fun n => ?_, fun n => ?_, h.count, h.registry, h.host, h.deeds⟩
  · rw [thread_modifyCurrent, thread_modifyCurrent, h.here]
    split
    · rfl
    · exact h.storage n
  · rw [thread_modifyCurrent, thread_modifyCurrent, h.here]
    split
    · rw [Process.current, Process.current, h.here, h.inForce]
    · exact h.inForce n

end Process.Resembles

/-! ### Accessors -/

namespace Accessor

/-- The functions behind the accessor leave the registry its accessors. -/
def Spares (H : Host η ν) (r : RegistryId) (a : Accessor) : Prop :=
  (∀ p : Process η ν, (p.registry r).Alike ((a.getter H p).2.registry r)) ∧
    ∀ content (p : Process η ν), (p.registry r).Alike ((a.setter H content p).2.registry r)

/-- The functions behind the accessor see neither the log nor windows, nor what is held. -/
def Blind (H : Host η ν) (a : Accessor) : Prop :=
  Action.Agree Process.Resembles (a.getter H) (a.getter H) ∧
    ∀ content, Action.Agree Process.Resembles (a.setter H content) (a.setter H content)

variable {H : Host η ν} {r : RegistryId} {a : Accessor}

theorem spares_slot (H : Host η ν) (r : RegistryId) (k : Key) : (slot k).Spares H r := by
  refine ⟨fun p => ?_, fun content p => ?_⟩
  · rw [getter, Slot.read_apply]
    exact .refl _
  · rw [setter]
    cases hs : p.current.storage with
    | destroyed =>
      rw [Slot.write_destroyed H hs]
      exact .refl _
    | live slots =>
      rw [Slot.write_live H hs]
      exact .refl _

theorem blind_slot (H : Host η ν) (k : Key) : (slot k).Blind H := by
  refine ⟨?_, fun content p q h => ?_⟩
  · rw [getter, Slot.read_eq]
    exact .inspect fun p q h => by rw [Process.slot?, Process.slot?, h.current_storage]
  · have hstorage := h.current_storage
    rw [setter]
    cases hs : p.current.storage with
    | destroyed =>
      rw [Slot.write_destroyed H hs, Slot.write_destroyed H (hstorage.trans hs)]
      exact ⟨rfl, h⟩
    | live slots =>
      rw [Slot.write_live H hs, Slot.write_live H (hstorage.trans hs)]
      exact ⟨rfl, ((Process.Resembles.sweep H _).symm.trans (h.stored _)).trans (.sweep H _)⟩

theorem Spares.read (ha : a.Spares H r) (p : Process η ν) :
    (p.registry r).Alike ((a.read H p).2.registry r) := by
  rw [read_eq_getter]
  exact ha.1 _

theorem Spares.write (ha : a.Spares H r) (content : Option Value) (restoring : Option WindowRef)
    (p : Process η ν) : (p.registry r).Alike ((a.write H content restoring p).2.registry r) := by
  obtain ⟨done, hdone, hwrite⟩ := a.write_eq_setter H
  rw [hwrite]
  obtain rfl | rfl := hdone <;> exact ha.2 content _

theorem Blind.read (ha : a.Blind H) : Action.Agree Process.Resembles (a.read H) (a.read H) := by
  intro p q h
  rw [read_eq_getter, read_eq_getter]
  exact ha.1 _ _ (h.called rfl rfl)

/-- It makes no difference for which window's restoration a write is. -/
theorem Blind.write (ha : a.Blind H) (content : Option Value) (restoring restoring' : Option WindowRef) :
    Action.Agree Process.Resembles (a.write H content restoring) (a.write H content restoring') := by
  intro p q h
  obtain ⟨done, hdone, hwrite⟩ := a.write_eq_setter H
  rw [hwrite, hwrite]
  have hcalled : (p.record (.called ⟨a, .write content, restoring⟩)).Resembles
      (q.record (.called ⟨a, .write content, restoring'⟩)) := h.called rfl rfl
  obtain ⟨hexit, hset⟩ := ha.2 content _ _ hcalled
  refine ⟨hexit, ?_⟩
  obtain rfl | rfl := hdone
  · exact hset
  · exact ((Process.Resembles.sweep H _).symm.trans hset).trans (.sweep H _)

end Accessor

/-! ### Runs that match -/

/-- The runs end in states that look alike, and either both panic alike or both return, with answers
of which `T` holds in the state that the first one leads to. -/
inductive Matches (T : α → Process η ν → β → Prop) :
    Exit α × Process η ν → Exit β × Process η ν → Prop
  | returned {a b p q} (h : T a p b) (hr : p.Resembles q) : Matches T (.returned a, p) (.returned b, q)
  | panicked {text p q} (hr : p.Resembles q) : Matches T (.panicked text, p) (.panicked text, q)

/-- Something is made of what the second run answers. -/
theorem Matches.bind_pure {γ : Type} {T : α → Process η ν → β → Prop}
    {T' : α → Process η ν → γ → Prop} {x : Exit α × Process η ν} {m : Action η ν β}
    {q : Process η ν} {g : β → γ} (h : Matches T x (m q)) (hg : ∀ a p b, T a p b → T' a p (g b)) :
    Matches T' x ((m >>= fun b => pure (g b)) q) := by
  rw [Action.bind_apply]
  generalize m q = y at h
  cases h with
  | returned h hr => exact .returned (hg _ _ _ h) hr
  | panicked hr => exact .panicked hr

/-- An installation has opened a window that remembers what the loop remembers, or both have failed
with the same failure. -/
inductive Snapshot.Opens (s : Snapshot) :
    Except Failure Nat → Process η ν → Except Failure Contented → Prop
  | opened {i p priors} (hw : p.current.windows[i]? = some { snapshot := s, priors })
      (ha : priors.map Entry.accessor = s.entries.map Entry.accessor) :
      Opens s (.ok i) p (.ok (priors.map Entry.pair))
  | failed {failure p} : Opens s (.error failure) p (.error failure)

/-- What is held matters to no loop by name. -/
theorem Matches.unhold {s : Snapshot} {x : Exit (Except Failure Nat) × Process η ν}
    {y : Exit (Except Failure Contented) × Process η ν} (h : Matches s.Opens x y) (n : Nat) :
    Matches s.Opens (x.1, x.2.unhold n) y := by
  cases h with
  | @returned answer remembered p q hopens hr =>
    refine .returned ?_ ((Process.Resembles.unhold p n).symm.trans hr)
    cases hopens with
    | opened hw ha => exact .opened hw ha
    | failed => exact .failed
  | @panicked text p q hr => exact .panicked ((Process.Resembles.unhold p n).symm.trans hr)

section

variable {H : Host η ν} {r : RegistryId} {t : Registry} {p q : Process η ν} {K : KeyAccess η ν}

/-- While the registry has the accessor, its key is read and written through it. -/
theorem KeyAccess.GoesBy.read_of_mem (hK : K.GoesBy H r) {a : Accessor} (ha : a ∈ t.accessors)
    (hp : t.Alike (p.registry r)) : K.read a.key p = a.read H p := by
  have hget : (p.registry r).get? a.key = some a := (hp a.key).trans (Registry.mem_accessors.1 ha)
  rw [hK.read _ _ (by rw [Registry.isRegistered, hget]; rfl), Registry.read_of_get? H hget]

theorem KeyAccess.GoesBy.write_of_mem (hK : K.GoesBy H r) {a : Accessor} (ha : a ∈ t.accessors)
    (hp : t.Alike (p.registry r)) (content : Option Value) :
    K.write a.key content p = a.write H content none p := by
  have hget : (p.registry r).get? a.key = some a := (hp a.key).trans (Registry.mem_accessors.1 ha)
  rw [hK.write _ _ _ (by rw [Registry.isRegistered, hget]; rfl), Registry.write_of_get? H hget]

/-- Keys are accessed by the registry, and the functions behind the accessors that it should have leave
it those and are blind. -/
structure Registry.Tame (H : Host η ν) (r : RegistryId) (t : Registry) (K : KeyAccess η ν) : Prop where
  goesBy : K.GoesBy H r
  spares : ∀ a ∈ t.accessors, a.Spares H r
  blind : ∀ a ∈ t.accessors, a.Blind H

namespace Registry.Tame

/-- A reading through an accessor is followed by one of its key. -/
theorem read (ht : Tame H r t K) {a : Accessor} (ha : a ∈ t.accessors) (h : p.Resembles q)
    (hp : t.Alike (p.registry r)) {exit : Exit (Option Value)} {p₁ : Process η ν}
    (hr : a.read H p = (exit, p₁)) : t.Alike (p₁.registry r) ∧
      ∃ q₁, K.read a.key q = (exit, q₁) ∧ p₁.Resembles q₁ := by
  have hkept := (ht.spares a ha).read p
  rw [hr] at hkept
  rw [ht.goesBy.read_of_mem ha (hp.trans (h.registry r))]
  exact ⟨hp.trans hkept, (ht.blind a ha).read.follow h hr⟩

theorem write (ht : Tame H r t K) {a : Accessor} (ha : a ∈ t.accessors) (h : p.Resembles q)
    (hp : t.Alike (p.registry r)) {content : Option Value} {restoring : Option WindowRef}
    {exit : Exit (Except Failure Unit)} {p₁ : Process η ν}
    (hw : a.write H content restoring p = (exit, p₁)) : t.Alike (p₁.registry r) ∧
      ∃ q₁, K.write a.key content q = (exit, q₁) ∧ p₁.Resembles q₁ := by
  have hkept := (ht.spares a ha).write content restoring p
  rw [hw] at hkept
  rw [ht.goesBy.write_of_mem ha (hp.trans (h.registry r))]
  exact ⟨hp.trans hkept, ((ht.blind a ha).write content restoring none).follow h hw⟩

/-! ### Restorations -/

theorem putBack (ht : Tame H r t K) (ref : WindowRef) {l : List Entry}
    (hl : ∀ e ∈ l, e.accessor ∈ t.accessors) (first : Option Failure) (h : p.Resembles q)
    (hp : t.Alike (p.registry r)) :
    Matches (fun found _ answer => answerOf found = (answerOf first).bind fun _ => answer)
      (Window.putBack H ref l first p) (K.putAll (l.map Entry.pair) q) := by
  induction l generalizing first p q with
  | nil =>
    refine .returned ?_ h
    cases first <;> rfl
  | cons e rest ih =>
    have hrest : ∀ d ∈ rest, d.accessor ∈ t.accessors := fun d hd => hl d (List.mem_cons_of_mem _ hd)
    rcases hw : e.accessor.write H e.value (some ref) p with ⟨(failure | ⟨⟩) | text, p₁⟩ <;>
      obtain ⟨hp₁, q₁, hq₁, hr⟩ := ht.write (hl e List.mem_cons_self) h hp hw <;>
      change K.write e.pair.1 e.pair.2 q = _ at hq₁
    · rw [Window.putBack, Action.bind_of_returned hw, List.map_cons, KeyAccess.putAll,
        Action.bind_of_returned hq₁]
      have hlogged := (Process.Resembles.logged p₁ (.restoreFailed e.key failure)).symm.trans hr
      refine (ih hrest (first <|> some failure) hlogged hp₁).bind_pure fun found _ answer hT => ?_
      rw [hT]
      cases first <;> rfl
    · rw [Window.putBack, Action.bind_of_returned hw, List.map_cons, KeyAccess.putAll,
        Action.bind_of_returned hq₁]
      exact (ih hrest first hr hp₁).bind_pure fun _ _ _ hT => hT
    · rw [Window.putBack, Action.bind_of_panicked hw, List.map_cons, KeyAccess.putAll,
        Action.bind_of_panicked hq₁]
      exact .panicked hr

theorem restore (ht : Tame H r t K) {i : Nat} {win : Window} (hw : p.current.windows[i]? = some win)
    (hs : win.status = .standing) (hl : ∀ e ∈ win.priors, e.accessor ∈ t.accessors)
    (h : p.Resembles q) (hp : t.Alike (p.registry r)) :
    Matches (fun restored _ answer => restored = answer) (Window.restore H i p)
      (K.putAll (win.priors.reverse.map Entry.pair) q) := by
  have hback := ht.putBack ⟨p.here, i⟩ (fun e he => hl e (List.mem_reverse.1 he))
    none ((Process.Resembles.marked p i .closing).symm.trans h) hp
  rw [Window.restore_standing hw hs]
  generalize Window.putBack H ⟨p.here, i⟩ win.priors.reverse none (p.marked i .closing) = x at hback
  generalize K.putAll (win.priors.reverse.map Entry.pair) q = y at hback
  cases hback with
  | returned hanswer hr =>
    exact .returned hanswer ((Process.Resembles.logged _ _).symm.trans hr)
  | panicked hr => exact .panicked hr

theorem close (ht : Tame H r t K) {i : Nat} {win : Window} (hw : p.current.windows[i]? = some win)
    (hs : win.status = .standing) (hl : ∀ e ∈ win.priors, e.accessor ∈ t.accessors)
    (h : p.Resembles q) (hp : t.Alike (p.registry r)) :
    Matches (fun closed _ answer => closed = answer) (Window.close H i p)
      (K.putAll (win.priors.reverse.map Entry.pair) q) := by
  have hrestore := ht.restore hw hs hl h hp
  have hretired : ∀ u : Process η ν, u.Resembles ((u.marked i .ended).sweep H) :=
    fun u => (Process.Resembles.marked u i .ended).trans (.sweep H _)
  rw [Window.close_apply]
  generalize Window.restore H i p = x at hrestore
  generalize K.putAll (win.priors.reverse.map Entry.pair) q = y at hrestore
  cases hrestore with
  | returned hanswer hr => exact .returned hanswer ((hretired _).symm.trans hr)
  | panicked hr => exact .panicked ((hretired _).symm.trans hr)

/-- A failure of the restoration itself is only logged. -/
theorem discard (ht : Tame H r t K) {i : Nat} {win : Window} (hw : p.current.windows[i]? = some win)
    (hs : win.status = .standing) (hl : ∀ e ∈ win.priors, e.accessor ∈ t.accessors)
    (h : p.Resembles q) (hp : t.Alike (p.registry r)) :
    Matches (fun _ _ _ => True) (Window.discard H i p)
      (K.putAll (win.priors.reverse.map Entry.pair) q) := by
  have hrestore := ht.restore hw hs hl h hp
  have hretired : ∀ u : Process η ν, u.Resembles ((u.marked i .ended).sweep H) :=
    fun u => (Process.Resembles.marked u i .ended).trans (.sweep H _)
  rw [Window.discard, Window.endWith_apply]
  generalize Window.restore H i p = x at hrestore
  generalize K.putAll (win.priors.reverse.map Entry.pair) q = y at hrestore
  cases hrestore with
  | @returned restored answer u v hanswer hr =>
    cases restored with
    | ok => exact .returned trivial ((hretired u).symm.trans hr)
    | error failure =>
      have hreported := (Process.Resembles.logged u (.rollbackFailed failure)).trans (hretired _)
      exact .returned trivial (hreported.symm.trans hr)
  | panicked hr => exact .panicked ((hretired _).symm.trans hr)

/-! ### Installations -/

/-- An installation that stops at an entry: what is in place is put back, and the failure is told. -/
theorem refused (ht : Tame H r t K) {s : Snapshot} {priors : List Entry} {failure : Failure}
    (hl : ∀ e ∈ priors, e.accessor ∈ t.accessors) (h : p.Resembles q) (hp : t.Alike (p.registry r))
    (k : Key) (n : Nat) :
    let discarded := Window.discard H p.current.windows.length
      ((p.record (.logged (.installFailed k failure))).opened s priors)
    Matches s.Opens
      (match discarded.1 with
        | .returned () => .returned (.error failure)
        | .panicked text => .panicked text, discarded.2.unhold n)
      ((do let _ ← K.putAll (priors.map Entry.pair).reverse
           return .error failure : Action η ν (Except Failure Contented)) q) := by
  set begun := p.record (.logged (.installFailed k failure))
  have hbegun : p.Resembles (begun.opened s priors) :=
    (Process.Resembles.logged p _).trans (.opened begun s priors)
  have hdiscard := ht.discard (begun.window_opened s priors) rfl hl
    (hbegun.symm.trans h) hp
  rw [List.map_reverse] at hdiscard
  rw [Action.bind_apply]
  generalize K.putAll (priors.map Entry.pair).reverse q = y at hdiscard
  change Matches _ (Window.discard H p.current.windows.length (begun.opened s priors)) y at hdiscard
  generalize Window.discard H p.current.windows.length (begun.opened s priors) = x at hdiscard
  cases hdiscard with
  | returned _ hr => exact .returned .failed ((Process.Resembles.unhold _ n).symm.trans hr)
  | panicked hr => exact .panicked ((Process.Resembles.unhold _ n).symm.trans hr)

theorem installFrom (ht : Tame H r t K) {s : Snapshot} {l priors : List Entry}
    (hs : priors.map Entry.accessor ++ l.map Entry.accessor = s.entries.map Entry.accessor)
    (hl : ∀ a ∈ s.entries.map Entry.accessor, a ∈ t.accessors) (h : p.Resembles q)
    (hp : t.Alike (p.registry r)) :
    Matches s.Opens (s.installFrom H l priors p)
      (K.swapIn (l.map Entry.pair) (priors.map Entry.pair) q) := by
  induction l generalizing priors p q with
  | nil =>
    have hopened := (Process.Resembles.logged p (.installed priors.length)).trans (.opened _ s priors)
    refine .returned (.opened ?_ ?_) (hopened.symm.trans h)
    · exact (p.record (.logged (.installed priors.length))).window_opened s priors
    · simpa using hs
  | cons e rest ih =>
    have he : e.accessor ∈ t.accessors := hl _ (by rw [← hs]; simp)
    rcases hread : e.accessor.read H p with ⟨prior | text, p₁⟩ <;>
      obtain ⟨hp₁, q₁, hq₁, hr₁⟩ := ht.read he h hp hread <;>
      change K.read e.pair.1 q = _ at hq₁
    · set priors' : List Entry := priors ++ [⟨e.accessor, prior⟩]
      have hs' : priors'.map Entry.accessor ++ rest.map Entry.accessor =
          s.entries.map Entry.accessor := by simpa [priors'] using hs
      have hpriors : priors'.map Entry.pair = priors.map Entry.pair ++ [(e.pair.1, prior)] := by
        simp [priors', Entry.pair, Entry.key]
      have hheld := (Process.Resembles.hold p₁ prior.toList).symm.trans hr₁
      rcases hw : e.accessor.write H e.value none (p₁.hold prior.toList) with
        ⟨(failure | ⟨⟩) | text, p₂⟩ <;>
        obtain ⟨hp₂, q₂, hq₂, hr₂⟩ := ht.write he hheld hp₁ hw <;>
        change K.write e.pair.1 e.pair.2 q₁ = _ at hq₂
      · rw [Snapshot.installFrom_of_error hread hw, List.map_cons, KeyAccess.swapIn,
          Action.bind_of_returned hq₁, Action.bind_of_returned hq₂, ← hpriors]
        refine ht.refused (fun d hd => hl _ ?_) hr₂ hp₂ e.key _
        rw [← hs']
        exact List.mem_append_left _ (List.mem_map_of_mem hd)
      · rw [Snapshot.installFrom_of_ok hread hw, List.map_cons, KeyAccess.swapIn,
          Action.bind_of_returned hq₁, Action.bind_of_returned hq₂, ← hpriors]
        exact (ih hs' hr₂ hp₂).unhold _
      · rw [Snapshot.installFrom, Action.bind_of_returned hread, Action.holding_apply,
          Action.bind_of_panicked hw, List.map_cons, KeyAccess.swapIn, Action.bind_of_returned hq₁,
          Action.bind_of_panicked hq₂]
        exact .panicked ((Process.Resembles.unhold p₂ _).symm.trans hr₂)
    · rw [Snapshot.installFrom, Action.bind_of_panicked hread, List.map_cons, KeyAccess.swapIn,
        Action.bind_of_panicked hq₁]
      exact .panicked hr₁

end Registry.Tame

/-! ### Entries that are found -/

theorem Placed.registry {l priors : List Entry} (h : Placed H p l priors q)
    (hl : ∀ e ∈ l, e.accessor.Spares H r) : (p.registry r).Alike (q.registry r) := by
  induction h with
  | nil p => exact .refl _
  | @cons p p₁ p₂ q e rest prior priors hr hw _ ih =>
    have he := hl e List.mem_cons_self
    have hread := he.read p
    have hwritten := he.write e.value none (p₁.hold prior.toList)
    rw [hr] at hread
    rw [hw] at hwritten
    have hrest := ih fun d hd => hl d (List.mem_cons_of_mem _ hd)
    exact (hread.trans hwritten).trans hrest

theorem WrittenBack.registry {ref : WindowRef} {done : List (Entry × Except Failure Unit)}
    (h : WrittenBack H ref p done q) (hd : ∀ d ∈ done, d.1.accessor.Spares H r) :
    (p.registry r).Alike (q.registry r) := by
  induction h with
  | nil p => exact .refl _
  | @ok p p₁ q e rest hw _ ih =>
    have hwritten := (hd _ List.mem_cons_self).write e.value (some ref) p
    rw [hw] at hwritten
    exact hwritten.trans (ih fun d hd' => hd d (List.mem_cons_of_mem _ hd'))
  | @error p p₁ q e rest failure hw _ ih =>
    have hwritten := (hd _ List.mem_cons_self).write e.value (some ref) p
    rw [hw] at hwritten
    exact hwritten.trans (ih fun d hd' => hd d (List.mem_cons_of_mem _ hd'))

/-- Begun while the registry has this table, an installation or a restoration comes to no entry whose
key has not got the entry's accessor in the registry at that time. -/
structure Snapshot.FoundIn (H : Host η ν) (r : RegistryId) (t : Registry) (s : Snapshot) : Prop where
  placing : ∀ {p q : Process η ν} {before x after priors}, t.Alike (p.registry r) →
    s.entries = before ++ x :: after → Placed H (p.hold s.values) before priors q →
      (q.registry r).get? x.key = some x.accessor ∧
        ((x.accessor.read H q).2.registry r).get? x.key = some x.accessor
  back : ∀ {p q : Process η ν} {ref done}, t.Alike (p.registry r) →
    (∀ d ∈ done, d.1.accessor ∈ s.entries.map Entry.accessor) → WrittenBack H ref p done q →
      ∀ x : Entry, x.accessor ∈ s.entries.map Entry.accessor →
        (q.registry r).get? x.key = some x.accessor

theorem Snapshot.foundIn {s : Snapshot} (hs : ∀ a ∈ s.entries.map Entry.accessor, a ∈ t.accessors)
    (hspares : ∀ a ∈ t.accessors, a.Spares H r) : s.FoundIn H r t := by
  refine ⟨fun {p q before x after priors} hp hsplit hplaced => ?_,
    fun {p q ref done} hp hdone hback x hx => ?_⟩
  · have hmem : ∀ e ∈ s.entries, e.accessor ∈ t.accessors := fun e he => hs _ (List.mem_map_of_mem he)
    have hx : x.accessor ∈ t.accessors := hmem x (by rw [hsplit]; simp)
    have hq : t.Alike (q.registry r) := by
      refine hp.trans (hplaced.registry fun e he => hspares _ (hmem e ?_))
      rw [hsplit]
      exact List.mem_append_left _ he
    have hget := Registry.mem_accessors.1 hx
    exact ⟨(hq _).trans hget, ((hq.trans ((hspares _ hx).read q)) _).trans hget⟩
  · have hq : t.Alike (q.registry r) :=
      hp.trans (hback.registry fun d hd => hspares _ (hs _ (hdone d hd)))
    exact (hq _).trans (Registry.mem_accessors.1 (hs _ hx))

end

/-- A snapshot that was captured of a registry is installed, or a window of it is closed, while the
registry has the same accessors as then, whose functions leave it those and otherwise do what they
like. For each entry the registry has the entry's own accessor when its turn comes. Where functions do
not see the bookkeeping, one might as well go by the keys, in ascending order, and have the registry
read and write each: that makes the same calls with the same contents, and comes to the same result
and the same state; and it makes no difference what would be done for a key without an accessor. -/
theorem Snapshot.by_name {H : Host η ν} {s : Snapshot} {t : Registry} (hs : s.CapturedFrom H t)
    {r : RegistryId} (hspares : ∀ a ∈ t.accessors, a.Spares H r) :
    s.keys.Pairwise (· < ·) ∧ s.FoundIn H r t ∧
      ((∀ a ∈ t.accessors, a.Blind H) → ∀ K : KeyAccess η ν, K.GoesBy H r →
        ∀ p q : Process η ν, p.Resembles q → t.Alike (p.registry r) →
        Matches s.Opens (s.install H p) (K.swapIn (s.entries.map Entry.pair) [] q) ∧
        ∀ i remembered, s.Opens (.ok i) p (.ok remembered) →
          Matches (fun closed _ answer => closed = answer) (Window.close H i p)
            (K.putAll remembered.reverse q)) := by
  have hmem : ∀ a ∈ s.entries.map Entry.accessor, a ∈ t.accessors := fun a ha => hs.accessors.subset ha
  refine ⟨hs.keys_sorted, Snapshot.foundIn hmem hspares, fun hblind K hK p q h hp => ?_⟩
  have ht : Registry.Tame H r t K := ⟨hK, hspares, hblind⟩
  refine ⟨?_, fun i remembered hopens => ?_⟩
  · have hheld := (Process.Resembles.hold p s.values).symm.trans h
    exact (ht.installFrom rfl hmem hheld hp).unhold _
  · cases hopens with
    | @opened _ _ priors hw ha =>
      rw [← List.map_reverse]
      refine ht.close hw rfl (fun e he => hmem _ ?_) h hp
      rw [← ha]
      exact List.mem_map_of_mem he

theorem Accessor.spares_rack (r : RegistryId) (place : Nat → Key)
    (answer : Nat → Option Value → Exit (Except Failure Unit)) (a : Accessor) :
    a.Spares (rack (ν := ν) place answer) r := by
  cases a with
  | slot k => exact spares_slot _ r k
  | custom k ref =>
    exact ⟨fun _ => .refl _, fun content _ => by cases content <;> exact .refl _⟩

theorem Accessor.blind_rack (place : Nat → Key)
    (answer : Nat → Option Value → Exit (Except Failure Unit)) (a : Accessor) :
    a.Blind (rack (ν := ν) place answer) := by
  cases a with
  | slot k => exact blind_slot _ k
  | custom k ref =>
    have hput : ∀ content, Action.Agree Process.Resembles
        (do Action.change fun p : Process (Table Value) ν =>
              { p with host := p.host.assign (place ref) content }
            Action.finish (answer ref content))
        (do Action.change fun p : Process (Table Value) ν =>
              { p with host := p.host.assign (place ref) content }
            Action.finish (answer ref content)) := by
      intro content p q h
      have hhost := congrArg (·.assign (place ref) content) h.host
      exact ⟨rfl, h.here, h.waiting, h.storage, h.inForce, h.count, h.registry, hhost, h.deeds⟩
    refine ⟨.inspect fun p q h => by rw [h.host], fun content => ?_⟩
    cases content with
    | none => exact hput none
    | some v => exact hput (some v)

namespace Snapshot

/-- A cell that can only be cleared. -/
def clearable : Host (Table Value) Unit :=
  rack (fun _ => "cell") fun _ content =>
    .returned (if content = none then .ok () else .error (.accessor "b" "full"))

/-- A process with a slot that holds a value, and with that cell. -/
def halfReady : Process (Table Value) Unit where
  here := "main"
  threads := Table.empty.insert "main"
    { storage := .live (Table.empty.insert "a" ⟨.numbered 0, .unit⟩) }
  registries := [(Registry.empty.register (.custom "b" 0)).register (.slot "a")]
  host := .empty

/-- A value for each of them. -/
def ofBoth : Snapshot where
  entries := [⟨.slot "a", some ⟨.numbered 1, .unit⟩⟩, ⟨.custom "b" 0, some ⟨.numbered 1, .unit⟩⟩]

/-- The same by keys, but that a key without an accessor is taken for written. -/
def carefree : KeyAccess (Table Value) Unit where
  read := Registry.read clearable processWide
  write k content := do
    if (← Registry.look processWide).isRegistered k then
      Registry.write clearable processWide k content
    else return .ok ()

theorem goesBy_carefree : carefree.GoesBy clearable processWide := by
  refine ⟨fun _ _ _ => rfl, fun k content p hk => ?_⟩
  change (if (p.registry processWide).isRegistered k = true then _ else _ : Action _ _ _) p = _
  rw [if_pos hk]

/-- The slot has been written when the cell fails, and has its value again in the end. By the keys it
comes to the same, with the registry's own writing, and even if a key without an accessor were to be
taken for written. -/
theorem by_name_halfReady :
    ∃ q, ofBoth.install clearable halfReady = (.returned (.error (.accessor "b" "full")), q) ∧
      q.slot? "a" = some ⟨.numbered 0, .unit⟩ ∧
      ∀ K ∈ [Registry.byName clearable processWide, carefree], ∃ q',
        K.swapIn (ofBoth.entries.map Entry.pair) [] halfReady =
          (.returned (.error (.accessor "b" "full")), q') ∧ q.Resembles q' := by
  have hcaptured : ofBoth.CapturedFrom clearable (halfReady.registry processWide) :=
    ⟨processWide, some (Table.ofList [("a", ⟨.numbered 1, .unit⟩), ("b", ⟨.numbered 1, .unit⟩)]), {},
      halfReady, _, rfl, rfl⟩
  obtain ⟨-, -, hloops⟩ := by_name hcaptured (r := processWide)
    fun a _ => a.spares_rack processWide _ _
  have hinstall : ofBoth.install clearable halfReady =
      (.returned (.error (.accessor "b" "full")), _) := rfl
  refine ⟨_, hinstall, rfl, fun K hK => ?_⟩
  have hgoes : K.GoesBy clearable processWide := by
    rcases List.mem_pair.1 hK with rfl | rfl
    · exact Registry.goesBy_byName clearable processWide
    · exact goesBy_carefree
  obtain ⟨hmatches, -⟩ := hloops (fun a _ => a.blind_rack _ _) K hgoes halfReady halfReady (.refl _)
    (.refl _)
  obtain ⟨exit, q', hswap⟩ : ∃ exit q', K.swapIn (ofBoth.entries.map Entry.pair) [] halfReady =
      (exit, q') := ⟨_, _, rfl⟩
  rw [hinstall, hswap] at hmatches
  cases hmatches with
  | returned hopens hr =>
    cases hopens
    exact ⟨q', hswap, hr⟩

end Snapshot

end Ambient
