import Ambient.Operation
import Ambient.Proofs.Bookkeeping
import Ambient.Proofs.Polling

/-! What lasts through the library's operations. A relation between a state and a later one endures if
it is held by the opening of a window, by a restoration as a whole, and by whatever concerns neither
windows nor scoped registries. It persists, which is less, if accessors may be used and snapshots
taken; and it lasts, which is more, if restorations may be followed entry by entry. Proved: each
operation of the library leads to a state so related, with accessors whose functions do, which may
call the library again. Which relations are of that kind is left to other modules. -/

namespace Ambient

variable {η ν α β ω : Type}

/-! ### What concerns no window -/

namespace LogEvent

/-- Whether a log event tells of the opening of a window or of its end. -/
def ofWindow : LogEvent → Bool
  | installed _ => true
  | installFailed _ _ => true
  | closed _ => true
  | _ => false

/-- Whether a log event tells that a task goes on or has stopped. -/
def ofTask : LogEvent → Bool
  | resuming _ => true
  | suspending _ => true
  | _ => false

theorem ofWindow_of_ofTask {e : LogEvent} (h : e.ofTask = true) : e.ofWindow = false := by
  cases e <;> simp_all [ofTask, ofWindow]

end LogEvent

namespace Process

/-- From `p` to `q` nothing was done to windows or to the registries in force, no accessor was called,
and nothing was noted or logged. -/
structure Aside (p q : Process η ν) : Prop where
  here : q.here = p.here
  windows : ∀ n, (q.thread n).windows = (p.thread n).windows
  registries : ∀ n, (q.thread n).registries = (p.thread n).registries
  noted : ∀ note, q.Noted note ↔ p.Noted note
  calls : q.calls = p.calls
  logs : q.logs = p.logs

theorem aside_of_eq {p q : Process η ν} (hh : q.here = p.here) (ht : q.threads = p.threads)
    (he : q.history = p.history) : p.Aside q := by
  have hthread : q.thread = p.thread := by
    funext n
    rw [thread, thread, ht]
  exact ⟨hh, fun n => by rw [hthread], fun n => by rw [hthread],
    fun note => by rw [Noted, he, Noted], by rw [calls, he, calls], by rw [logs, he, logs]⟩

theorem Aside.refl (p : Process η ν) : p.Aside p := aside_of_eq rfl rfl rfl

theorem aside_hold (p : Process η ν) (values : List Value) : p.Aside (p.hold values) :=
  aside_of_eq rfl rfl rfl

theorem aside_unhold (p : Process η ν) (n : Nat) : p.Aside (p.unhold n) := aside_of_eq rfl rfl rfl

theorem aside_sweep (H : Host η ν) (p : Process η ν) : p.Aside (p.sweep H) := by
  exact ⟨rfl, fun _ => rfl, fun _ => rfl, fun note => by simp [Noted, sweep, releaseEvent],
    p.calls_sweep H, logs_sweep H p⟩

/-- What is done to the running thread besides its windows and its registries. -/
theorem aside_modifyCurrent (p : Process η ν) {f : Thread → Thread}
    (hw : (f p.current).windows = p.current.windows)
    (hr : (f p.current).registries = p.current.registries) : p.Aside (p.modifyCurrent f) := by
  refine ⟨rfl, fun n => ?_, fun n => ?_, fun _ => Iff.rfl, rfl, rfl⟩
  · rw [thread_modifyCurrent]
    split
    · next h => rw [hw, h, current]
    · rfl
  · rw [thread_modifyCurrent]
    split
    · next h => rw [hr, h, current]
    · rfl

/-- A window that is over may be marked as over once more. -/
theorem aside_marked {p : Process η ν} {i : Nat} {status : WindowStatus}
    (h : ∀ win, p.current.windows[i]? = some win → win.status = status) :
    p.Aside (p.marked i status) := by
  refine aside_modifyCurrent p (List.ext_getElem? fun j => ?_) rfl
  rw [List.getElem?_modify]
  by_cases hij : i = j
  · subst hij
    cases hw : p.current.windows[i]? with
    | none => simp
    | some win => simp [← h win hw]
  · simp [hij]

end Process

/-! ### Relations that accessors do not break -/

/-- From whatever state the action begins in, the relation holds of where it leads. -/
def Action.Lasts (R : Process η ν → Process η ν → Prop) (m : Action η ν α) : Prop :=
  ∀ p, R p (m p).2

/-- What goes on from a state that is so related. -/
theorem Action.bind_lasts {R : Process η ν → Process η ν → Prop}
    (htrans : ∀ {p q r}, R p q → R q r → R p r) {m : Action η ν α} {f : α → Action η ν β}
    {p q : Process η ν} (h : R p (m q).2) (hf : ∀ a, (f a).Lasts R) : R p ((m >>= f) q).2 := by
  rw [bind_apply]
  rcases hm : m q with ⟨a | text, r⟩ <;> rw [hm] at h
  · exact htrans h (hf a r)
  · exact h

/-- What is said of an action is so of each of the functions. -/
structure Behaviour.All (P : {α : Type} → Action η ν α → Prop) (b : Behaviour η ν) : Prop where
  read : P b.read
  write : ∀ v, P (b.write v)
  clear : P b.clear

/-- The relation holds of wherever one of the functions leads. -/
abbrev Behaviour.Lasts (R : Process η ν → Process η ν → Prop) (b : Behaviour η ν) : Prop :=
  b.All (Action.Lasts R)

/-- A relation between a state and a later one which reading and writing through accessors cannot
break, nor taking snapshots. -/
structure Persisting (H : Host η ν) (R : Process η ν → Process η ν → Prop) : Prop where
  refl : ∀ p, R p p
  trans : ∀ {p q r}, R p q → R q r → R p r
  held : ∀ p values, R p (p.hold values)
  unheld : ∀ p n, R p (p.unhold n)
  stored : ∀ p storage, R p (p.modifyCurrent fun t => { t with storage })
  swept : ∀ p, R p (p.sweep H)
  called : ∀ p call, call.restoring = none → R p (p.record (.called call))
  captured : ∀ p fromCarrier keys, R p (p.record (.logged (.captured fromCarrier keys)))
  functions : ∀ ref, (H.behaviour ref).Lasts R

namespace Persisting

variable {H : Host η ν} {R : Process η ν → Process η ν → Prop}

theorem bind (P : Persisting H R) {m : Action η ν α} {f : α → Action η ν β} (hm : m.Lasts R)
    (hf : ∀ a, (f a).Lasts R) : (m >>= f).Lasts R :=
  fun p => Action.bind_lasts (R := R) P.trans (hm p) hf

theorem holding (P : Persisting H R) (values : List Value) {m : Action η ν α} (hm : m.Lasts R) :
    (Action.holding values m).Lasts R := by
  intro p
  rw [Action.holding_apply]
  exact P.trans (P.trans (P.held p values) (hm _)) (P.unheld _ _)

theorem writeSlot (P : Persisting H R) (k : Key) (content : Option Value) :
    (Slot.write H k content).Lasts R := by
  intro p
  cases hs : p.current.storage with
  | destroyed =>
    rw [Slot.write_destroyed H hs]
    exact P.refl p
  | live slots =>
    rw [Slot.write_live H hs]
    exact P.trans (P.stored p _) (P.swept _)

theorem readAccessor (P : Persisting H R) (a : Accessor) : (a.read H).Lasts R := by
  intro p
  have hcalled := P.called p { accessor := a, request := .read } rfl
  cases a with
  | slot k =>
    rw [Accessor.read_slot]
    exact hcalled
  | custom k ref => exact P.trans hcalled ((P.functions ref).read _)

/-- What a write does when its call has been recorded, for whichever window's restoration it is. -/
theorem afterCall (P : Persisting H R) (a : Accessor) (content : Option Value)
    (restoring : Option WindowRef) (p : Process η ν) :
    R (p.record (.called { accessor := a, request := .write content, restoring }))
      (a.write H content restoring p).2 := by
  cases a with
  | slot k => exact P.writeSlot k content _
  | custom k ref =>
    cases content with
    | none => exact P.trans ((P.functions ref).clear _) (P.swept _)
    | some v => exact P.trans ((P.functions ref).write v _) (P.swept _)

theorem writeAccessor (P : Persisting H R) (a : Accessor) (content : Option Value) :
    (a.write H content).Lasts R :=
  fun p => P.trans (P.called p _ rfl) (P.afterCall a content none p)

theorem readKey (P : Persisting H R) (r : RegistryId) (k : Key) : (Registry.read H r k).Lasts R := by
  refine P.bind (m := Registry.look r) P.refl fun table => ?_
  split
  · exact P.refl
  · exact P.readAccessor _

theorem writeKey (P : Persisting H R) (r : RegistryId) (k : Key) (content : Option Value) :
    (Registry.write H r k content).Lasts R := by
  refine P.bind (m := Registry.look r) P.refl fun table => ?_
  split
  · exact P.refl
  · exact P.writeAccessor _ content

theorem readAll (P : Persisting H R) (l : List Accessor) : (Snapshot.readAll H l).Lasts R := by
  induction l with
  | nil => exact P.refl
  | cons a rest ih =>
    refine P.bind (P.readAccessor a) fun value => ?_
    exact P.bind (P.holding _ ih) fun _ => P.refl

theorem capture (P : Persisting H R) (r : RegistryId) (carrier : Option Carrier)
    (settings : Settings) : (Snapshot.capture H r carrier settings).Lasts R := by
  refine P.bind (m := Registry.look r) P.refl fun table => ?_
  have hdone : ∀ (fromCarrier : Bool) (entries : List Entry),
      (do Action.log (.captured fromCarrier entries.length); return ⟨entries⟩ :
        Action η ν Snapshot).Lasts R :=
    fun _ _ => P.bind (fun p => P.captured p _ _) fun _ => P.refl
  generalize settings.carrierInPlay carrier = inPlay
  cases inPlay with
  | none => exact P.bind (P.readAll _) (hdone false)
  | some c => exact P.bind P.refl (hdone true)

end Persisting

/-! ### Relations that endure -/

/-- A relation between a state and a later one which what the library does to windows cannot break,
but for restorations, nor what the embedding program `H` does. -/
structure Abiding (H : Host η ν) (R : Process η ν → Process η ν → Prop) : Prop where
  aside : ∀ {p q}, p.Aside q → R p q
  called : ∀ p call, call.restoring = none → R p (p.record (.called call))
  logged : ∀ p (e : LogEvent), e.ofWindow = false → e.ofTask = false → R p (p.record (.logged e))
  trans : ∀ {p q r}, R p q → R q r → R p r
  installed : ∀ p (s : Snapshot) (priors : List Entry), priors.length = s.entries.length →
    R p ((p.record (.logged (.installed priors.length))).opened s priors)
  refused : ∀ p (s : Snapshot) (before : List Entry) x after (priors : List Entry) failure,
    s.entries = before ++ x :: after → priors.length = before.length + 1 →
      R p ((p.record (.logged (.installFailed x.key failure))).opened s priors)
  functions : ∀ ref, (H.behaviour ref).Lasts R

/-- Neither can the restoration of a window that stands, which is over then. -/
structure Enduring (H : Host η ν) (R : Process η ν → Process η ν → Prop) : Prop
    extends Abiding H R where
  restored : ∀ {p i win}, p.current.windows[i]? = some win → win.status = .standing →
    R p ((Window.restore H i p).2.marked i .ended)

/-- A window may be marked as over, if not because of where it is in its life, then because that
does not break the relation. -/
def Process.Free (R : Process η ν → Process η ν → Prop) (i : Nat) (p : Process η ν) : Prop :=
  ∀ win, p.current.windows[i]? = some win → win.status = .closing → R p (p.marked i .ended)

/-- Wherever the relation leads from a state in which a window stands, this may be marked as over. -/
def Freeing (R : Process η ν → Process η ν → Prop) : Prop :=
  ∀ {p q : Process η ν} {i win}, p.current.windows[i]? = some win → win.status = .standing →
    R p q → q.Free R i

namespace Abiding

variable {H : Host η ν} {R : Process η ν → Process η ν → Prop}

theorem refl (A : Abiding H R) (p : Process η ν) : R p p := A.aside (.refl p)

theorem persisting (A : Abiding H R) : Persisting H R where
  refl := A.refl
  trans := A.trans
  held p values := A.aside (p.aside_hold values)
  unheld p n := A.aside (p.aside_unhold n)
  stored p _ := A.aside (p.aside_modifyCurrent rfl rfl)
  swept p := A.aside (p.aside_sweep H)
  called := A.called
  captured p _ _ := A.logged p _ rfl rfl
  functions := A.functions

theorem bind (A : Abiding H R) {m : Action η ν α} {f : α → Action η ν β} (hm : m.Lasts R)
    (hf : ∀ a, (f a).Lasts R) : (m >>= f).Lasts R := A.persisting.bind hm hf

theorem pure (A : Abiding H R) (a : α) : (Pure.pure a : Action η ν α).Lasts R := A.refl

theorem log (A : Abiding H R) {e : LogEvent} (hw : e.ofWindow = false)
    (ht : e.ofTask = false) : (Action.log e : Action η ν Unit).Lasts R :=
  fun p => A.logged p e hw ht

theorem destroySlots (A : Abiding H R) : (Slot.destroyAll H).Lasts R := fun p =>
  A.trans (A.aside (p.aside_modifyCurrent rfl rfl)) (A.aside (Process.aside_sweep H _))

/-! ### Registries -/

theorem registers (A : Abiding H R) (f : Process η ν → List Registry) :
    (Action.change fun p => { p with registries := f p }).Lasts R :=
  fun _ => A.aside (Process.aside_of_eq rfl rfl rfl)

theorem add (A : Abiding H R) (r : RegistryId) (a : Accessor) :
    (Registry.add r a : Action η ν Unit).Lasts R := by
  refine A.bind (m := Registry.look r) A.refl fun table => A.bind (A.registers _) fun _ => ?_
  split
  · exact A.log rfl rfl
  · exact A.pure _

theorem remove (A : Abiding H R) (r : RegistryId) (k : Key) :
    (Registry.remove r k : Action η ν Bool).Lasts R :=
  A.bind (m := Registry.look r) A.refl fun _ => A.bind (A.registers _) fun _ => A.pure _

end Abiding

namespace Enduring

variable {H : Host η ν} {R : Process η ν → Process η ν → Prop}

/-! ### Ends of windows -/

/-- A window that is free is restored, if it stands, and marked as over. -/
theorem ended (E : Enduring H R) {i : Nat} {p : Process η ν} (hfree : p.Free R i) :
    R p ((Window.restore H i p).2.marked i .ended) := by
  cases hw : p.current.windows[i]? with
  | none =>
    rw [Window.restore_of_none H hw]
    exact E.aside (Process.aside_marked (by simp [hw]))
  | some win =>
    cases hs : win.status with
    | standing => exact E.restored hw hs
    | closing =>
      rw [Window.restore_of_not_standing H hw (by simp [hs])]
      exact hfree win hw hs
    | ended =>
      rw [Window.restore_of_not_standing H hw (by simp [hs])]
      refine E.aside (Process.aside_marked fun v hv => ?_)
      rw [← hs, Option.some.inj (hw.symm.trans hv)]

/-- When a window is over, what nobody holds any more is released. -/
theorem close_ended (E : Enduring H R) (i : Nat) (p : Process η ν) :
    R ((Window.restore H i p).2.marked i .ended) (Window.close H i p).2 := by
  rw [Window.close_apply]
  exact E.aside (Process.aside_sweep H _)

theorem close (E : Enduring H R) {i : Nat} {p : Process η ν} (hfree : p.Free R i) :
    R p (Window.close H i p).2 := E.trans (E.ended hfree) (E.close_ended i p)

/-- Besides, a failure may be logged. That might as well be done when the window is over. -/
theorem endWith_ended (E : Enduring H R) {report : Failure → LogEvent}
    (hw : ∀ failure, (report failure).ofWindow = false)
    (ht : ∀ failure, (report failure).ofTask = false) (i : Nat) (p : Process η ν) :
    R ((Window.restore H i p).2.marked i .ended) (Window.endWith H i report p).2 := by
  rw [Window.endWith_apply]
  rcases Window.restore H i p with ⟨(failure | ⟨⟩) | text, q⟩
  · have hlogged := E.logged (q.marked i .ended) (report failure) (hw failure) (ht failure)
    exact E.trans hlogged (E.aside (Process.aside_sweep H _))
  · exact E.aside (Process.aside_sweep H _)
  · exact E.aside (Process.aside_sweep H _)

theorem endWith (E : Enduring H R) {i : Nat} {p : Process η ν} (hfree : p.Free R i)
    {report : Failure → LogEvent} (hw : ∀ failure, (report failure).ofWindow = false)
    (ht : ∀ failure, (report failure).ofTask = false) : R p (Window.endWith H i report p).2 :=
  E.trans (E.ended hfree) (E.endWith_ended hw ht i p)

theorem suspend (E : Enduring H R) {site : CallSite} {i : Nat} {p : Process η ν}
    (hlog : R p (p.record (.logged (.suspending site))))
    (hfree : (p.record (.logged (.suspending site))).Free R i) :
    R p (Bridge.suspend H site i p).2 := by
  rw [Bridge.suspend_apply]
  exact E.trans hlog (E.close hfree)

/-- When a poll's window is over, at most a warning is logged. -/
theorem conclude_ended (E : Enduring H R) (t : Task) (i : Nat) (exit : Exit (Progress ω))
    (p : Process η ν) : R (Bridge.suspend H t.site i p).2 (t.conclude H i exit p).2 := by
  rcases t.conclude_snd (H := H) i exit p with hlast | ⟨e, he, hlast⟩ <;> rw [hlast]
  · exact E.refl _
  · exact E.logged _ e (by cases he <;> rfl) (by cases he <;> rfl)

/-! ### Installations -/

theorem installFrom (E : Enduring H R) (s : Snapshot) {l done priors : List Entry}
    (hs : s.entries = done ++ l) (hp : priors.length = done.length) :
    (s.installFrom H l priors).Lasts R := by
  induction l generalizing done priors with
  | nil =>
    intro p
    rw [Snapshot.installFrom_nil]
    exact E.installed p s priors (by rw [hp, hs, List.append_nil])
  | cons e rest ih =>
    refine E.bind (E.persisting.readAccessor e.accessor) fun prior => E.persisting.holding _ ?_
    set priors' : List Entry := priors ++ [⟨e.accessor, prior⟩]
    have hlength : priors'.length = done.length + 1 := by simp [priors', hp]
    refine E.bind (E.persisting.writeAccessor e.accessor e.value) fun answer => ?_
    cases answer with
    | ok =>
      have hsplit : s.entries = (done ++ [e]) ++ rest := by rw [hs]; simp
      exact ih hsplit (by rw [hlength]; simp)
    | error failure =>
      intro p
      have hopened := E.refused p s done e rest priors' failure hs hlength
      change R p ((Window.discard H p.current.windows.length >>= fun _ =>
        Pure.pure (.error failure) : Action η ν (Except Failure Nat)) _).2
      refine Action.bind_lasts (R := R) E.trans
        (E.trans hopened (E.endWith ?_ (fun _ => rfl) fun _ => rfl)) fun _ => E.pure _
      intro win hw hc
      -- it has just been opened
      have hnew := (p.record (.logged (.installFailed e.key failure))).window_opened s priors'
      obtain rfl := Option.some.inj (hnew.symm.trans hw)
      exact absurd hc (by simp)

theorem install (E : Enduring H R) (s : Snapshot) : (s.install H).Lasts R :=
  E.persisting.holding _ (E.installFrom s rfl rfl)

theorem resume (E : Enduring H R) (b : Bridge) {site : CallSite} {p : Process η ν}
    (hlog : R p (p.record (.logged (.resuming site)))) : R p (b.resume H site p).2 := by
  rw [Bridge.resume_apply]
  exact E.trans hlog (E.install b.snapshot _)

/-! ### Operations -/

/-- Every operation, if it ends no window that is being restored, or if that makes no difference. -/
theorem perform (E : Enduring H R)
    (htask : ∀ p (e : LogEvent), e.ofTask = true → R p (p.record (.logged e))) (op : Operation α)
    {p : Process η ν} (hfree : ∀ i, op.ends? = some i → ∀ win, p.current.windows[i]? = some win →
      win.status = .closing → ∀ q, R q (q.marked i .ended)) : R p (op.perform H p).2 := by
  cases op with
  | readSlot k =>
    rw [Operation.perform, Slot.read_eq]
    exact E.refl p
  | writeSlot k content => exact E.persisting.writeSlot k content p
  | destroySlots => exact E.destroySlots p
  | read a => exact E.persisting.readAccessor a p
  | write a content => exact E.persisting.writeAccessor a content p
  | install s => exact E.install s p
  | resume b site => exact E.resume b (htask p _ rfl)
  | close i => exact E.close fun win hw hc => hfree i rfl win hw hc p
  | drop i => exact E.endWith (fun win hw hc => hfree i rfl win hw hc p) (fun _ => rfl) fun _ => rfl
  | suspend site i => exact E.suspend (htask p _ rfl) fun win hw hc => hfree i rfl win hw hc _
  | createRegistry => exact E.aside (Process.aside_of_eq rfl rfl rfl)
  | register r a => exact E.add r a p
  | unregister r k => exact E.remove r k p
  | readKey r k => exact E.persisting.readKey r k p
  | writeKey r k content => exact E.persisting.writeKey r k content p
  | capture r carrier settings => exact E.persisting.capture r carrier settings p

/-- A window that is being restored is not at hand. -/
theorem unlessClosing (E : Enduring H R) {i : Nat} {m : Action η ν α} {p : Process η ν}
    (hm : (∀ win, p.current.windows[i]? = some win → win.status ≠ .closing) → R p (m p).2) :
    R p (Window.unlessClosing i m p).2 := by
  rw [Window.unlessClosing, Action.bind_of_returned (Window.look_apply i p)]
  cases hw : p.current.windows[i]? with
  | none => exact hm (by simp [hw])
  | some win =>
    by_cases hs : win.status = .closing
    · simp only [hs, if_true]
      exact E.refl p
    · simp only [hs, if_false]
      refine hm fun v hv => ?_
      rwa [← Option.some.inj (hw.symm.trans hv)]

/-- Every operation as programs call it. -/
theorem operation (E : Enduring H R)
    (htask : ∀ p (e : LogEvent), e.ofTask = true → R p (p.record (.logged e))) (op : Operation α) :
    (op.run H).Lasts R := by
  intro p
  rw [Operation.run]
  cases hends : op.ends? with
  | none => exact E.perform htask op fun i hi => absurd (hends.symm.trans hi) (by simp)
  | some i =>
    refine E.unlessClosing fun hopen => E.perform htask op fun j hj win hw hc => ?_
    obtain rfl := Option.some.inj (hends.symm.trans hj)
    exact absurd hc (hopen win hw)

/-! ### Bodies in windows -/

/-- The window is ended when the body has. -/
theorem within (E : Enduring H R) (hfree : Freeing R) (s : Snapshot) {body : Action η ν α}
    (hb : body.Lasts R) : (s.within H body).Lasts R := by
  intro p
  have hinstall := E.install s p
  rcases hi : s.install H p with ⟨(failure | i) | text, q⟩ <;> rw [hi] at hinstall
  · rw [Snapshot.within, Action.bind_of_returned hi]
    exact hinstall
  · obtain ⟨win, hw, hs⟩ := Snapshot.window_of_install hi
    rw [Snapshot.within_snd hi (Prod.eta (body q)).symm]
    exact E.trans hinstall (E.trans (hb q) (E.close (hfree hw hs (hb q))))
  · rw [Snapshot.within, Action.bind_of_panicked hi]
    exact hinstall

theorem poll (E : Enduring H R) (hfree : Freeing R)
    (htask : ∀ p (e : LogEvent), e.ofTask = true → R p (p.record (.logged e))) (t : Task)
    {inner : Action η ν (Progress ω)} (hb : inner.Lasts R) : (t.poll H inner).2.Lasts R := by
  intro p
  have hinstall := E.resume t.bridge (htask p (.resuming t.advance.site) rfl)
  rw [Bridge.resume_apply] at hinstall
  rcases hi : t.bridge.snapshot.install H (p.record (.logged (.resuming t.advance.site))) with
    ⟨(failure | i) | text, q⟩ <;> rw [hi] at hinstall
  · rw [Task.poll_of_error hi]
    exact hinstall
  · obtain ⟨win, hw, hs⟩ := Snapshot.window_of_install hi
    have hlog := htask (inner q).2 (.suspending t.advance.site) rfl
    have hsuspend := E.suspend hlog (hfree hw hs (E.trans (hb q) hlog))
    rw [Task.poll_of_ok hi]
    exact E.trans hinstall (E.trans (hb q) (E.trans hsuspend (E.conclude_ended ..)))
  · rw [Task.poll_of_panicked hi]
    exact hinstall

end Enduring

/-! ### Relations that last entry by entry -/

/-- A panic of a function that writes leaves a spoilt state, and what concerns no window leaves it
so. -/
structure Host.Spoils (H : Host η ν) (Spoilt : Process η ν → Prop) : Prop where
  aside : ∀ {p q}, p.Aside q → Spoilt p → Spoilt q
  write : ∀ ref v p text, ((H.behaviour ref).write v p).1 = .panicked text →
    Spoilt ((H.behaviour ref).write v p).2
  clear : ∀ ref p text, ((H.behaviour ref).clear p).1 = .panicked text →
    Spoilt ((H.behaviour ref).clear p).2

theorem Host.spoils_true (H : Host η ν) : H.Spoils fun _ => True :=
  ⟨fun _ _ => trivial, fun _ _ _ _ _ => trivial, fun _ _ _ _ => trivial⟩

namespace Host.Spoils

variable {H : Host η ν} {Spoilt : Process η ν → Prop}

theorem of_write (hH : H.Spoils Spoilt) {a : Accessor} {content : Option Value}
    {restoring : Option WindowRef} {p q : Process η ν} {text : String}
    (h : a.write H content restoring p = (.panicked text, q)) : Spoilt q := by
  cases a with
  | slot k =>
    rw [Accessor.write_slot] at h
    obtain ⟨answer, r, hr⟩ := Slot.write_returned H k content
      (p.record (.called { accessor := .slot k, request := .write content, restoring }))
    exact absurd (congrArg Prod.fst (h.symm.trans hr)) (by simp)
  | custom k ref =>
    cases content with
    | none =>
      obtain rfl := (congrArg Prod.snd h : _ = q)
      exact hH.aside (Process.aside_sweep H _) (hH.clear ref _ text (congrArg Prod.fst h))
    | some v =>
      obtain rfl := (congrArg Prod.snd h : _ = q)
      exact hH.aside (Process.aside_sweep H _) (hH.write ref v _ text (congrArg Prod.fst h))

theorem of_putBack (hH : H.Spoils Spoilt) {ref : WindowRef} {l : List Entry}
    {first : Option Failure} {p q : Process η ν} {text : String}
    (h : Window.putBack H ref l first p = (.panicked text, q)) : Spoilt q := by
  induction l generalizing first p with
  | nil => exact absurd (congrArg Prod.fst h) (by simp [Window.putBack, Action.pure_apply])
  | cons e rest ih =>
    rw [Window.putBack, Action.bind_apply] at h
    rcases hw : e.accessor.write H e.value (some ref) p with ⟨(failure | ⟨⟩) | text', r⟩ <;> rw [hw] at h
    · exact ih h
    · exact ih h
    · obtain ⟨-, rfl⟩ := Prod.mk.inj h
      exact hH.of_write hw

end Host.Spoils

/-- A relation which the calls that restore a window cannot break either. It may do with less once a
state is `Spoilt`. -/
structure Lasting (H : Host η ν) (Spoilt : Process η ν → Prop)
    (R : Process η ν → Process η ν → Prop) : Prop extends Abiding H R where
  restoring : ∀ p call, R p (p.record (.called call))
  closed : ∀ {p r i win}, p.current.windows[i]? = some win → win.status = .standing →
    R (p.marked i .closing) r → R p ((r.record (.logged (.closed win.priors.length))).marked i .ended)
  aborted : ∀ {p r i win}, p.current.windows[i]? = some win → win.status = .standing →
    R (p.marked i .closing) r → Spoilt r → R p (r.marked i .ended)
  spoils : H.Spoils Spoilt

namespace Lasting

variable {H : Host η ν} {Spoilt : Process η ν → Prop} {R : Process η ν → Process η ν → Prop}

theorem putBack (L : Lasting H Spoilt R) (ref : WindowRef) (l : List Entry) (first : Option Failure) :
    (Window.putBack H ref l first).Lasts R := by
  induction l generalizing first with
  | nil => exact L.pure first
  | cons e rest ih =>
    refine L.bind (fun p => L.trans (L.restoring p _)
      (L.persisting.afterCall e.accessor e.value (some ref) p)) fun answer => ?_
    cases answer with
    | ok => exact ih first
    | error failure => exact L.bind (L.log rfl rfl) fun _ => ih _

theorem enduring (L : Lasting H Spoilt R) : Enduring H R where
  toAbiding := L.toAbiding
  restored {p i win} hw hs := by
    have hback := L.putBack ⟨p.here, i⟩ win.priors.reverse none (p.marked i .closing)
    rw [Window.restore_standing hw hs]
    rcases hput : Window.putBack H ⟨p.here, i⟩ win.priors.reverse none (p.marked i .closing) with
      ⟨first | text, r⟩ <;> rw [hput] at hback
    · exact L.closed hw hs hback
    · exact L.aborted hw hs hback (L.spoils.of_putBack hput)

end Lasting

end Ambient
