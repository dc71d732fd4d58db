import Ambient.Proofs.Capturing
import Ambient.Proofs.Coupling

/-! Programs, and the same programs with other things done in between. A program puts together
whatever does not ask a registry, on any threads, with accessors whose functions are programs too.
In between, anywhere, even in these functions, accessors are registered, replaced and taken out,
and snapshots are captured. Proved: what a program does apart from that is the same, call for call,
as if it had not been done. What a snapshot holds when it is captured is all that counts later. -/

namespace Ambient

variable {η ν α ω : Type}

/-! ### What is done in between -/

/-- What a run notes: that something in between begins or ends, or a note of the program's own. -/
inductive Remark (ν : Type) where
  | begins
  | ends
  | own (note : ν)

/-- Whether it is noted that something in between begins or ends. -/
def Event.IsMark : Event (Remark ν) → Prop
  | .noted .begins | .noted .ends => True
  | _ => False

/-- What has happened, without what happened in between. The latest event comes first, and so what
was done in between is entered by its end. -/
def mainEvents (between : Bool) : List (Event (Remark ν)) → List (Event (Remark ν))
  | [] => []
  | .noted .ends :: rest => mainEvents true rest
  | .noted .begins :: rest => mainEvents false rest
  | e :: rest => if between then mainEvents between rest else e :: mainEvents between rest

theorem mainEvents_cons {e : Event (Remark ν)} (he : ¬ e.IsMark) (between : Bool)
    (h : List (Event (Remark ν))) : mainEvents between (e :: h) =
      if between then mainEvents between h else e :: mainEvents between h := by
  cases e with
  | noted note =>
    cases note with
    | begins => exact absurd trivial he
    | ends => exact absurd trivial he
    | own note => rfl
  | _ => rfl

theorem mainEvents_append {events : List (Event (Remark ν))} (h : ∀ e ∈ events, ¬ e.IsMark)
    (rest : List (Event (Remark ν))) : mainEvents true (events ++ rest) = mainEvents true rest := by
  induction events with
  | nil => rfl
  | cons e events ih =>
    rw [List.cons_append, mainEvents_cons (h e List.mem_cons_self), if_pos rfl]
    exact ih fun d hd => h d (List.mem_cons_of_mem _ hd)

theorem continues_mainEvents :
    Event.Continues (mainEvents false : List (Event (Remark ν)) → _) := by
  intro e h h' he hh
  have hmark : ¬ e.IsMark := by
    cases e with
    | noted note => exact absurd trivial he
    | _ => exact id
  rw [mainEvents_cons hmark, mainEvents_cons hmark, hh]

/-- Reading through the accessor answers, and has no effect but that something has happened. -/
def Accessor.Quiet (H : Host η (Remark ν)) (a : Accessor) : Prop :=
  ∀ p, ∃ value events, a.read H p = (.returned value, { p with history := events ++ p.history }) ∧
    ∀ e ∈ events, ¬ e.IsMark

theorem Accessor.quiet_slot (H : Host η (Remark ν)) (k : Key) : (slot k).Quiet H := by
  intro p
  refine ⟨_, [.called { accessor := .slot k, request := .read }], read_slot H k p, fun e he => ?_⟩
  rw [List.mem_singleton.1 he]
  exact id

/-- From `p` to `q` registries came by accessors or lost them, and snapshots were captured, with
whatever carriers, through accessors that are quiet. -/
inductive Meanwhile (p : Process η (Remark ν)) : Process η (Remark ν) → Prop
  | nothing : Meanwhile p p
  | registered {q} (h : Meanwhile p q) (r : RegistryId) (a : Accessor) :
      Meanwhile p (Registry.add r a q).2
  | unregistered {q} (h : Meanwhile p q) (r : RegistryId) (k : Key) :
      Meanwhile p (Registry.remove r k q).2
  | captured {q} (h : Meanwhile p q) (H : Host η (Remark ν)) (r : RegistryId)
      (carrier : Option Carrier) (settings : Settings)
      (hquiet : ∀ a ∈ (q.registry r).accessors, a.Quiet H) :
      Meanwhile p (Snapshot.capture H r carrier settings q).2

/-- Does something in between, and notes where it begins and ends. -/
def Action.aside (f : Process η (Remark ν) → Process η (Remark ν)) : Action η (Remark ν) Unit := do
  Action.record (.noted .begins)
  Action.change f
  Action.record (.noted .ends)

/-! ### Programs -/

/-- Code of the program's own. It sees who runs, what belongs to the threads and what the program
keeps, and may change the latter. -/
def Action.own (f : ThreadName → Table Thread → η → Exit α × η) : Action η ν α := fun p =>
  let answer := f p.here p.threads p.host
  (answer.1, { p with host := answer.2 })

/-- Code of the program's own goes the same where it sees the same. -/
theorem Action.Agree.own {ρ ε : Type} {f : List Registry → ρ} {g : List (Event ν) → ε}
    (code : ThreadName → Table Thread → η → Exit α × η) :
    Agree (Process.Same f g) (Action.own code) (Action.own code) := by
  intro p p' h
  have hanswer : code p'.here p'.threads p'.host = code p.here p.threads p.host := by
    rw [h.here, h.threads, h.host]
  have hexit := congrArg Prod.fst hanswer
  have hhost := congrArg Prod.snd hanswer
  exact ⟨hexit, h.here, h.waiting, h.threads, h.pinned, h.watchers, hhost, h.registries, h.history⟩

/-- The second program is the first one, with things done in between. -/
inductive Padded : {α : Type} → Action η (Remark ν) α → Action η (Remark ν) α → Prop
  /-- Something is done before the program goes on. -/
  | aside {α : Type} {m m' : Action η (Remark ν) α} {f : Process η (Remark ν) → Process η (Remark ν)}
      (hf : ∀ p, Meanwhile p (f p)) (hm : Padded m m') :
      Padded m (Action.aside f >>= fun _ => m')
  | own {α : Type} (f : ThreadName → Table Thread → η → Exit α × η) :
      Padded (Action.own f) (Action.own f)
  | note (n : ν) : Padded (Action.record (.noted (.own n))) (Action.record (.noted (.own n)))
  | bind {α β : Type} {m m' : Action η (Remark ν) α} {f f' : α → Action η (Remark ν) β}
      (hm : Padded m m') (hf : ∀ a, Padded (f a) (f' a)) : Padded (m >>= f) (m' >>= f')
  | attempt {α : Type} {m m' : Action η (Remark ν) α} (hm : Padded m m') :
      Padded (Action.attempt m) (Action.attempt m')
  | holding {α : Type} {m m' : Action η (Remark ν) α} (values : List Value) (hm : Padded m m') :
      Padded (Action.holding values m) (Action.holding values m')
  | onThread {α : Type} {m m' : Action η (Remark ν) α} (n : ThreadName) (hm : Padded m m') :
      Padded (Action.onThread n m) (Action.onThread n m')
  | under {α : Type} {m m' : Action η (Remark ν) α} (r : RegistryId) (hm : Padded m m') :
      Padded (Registry.within r m) (Registry.within r m')
  | deed {α : Type} {H H' : Host η (Remark ν)} (hH : H'.holds = H.holds)
      (hr : ∀ ref, Padded (H.behaviour ref).read (H'.behaviour ref).read)
      (hw : ∀ ref v, Padded ((H.behaviour ref).write v) ((H'.behaviour ref).write v))
      (hc : ∀ ref, Padded (H.behaviour ref).clear (H'.behaviour ref).clear) (d : Deed α) :
      Padded (d.run H) (d.run H')
  /-- New registries get the same numbers. -/
  | create : Padded Registry.create Registry.create
  | within {α : Type} {H H' : Host η (Remark ν)} (hH : H'.holds = H.holds)
      (hr : ∀ ref, Padded (H.behaviour ref).read (H'.behaviour ref).read)
      (hw : ∀ ref v, Padded ((H.behaviour ref).write v) ((H'.behaviour ref).write v))
      (hc : ∀ ref, Padded (H.behaviour ref).clear (H'.behaviour ref).clear) (s : Snapshot)
      {body body' : Action η (Remark ν) α} (hb : Padded body body') :
      Padded (s.within H body) (s.within H' body')
  | poll {ω : Type} {H H' : Host η (Remark ν)} (hH : H'.holds = H.holds)
      (hr : ∀ ref, Padded (H.behaviour ref).read (H'.behaviour ref).read)
      (hw : ∀ ref v, Padded ((H.behaviour ref).write v) ((H'.behaviour ref).write v))
      (hc : ∀ ref, Padded (H.behaviour ref).clear (H'.behaviour ref).clear) (t : Task)
      {inner inner' : Action η (Remark ν) (Progress ω)} (hb : Padded inner inner') :
      Padded (t.poll H inner).2 (t.poll H' inner').2

/-! ### What is done in between leaves the rest as it is -/

/-- The states differ at most in which accessors the registries have, and in what has happened, as
`mainEvents` tells it. -/
abbrev SameBut (between : Bool) : Process η (Remark ν) → Process η (Remark ν) → Prop :=
  Process.Same List.length (mainEvents between)

section Between

variable {p q : Process η (Remark ν)} {H : Host η (Remark ν)}

theorem SameBut.happened (p : Process η (Remark ν)) {events : List (Event (Remark ν))}
    (h : ∀ e ∈ events, ¬ e.IsMark) :
    SameBut true p { p with history := events ++ p.history } :=
  ⟨rfl, rfl, rfl, rfl, rfl, rfl, rfl, mainEvents_append h p.history⟩

theorem SameBut.logged (p : Process η (Remark ν)) (e : LogEvent) :
    SameBut true p (p.record (.logged e)) := by
  have hmark : ∀ d ∈ ([.logged e] : List (Event (Remark ν))), ¬ d.IsMark := by
    intro d hd
    rw [List.mem_singleton.1 hd]
    exact id
  exact .happened p hmark

theorem SameBut.changed (p : Process η (Remark ν)) (r : RegistryId) (t : Registry) :
    SameBut true p { p with registries := p.registries.set r t } :=
  ⟨rfl, rfl, rfl, rfl, rfl, rfl, List.length_set, rfl⟩

theorem SameBut.holding {values : List Value} {m : Action η (Remark ν) α}
    (h : SameBut true (p.hold values) (m (p.hold values)).2) :
    SameBut true p (Action.holding values m p).2 := by
  have hpinned : ((p.hold values).unhold values.length) = p := by
    simp [Process.hold, Process.unhold]
  have hunheld := h.unhold values.length
  rw [hpinned] at hunheld
  rw [Action.holding_apply]
  exact hunheld

theorem SameBut.readAll {l : List Accessor} (hl : ∀ a ∈ l, a.Quiet H) (p : Process η (Remark ν)) :
    SameBut true p (Snapshot.readAll H l p).2 := by
  induction l generalizing p with
  | nil => exact .refl p
  | cons a rest ih =>
    obtain ⟨value, events, hread, hevents⟩ := hl a List.mem_cons_self p
    set p₁ : Process η (Remark ν) := { p with history := events ++ p.history }
    have hheld : SameBut true p₁ (Action.holding value.toList (Snapshot.readAll H rest) p₁).2 :=
      .holding (ih (fun b hb => hl b (List.mem_cons_of_mem _ hb)) _)
    have hsnd : (Snapshot.readAll H (a :: rest) p).2 =
        (Action.holding value.toList (Snapshot.readAll H rest) p₁).2 := by
      rw [Snapshot.readAll, Action.bind_of_returned hread, Action.bind_apply]
      rcases Action.holding value.toList (Snapshot.readAll H rest) p₁ with ⟨_ | _, _⟩ <;> rfl
    rw [hsnd]
    exact (SameBut.happened p hevents).trans hheld

theorem SameBut.capture {r : RegistryId} (hquiet : ∀ a ∈ (p.registry r).accessors, a.Quiet H)
    (carrier : Option Carrier) (settings : Settings) :
    SameBut true p (Snapshot.capture H r carrier settings p).2 := by
  rw [Snapshot.capture, Action.bind_of_returned (Registry.look_apply r p)]
  cases settings.carrierInPlay carrier with
  | some c => exact .logged p _
  | none =>
    have hall := SameBut.readAll hquiet p
    show SameBut true p ((Snapshot.readAll H (p.registry r).accessors >>= _) p).2
    rw [Action.bind_apply]
    rcases hread : Snapshot.readAll H (p.registry r).accessors p with ⟨entries | text, q⟩
    · rw [hread] at hall
      exact hall.trans (SameBut.logged q _)
    · rw [hread] at hall
      exact hall

theorem Meanwhile.same (h : Meanwhile p q) : SameBut true p q := by
  induction h with
  | nothing => exact .refl p
  | @registered q _ r a ih =>
    have hchanged := SameBut.changed q r ((q.registry r).register a)
    refine ih.trans (hchanged.trans ?_)
    rw [Registry.add, Action.bind_of_returned (Registry.look_apply r q),
      Action.bind_of_returned (Action.change_apply ..)]
    split
    · exact SameBut.logged _ _
    · exact .refl _
  | unregistered _ r k ih => exact ih.trans (SameBut.changed _ r _)
  | captured _ H r carrier settings hquiet ih => exact ih.trans (SameBut.capture hquiet carrier settings)

/-- What is done in between returns, and what it leaves is not to be told from what was before. -/
theorem aside_apply {f : Process η (Remark ν) → Process η (Remark ν)}
    (hf : ∀ p, Meanwhile p (f p)) (p : Process η (Remark ν)) :
    ∃ q, Action.aside f p = (.returned (), q) ∧ SameBut false p q := by
  have h := (hf (p.record (.noted .begins))).same
  exact ⟨_, rfl, h.here, h.waiting, h.threads, h.pinned, h.watchers, h.host, h.registries, h.history⟩

end Between

/-! ### Programs go as they would -/

section Programs

variable {H H' : Host η (Remark ν)}

/-- The functions of the accessors go as they would, too. -/
theorem coupling_sameBut (hH : H'.holds = H.holds)
    (hr : ∀ ref, Action.Agree (SameBut false) (H.behaviour ref).read (H'.behaviour ref).read)
    (hw : ∀ ref v, Action.Agree (SameBut false) ((H.behaviour ref).write v)
      ((H'.behaviour ref).write v))
    (hc : ∀ ref, Action.Agree (SameBut false) (H.behaviour ref).clear (H'.behaviour ref).clear) :
    Coupling H H' (fun _ => True) (SameBut false) :=
  Process.Same.coupling continues_mainEvents hH hr hw hc

/-- A program goes the same whether anything is done in between or not. -/
theorem Padded.agree {m m' : Action η (Remark ν) α} (h : Padded m m') :
    Action.Agree (SameBut false) m m' := by
  induction h with
  | aside hf _ hm =>
    intro p p' h
    obtain ⟨q, haside, hq⟩ := aside_apply hf p'
    rw [Action.bind_of_returned haside]
    exact hm p q (h.trans hq)
  | own f => exact .own f
  | note n =>
    refine .change fun p p' h => ?_
    refine ⟨h.here, h.waiting, h.threads, h.pinned, h.watchers, h.host, h.registries, ?_⟩
    exact congrArg (Event.noted (.own n) :: ·) h.history
  | bind _ _ hm hf => exact hm.bind hf
  | attempt _ hm => exact hm.attempt
  | holding values _ hm => exact hm.holding values
  | onThread n _ hm => exact hm.onThread n
  | under r _ hm => exact hm.under (fun h _ => h.modifyCurrent _) r
  | deed hH _ _ _ d hr hw hc =>
    exact (coupling_sameBut hH hr hw hc).deed (d.over_of_forall fun _ => trivial)
  | create =>
    intro p p' h
    have hlength : p'.registries.length = p.registries.length := h.registries
    refine ⟨congrArg Exit.returned hlength, h.here, h.waiting, h.threads, h.pinned, h.watchers,
      h.host, ?_, h.history⟩
    show (p'.registries ++ [Registry.empty]).length = (p.registries ++ [Registry.empty]).length
    rw [List.length_append, List.length_append, hlength]
  | within hH _ _ _ s _ hr hw hc hb =>
    exact (coupling_sameBut hH hr hw hc).within (fun _ _ => trivial) hb
  | poll hH _ _ _ t _ hr hw hc hb =>
    exact (coupling_sameBut hH hr hw hc).poll (fun _ _ => trivial) hb

end Programs

/-! ### What a window keeps -/

/-- The window `i`, in which the snapshot was installed, keeps to the accessors that `t` has for the
keys: with what it displaced it keeps these, and a restoration that comes to its end, whatever
registries there are by then, has written back through them. -/
def Window.KeepsTo (H : Host η ν) (t : Registry) (s : Snapshot) (i : Nat) (p : Process η ν) : Prop :=
  ∃ priors, p.current.windows[i]? = some { snapshot := s, priors } ∧
    priors.map Entry.key = s.keys ∧ (∀ e ∈ priors, t.get? e.key = some e.accessor) ∧
    ∀ q answer last, q.current.windows[i]? = p.current.windows[i]? →
      Window.restore H i q = (.returned answer, last) →
      ∃ done r, done.map (·.1) = priors.reverse ∧
        WrittenBack H ⟨q.here, i⟩ (q.marked i .closing) done r ∧
        last = r.record (.logged (.closed priors.length))

theorem Snapshot.keepsTo_of_install {H : Host η ν} {t : Registry} {s : Snapshot} {i : Nat}
    {p q : Process η ν} (hs : ∀ e ∈ s.entries, t.get? e.key = some e.accessor)
    (hi : s.install H p = (.returned (.ok i), q)) : Window.KeepsTo H t s i q := by
  obtain ⟨priors, r, n, hplaced, rfl, rfl⟩ := placed_of_install hi
  have hw := (r.record (.logged (.installed priors.length))).window_opened s priors
  have hkeys : priors.map Entry.key = (priors.map Entry.accessor).map Accessor.key := by
    rw [List.map_map]
    rfl
  refine ⟨priors, hw, ?_, ?_, fun q answer last hq hrestore => ?_⟩
  · rw [hkeys, hplaced.accessors, ← keys_eq_map]
  · exact (hplaced.forall_accessor (P := fun a => t.get? a.key = some a)).2 hs
  · exact Window.writtenBack_of_restore (hq.trans hw) rfl hrestore

namespace Padded

variable {later later' : Snapshot → Action η (Remark ν) α} {H : Host η (Remark ν)}
  {exit : Exit α} {p q : Process η (Remark ν)}

/-- A snapshot is captured, and then a program goes on with it, which may install it anywhere and
end its windows in any way. Accessors that are registered, replaced or taken out in between, and
further captures, be it before the installation, inside the window or in a function of an accessor,
change nothing: the program ends alike, the threads and what the program keeps are the same in the
end, and so is all that has happened apart from what was done in between. This has every call of an
accessor in it, by which accessor it was made and with what value. In particular, whoever installs
the snapshot, its window keeps to the accessors that the registry had for the keys when they were
captured. -/
theorem run_eq_but_for_asides (hlater : ∀ s, Padded (later s) (later' s)) (r : RegistryId)
    (carrier : Option Carrier) (settings : Settings)
    (hrun : (do later (← Snapshot.capture H r carrier settings)) p = (exit, q)) :
    (∃ q', (do later' (← Snapshot.capture H r carrier settings)) p = (exit, q') ∧
      q'.threads = q.threads ∧ q'.host = q.host ∧
      mainEvents false q'.history = mainEvents false q.history) ∧
    ∀ s captured, Snapshot.capture H r carrier settings p = (.returned s, captured) →
      ∀ (H' : Host η (Remark ν)) (i : Nat) (begun opened : Process η (Remark ν)),
        s.install H' begun = (.returned (.ok i), opened) →
        Window.KeepsTo H' (p.registry r) s i opened := by
  -- the capture is the same one, and it alone asks the registry
  have hcaptured : (Snapshot.capture H r carrier settings p).1 =
      (Snapshot.capture H r carrier settings p).1 ∧ SameBut false
        (Snapshot.capture H r carrier settings p).2 (Snapshot.capture H r carrier settings p).2 :=
    ⟨rfl, .refl _⟩
  obtain ⟨hexit, hsame⟩ := Action.Agree.bind_of hcaptured fun s t t' _ ht => (hlater s).agree t t' ht
  rw [hrun] at hexit hsame
  refine ⟨⟨((Snapshot.capture H r carrier settings >>= later') p).2, Prod.ext hexit rfl,
    hsame.threads, hsame.host, hsame.history⟩, fun s captured hs H' i begun opened hi => ?_⟩
  obtain ⟨-, hkeyed⟩ := Snapshot.keyed_of_sublist (Snapshot.accessors_capture hs)
  exact Snapshot.keepsTo_of_install hkeyed hi

/-- The cell that functions of a number are for. -/
def cellOf (ref : Nat) : Key := if ref = 0 then "first" else "second"

/-- An embedding program with two cells. -/
def twoCells : Host (Table Value) (Remark Unit) := rack cellOf fun _ _ => .returned (.ok ())

theorem quiet_twoCells (a : Accessor) : a.Quiet twoCells := by
  cases a with
  | slot k => exact Accessor.quiet_slot twoCells k
  | custom k ref =>
    intro p
    refine ⟨_, [.called { accessor := .custom k ref, request := .read }], rfl, fun e he => ?_⟩
    rw [List.mem_singleton.1 he]
    exact id

/-- The key's accessor is taken out of the registry, then another one stands for it, and then all
keys are captured. -/
def swap (p : Process (Table Value) (Remark Unit)) : Process (Table Value) (Remark Unit) :=
  (Snapshot.capture twoCells processWide none {}
    (Registry.add processWide (.custom "a" 1) (Registry.remove processWide "a" p).2).2).2

/-- The same program, which does that whenever a value is put into one of its cells. -/
def swapping : Host (Table Value) (Remark Unit) where
  behaviour ref :=
    { read := (twoCells.behaviour ref).read
      write := fun v => do
        Action.aside swap
        (twoCells.behaviour ref).write v
      clear := (twoCells.behaviour ref).clear }
  holds := twoCells.holds

/-- A process with a value in the first cell, which stands for the key. -/
def stocked : Process (Table Value) (Remark Unit) where
  here := "main"
  registries := [Registry.empty.register (.custom "a" 0)]
  host := Table.empty.insert "first" ⟨.numbered 0, .unit⟩

/-- The first cell is cleared inside a snapshot. -/
def clearing (H : Host (Table Value) (Remark Unit)) (s : Snapshot) :
    Action (Table Value) (Remark Unit) (Except Failure (Except Failure Unit)) :=
  s.within H ((Operation.write (.custom "a" 0) none).perform H)

/-- The same, and the key's accessor is swapped before the first cell is cleared. -/
def meddled (s : Snapshot) :
    Action (Table Value) (Remark Unit) (Except Failure (Except Failure Unit)) :=
  s.within swapping do
    Action.aside swap
    (Operation.write (.custom "a" 0) none).perform swapping

theorem meanwhile_swap (p : Process (Table Value) (Remark Unit)) : Meanwhile p (swap p) :=
  ((Meanwhile.nothing.unregistered processWide "a").registered processWide (.custom "a" 1)).captured
    twoCells processWide none {} fun a _ => quiet_twoCells a

theorem padded_meddled (s : Snapshot) : Padded (clearing twoCells s) (meddled s) := by
  have hholds : swapping.holds = twoCells.holds := rfl
  have hread : ∀ ref, Padded (twoCells.behaviour ref).read (swapping.behaviour ref).read :=
    fun ref => .own fun _ _ (cells : Table Value) => (.returned (cells.get? (cellOf ref)), cells)
  have hput : ∀ (ref : Nat) (content : Option Value),
      let put : Action (Table Value) (Remark Unit) (Except Failure Unit) :=
        Action.own fun _ _ cells => (.returned (.ok ()), cells.assign (cellOf ref) content)
      Padded put put := fun _ _ => .own _
  have hwrite : ∀ ref v,
      Padded ((twoCells.behaviour ref).write v) ((swapping.behaviour ref).write v) :=
    fun ref v => .aside meanwhile_swap (hput ref (some v))
  have hclear : ∀ ref, Padded (twoCells.behaviour ref).clear (swapping.behaviour ref).clear :=
    fun ref => hput ref none
  have hcleared : Padded ((Operation.write (.custom "a" 0) none).perform twoCells)
      ((Operation.write (.custom "a" 0) none).perform swapping) :=
    .deed hholds hread hwrite hclear (.operation (.write (.custom "a" 0) none) rfl)
  exact .within hholds hread hwrite hclear s (.aside meanwhile_swap hcleared)

/-- The first cell has its value again, put back through the accessor that was captured, and the
second one, which stands for the key by then, was never asked. -/
theorem run_eq_but_for_asides_meddled :
    ∃ q', (do meddled (← Snapshot.capture twoCells processWide none {})) stocked =
      (.returned (.ok (.ok ())), q') ∧
    (q'.registry processWide).get? "a" = some (.custom "a" 1) ∧
    q'.host.get? "first" = some ⟨.numbered 0, .unit⟩ ∧ q'.host.get? "second" = none ∧
    (mainEvents false q'.history).reverse.filterMap Event.call? =
      [⟨.custom "a" 0, .read, none⟩, ⟨.custom "a" 0, .read, none⟩,
        ⟨.custom "a" 0, .write (some ⟨.numbered 0, .unit⟩), none⟩,
        ⟨.custom "a" 0, .write none, none⟩,
        ⟨.custom "a" 0, .write (some ⟨.numbered 0, .unit⟩), some ⟨"main", 0⟩⟩] := by
  have hrun : (do clearing twoCells (← Snapshot.capture twoCells processWide none {})) stocked =
      (.returned (.ok (.ok ())), _) := rfl
  obtain ⟨⟨q', hrun', -, hhost, hmain⟩, -⟩ :=
    run_eq_but_for_asides padded_meddled processWide none {} hrun
  have hregistry : (((do meddled (← Snapshot.capture twoCells processWide none {}))
      stocked).2.registry processWide).get? "a" = some (.custom "a" 1) := rfl
  rw [hrun'] at hregistry
  exact ⟨q', hrun', hregistry, by rw [hhost]; rfl, by rw [hhost]; rfl, by rw [hmain]; rfl⟩

end Padded

end Ambient
