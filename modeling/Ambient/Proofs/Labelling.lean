import Ambient.Proofs.Ordering

/-! Call sites label the log and decide nothing. Whoever calls the hooks of a bridge says from
where, and a task says so of itself by its label and the number of its poll. Two runs of a program
are set side by side, in the second of which all this is replaced by something else, in any manner
and in functions of accessors too. Proved: both do the same, and what has happened in them is the
same, but for what the lines of the log that tell of a call site say of it. -/

namespace Ambient

variable {η ν α β : Type}

/-! ### Events without call sites -/

namespace LogEvent

/-- The event, as it is logged for a call site that says nothing. -/
def unsited : LogEvent → LogEvent
  | resuming _ => resuming {}
  | suspending _ => suspending {}
  | discarding _ failure => discarding {} failure
  | e => e

/-- The messages of the lines that tell of a call site. -/
def siteMessages : List String :=
  ["resuming task", "suspending task", "discarding completed output: context restore failed"]

/-- The level, the message and the fields of an event, without the values that the fields `task` and
`poll` have in a line that tells of a call site. -/
def masked (e : LogEvent) : String × String × List (String × String) :=
  let (level, message, fields) := e.parts
  (level, message, fields.map fun f =>
    (f.1, if message ∈ siteMessages ∧ (f.1 = "task" ∨ f.1 = "poll") then "" else f.2))

theorem masked_unsited (e : LogEvent) : e.unsited.masked = e.masked := by
  cases e with
  | resuming site => simp [masked, unsited, parts, siteFields, siteMessages]
  | suspending site => simp [masked, unsited, parts, siteFields, siteMessages]
  | discarding site failure => simp [masked, unsited, parts, siteFields, siteMessages]
  | _ => rfl

end LogEvent

namespace Event

/-- The event, as it is for a call site that says nothing. -/
def unsited : Event ν → Event ν
  | .logged e => .logged e.unsited
  | e => e

theorem call?_unsited (e : Event ν) : e.unsited.call? = e.call? := by cases e <;> rfl

theorem masked_unsited (e : Event ν) :
    e.unsited.log?.map LogEvent.masked = e.log?.map LogEvent.masked := by
  cases e with
  | logged e => exact congrArg some e.masked_unsited
  | _ => rfl

theorem continues_unsited : Continues (List.map unsited : List (Event ν) → _) :=
  fun e _ _ _ h => congrArg (e.unsited :: ·) h

end Event

/-! ### States that differ in call sites -/

/-- The states differ at most in the call sites that were logged. -/
abbrev Process.SiteApart : Process η ν → Process η ν → Prop :=
  Process.Same id (List.map Event.unsited)

namespace Process.SiteApart

variable {H H' : Host η ν} {p p' : Process η ν}

theorem registry (h : p.SiteApart p') (r : RegistryId) : p'.registry r = p.registry r :=
  congrArg (·.getD r Registry.empty) h.registries

/-- What does not ask for the call sites finds the same in both histories. -/
theorem filterMap_history (h : p.SiteApart p') {g : Event ν → Option β}
    (hg : ∀ e, g e.unsited = g e) :
    p'.history.reverse.filterMap g = p.history.reverse.filterMap g := by
  have hmap : ∀ l : List (Event ν), l.filterMap g = (l.map Event.unsited).filterMap g := by
    intro l
    rw [List.filterMap_map]
    exact congrArg (fun f => l.filterMap f) (funext fun e => (hg e).symm)
  have hhistory : p'.history.map Event.unsited = p.history.map Event.unsited := h.history
  rw [List.filterMap_reverse, List.filterMap_reverse, hmap, hhistory, ← hmap]

theorem calls (h : p.SiteApart p') : p'.calls = p.calls := h.filterMap_history Event.call?_unsited

theorem masked_logs (h : p.SiteApart p') :
    p'.logs.map LogEvent.masked = p.logs.map LogEvent.masked := by
  rw [logs, logs, List.map_filterMap, List.map_filterMap]
  exact h.filterMap_history Event.masked_unsited

/-- The same is logged in both, or the same but for the call site. -/
theorem logged (h : p.SiteApart p') {e e' : LogEvent} (he : e'.unsited = e.unsited) :
    (p.record (.logged e)).SiteApart (p'.record (.logged e')) := by
  refine ⟨h.here, h.waiting, h.threads, h.pinned, h.watchers, h.host, h.registries, ?_⟩
  change Event.logged e'.unsited :: _ = Event.logged e.unsited :: _
  rw [he]
  exact congrArg (Event.logged e.unsited :: ·) h.history

theorem interchangeable (site site' : CallSite) :
    site.Interchangeable (SiteApart : Process η ν → Process η ν → Prop) site' :=
  ⟨.change fun _ _ h => h.logged rfl, .change fun _ _ h => h.logged rfl,
    fun _ => .change fun _ _ h => h.logged rfl⟩

theorem coupling (hH : H'.holds = H.holds)
    (hr : ∀ ref, Action.Agree SiteApart (H.behaviour ref).read (H'.behaviour ref).read)
    (hw : ∀ ref v, Action.Agree SiteApart ((H.behaviour ref).write v) ((H'.behaviour ref).write v))
    (hc : ∀ ref, Action.Agree SiteApart (H.behaviour ref).clear (H'.behaviour ref).clear) :
    Coupling.Registering H H' SiteApart where
  toCoupling := Process.Same.coupling Event.continues_unsited hH hr hw hc
  alike h r := by
    rw [h.registry]
    exact .refl _
  count h := congrArg List.length h.registries
  changed {p p'} h r c := by
    have hsame : p'.registries = p.registries := h.registries
    refine ⟨h.here, h.waiting, h.threads, h.pinned, h.watchers, h.host, ?_, h.history⟩
    rw [Process.supplied, Process.supplied, hsame, h.registry]
  created {p p'} h := by
    have hsame : p'.registries = p.registries := h.registries
    refine ⟨h.here, h.waiting, h.threads, h.pinned, h.watchers, h.host, ?_, h.history⟩
    rw [Registry.create, Registry.create, hsame]

end Process.SiteApart

/-! ### Programs -/

/-- The second operation is the first one, called from anywhere. -/
inductive Operation.Relabelled : {α : Type} → Operation α → Operation α → Prop
  | same {α : Type} (op : Operation α) : Relabelled op op
  | resume (b : Bridge) (site site' : CallSite) : Relabelled (.resume b site) (.resume b site')
  | suspend (site site' : CallSite) (i : Nat) : Relabelled (.suspend site i) (.suspend site' i)

/-- The second program is the first one with other call sites for the hooks, and other labels for
the tasks, wherever it comes to them. It uses the library in whatever manner, on any threads, and so
do the functions of accessors, which may fail or panic as they like. Code of its own sees who runs,
what belongs to the threads and what the program keeps, but not what was logged. -/
inductive Relabelled : {α : Type} → Action η ν α → Action η ν α → Prop
  | own {α : Type} (f : ThreadName → Table Thread → η → Exit α × η) :
      Relabelled (Action.own f) (Action.own f)
  | note (n : ν) : Relabelled (Action.record (.noted n)) (Action.record (.noted n))
  | bind {α β : Type} {m m' : Action η ν α} {f f' : α → Action η ν β} (hm : Relabelled m m')
      (hf : ∀ a, Relabelled (f a) (f' a)) : Relabelled (m >>= f) (m' >>= f')
  | attempt {α : Type} {m m' : Action η ν α} (hm : Relabelled m m') :
      Relabelled (Action.attempt m) (Action.attempt m')
  | holding {α : Type} {m m' : Action η ν α} (values : List Value) (hm : Relabelled m m') :
      Relabelled (Action.holding values m) (Action.holding values m')
  | onThread {α : Type} {m m' : Action η ν α} (n : ThreadName) (hm : Relabelled m m') :
      Relabelled (Action.onThread n m) (Action.onThread n m')
  | under {α : Type} {m m' : Action η ν α} (r : RegistryId) (hm : Relabelled m m') :
      Relabelled (Registry.within r m) (Registry.within r m')
  /-- Whatever a registry may be asked. -/
  | look (r : RegistryId) : Relabelled (Registry.look r) (Registry.look r)
  | operation {α : Type} {H H' : Host η ν} (hH : H'.holds = H.holds)
      (hr : ∀ ref, Relabelled (H.behaviour ref).read (H'.behaviour ref).read)
      (hw : ∀ ref v, Relabelled ((H.behaviour ref).write v) ((H'.behaviour ref).write v))
      (hc : ∀ ref, Relabelled (H.behaviour ref).clear (H'.behaviour ref).clear)
      {op op' : Operation α} (hop : op.Relabelled op') : Relabelled (op.perform H) (op'.perform H')
  | within {α : Type} {H H' : Host η ν} (hH : H'.holds = H.holds)
      (hr : ∀ ref, Relabelled (H.behaviour ref).read (H'.behaviour ref).read)
      (hw : ∀ ref v, Relabelled ((H.behaviour ref).write v) ((H'.behaviour ref).write v))
      (hc : ∀ ref, Relabelled (H.behaviour ref).clear (H'.behaviour ref).clear) (s : Snapshot)
      {body body' : Action η ν α} (hb : Relabelled body body') :
      Relabelled (s.within H body) (s.within H' body')
  | poll {ω : Type} {H H' : Host η ν} (hH : H'.holds = H.holds)
      (hr : ∀ ref, Relabelled (H.behaviour ref).read (H'.behaviour ref).read)
      (hw : ∀ ref v, Relabelled ((H.behaviour ref).write v) ((H'.behaviour ref).write v))
      (hc : ∀ ref, Relabelled (H.behaviour ref).clear (H'.behaviour ref).clear) (t : Task)
      (label : Option String) {inner inner' : Action η ν (Progress ω)}
      (hb : Relabelled inner inner') :
      Relabelled (t.poll H inner).2 (({ t with label } : Task).poll H' inner').2

/-- An operation goes the same from wherever it is called. -/
theorem Operation.Relabelled.agree {H H' : Host η ν}
    (C : Coupling.Registering H H' Process.SiteApart) {op op' : Operation α}
    (h : op.Relabelled op') : Action.Agree Process.SiteApart (op.perform H) (op'.perform H') := by
  cases h with
  | same => exact C.perform op
  | resume => exact C.resumeFrom (fun _ _ => trivial) (Process.SiteApart.interchangeable _ _)
  | suspend => exact C.suspendFrom (Process.SiteApart.interchangeable _ _) _

namespace Relabelled

/-- A program goes the same with other labels. -/
theorem agree {m m' : Action η ν α} (h : Relabelled m m') :
    Action.Agree Process.SiteApart m m' := by
  induction h with
  | own f => exact .own f
  | note n =>
    refine .change fun p p' h => ?_
    refine ⟨h.here, h.waiting, h.threads, h.pinned, h.watchers, h.host, h.registries, ?_⟩
    exact congrArg (Event.noted n :: ·) h.history
  | bind _ _ hm hf => exact hm.bind hf
  | attempt _ hm => exact hm.attempt
  | holding values _ hm => exact hm.holding values
  | onThread n _ hm => exact hm.onThread n
  | under r _ hm => exact hm.under (fun h _ => h.modifyCurrent _) r
  | look r => exact .inspect fun p p' h => h.registry r
  | operation hH _ _ _ hop hr hw hc => exact hop.agree (Process.SiteApart.coupling hH hr hw hc)
  | within hH _ _ _ s _ hr hw hc hb =>
    exact (Process.SiteApart.coupling hH hr hw hc).within (fun _ _ => trivial) hb
  | poll hH _ _ _ t label _ hr hw hc hb =>
    have hbridge : ({ t with label } : Task).bridge = t.bridge := rfl
    exact (Process.SiteApart.coupling hH hr hw hc).pollFrom hbridge
      (Process.SiteApart.interchangeable _ _) (fun _ _ => trivial) hb

/-- A run of a program, and the run of the same program with other call sites for the hooks and
other labels for the tasks. Both end alike, by the same answer or the same panic. In the end the
threads are the same, with their slots, the windows opened on them and what these displaced, and so
are the registries and what the program keeps. The same calls of accessors were made, with the same
values, and the same has happened in the same order, but for the call sites that are logged when a
task goes on, stops, or loses its output; the lines of the log are the same but for the values of
`task` and `poll` in these. -/
theorem only_log_differs {m m' : Action η ν α} (h : Relabelled m m') {p q : Process η ν}
    {exit : Exit α} (hrun : m p = (exit, q)) :
    ∃ q', m' p = (exit, q') ∧ q'.here = q.here ∧ q'.threads = q.threads ∧
      q'.registries = q.registries ∧ q'.host = q.host ∧ q'.calls = q.calls ∧
      q'.history.map Event.unsited = q.history.map Event.unsited ∧
      q'.logs.map LogEvent.masked = q.logs.map LogEvent.masked := by
  obtain ⟨q', hrun', hapart⟩ := h.agree.follow (.refl p) hrun
  exact ⟨q', hrun', hapart.here, hapart.threads, hapart.registries, hapart.host, hapart.calls,
    hapart.history, hapart.masked_logs⟩

/-- An embedding program with a cell that says it cannot be cleared. -/
def jammed : Host (Table Value) Unit := rack (fun _ => "cell") fun _ content =>
  .returned (if content.isSome then .ok () else .error (.accessor "a" "stuck"))

/-- The same program, which has a bridge resumed from `site` whenever the cell is to be cleared. -/
def tolling (site : CallSite) : Host (Table Value) Unit where
  behaviour ref :=
    { read := (jammed.behaviour ref).read
      write := (jammed.behaviour ref).write
      clear := do
        let _ ← (Operation.resume ⟨⟨[]⟩⟩ site).perform jammed
        (jammed.behaviour ref).clear }
  holds := jammed.holds

/-- A task that carries a value for the cell. -/
def courier (label : Option String) : Task where
  bridge := ⟨⟨[⟨.custom "a" 0, some ⟨.numbered 0, .unit⟩⟩]⟩⟩
  label := label

/-- Polls the task, which is ready at once. -/
def delivery (site : CallSite) (label : Option String) :
    Action (Table Value) Unit (Except Failure (Progress Unit)) :=
  ((courier label).poll (tolling site)
    (Action.own fun _ _ cells => (.returned (.ready ()), cells))).2

theorem relabelled_delivery (site site' : CallSite) (label label' : Option String) :
    Relabelled (delivery site label) (delivery site' label') := by
  have hread : ∀ ref, Relabelled (jammed.behaviour ref).read (jammed.behaviour ref).read :=
    fun ref => .own fun _ _ (cells : Table Value) => (.returned (cells.get? "cell"), cells)
  have hput : ∀ content : Option Value,
      let put : Action (Table Value) Unit (Except Failure Unit) := Action.own fun _ _ cells =>
        (.returned (if content.isSome then .ok () else .error (.accessor "a" "stuck")),
          cells.assign "cell" content)
      Relabelled put put := fun _ => .own _
  have hresume : Relabelled ((Operation.resume ⟨⟨[]⟩⟩ site).perform jammed)
      ((Operation.resume ⟨⟨[]⟩⟩ site').perform jammed) :=
    .operation rfl hread (fun _ v => hput (some v)) (fun _ => hput none) (.resume _ site site')
  have hholds : (tolling site').holds = (tolling site).holds := rfl
  exact .poll hholds hread (fun _ v => hput (some v)) (fun _ => hresume.bind fun _ => hput none)
    (courier label) label' (.own _)

/-- The output is lost with any labels, since the cell cannot be cleared again, and the log has the
same lines for it; what they say of call sites is not the same. -/
theorem only_log_differs_delivery : ∃ q q' : Process (Table Value) Unit,
    delivery ⟨some "bell", 7⟩ (some "parcel") { here := "main", host := .empty } =
      (.returned (.error (.accessor "a" "stuck")), q) ∧
    delivery {} none { here := "main", host := .empty } =
      (.returned (.error (.accessor "a" "stuck")), q') ∧
    q'.threads = q.threads ∧ q'.calls = q.calls ∧
    q'.logs.map LogEvent.masked = q.logs.map LogEvent.masked ∧
    q.logs.getLast? = some (.discarding ⟨some "parcel", 1⟩ (.accessor "a" "stuck")) ∧
    q'.logs.getLast? = some (.discarding ⟨none, 1⟩ (.accessor "a" "stuck")) := by
  have hrun : delivery ⟨some "bell", 7⟩ (some "parcel") { here := "main", host := .empty } =
      (.returned (.error (.accessor "a" "stuck")), _) := rfl
  obtain ⟨q', hrun', -, hthreads, -, -, hcalls, -, hlogs⟩ :=
    only_log_differs (relabelled_delivery _ {} _ none) hrun
  refine ⟨_, q', hrun, hrun', hthreads, hcalls, hlogs, rfl, ?_⟩
  obtain rfl := congrArg Prod.snd hrun'
  rfl

end Relabelled

end Ambient
