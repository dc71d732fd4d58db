import Mathlib.Algebra.BigOperators.Group.Finset.Piecewise
import Mathlib.Algebra.GroupWithZero.Nat
import Mathlib.Algebra.Order.BigOperators.Group.Finset
import Ambient.Proofs.Ledger

/-! The balance of the log. In a run of a program in which no function of an accessor panics, the
log tells at no point of more windows that ended than were opened, and in the end the difference is
the number of windows that stand. Proved from the ledger, window by window: which event tells of
the opening of a window whose end is told, and what an installation that fails and what a poll log
besides what is logged by accessors and by the inner computation. -/

namespace Ambient

variable {η ν α ω : Type}

/-! ### Counting by windows -/

/-- Events are counted window by window. -/
theorem countP_eq_sum (P : LogEvent → Bool) {marks : List Mark} {refs : Finset WindowRef}
    (h : ∀ mark ∈ marks, mark.ref ∈ refs) :
    (marks.map Mark.event).countP P = ∑ ref ∈ refs, (eventsOf ref marks).countP P := by
  induction marks with
  | nil => simp [eventsOf]
  | cons mark rest ih =>
    have hmem : mark.ref ∈ refs := h mark List.mem_cons_self
    have hone : ∑ ref ∈ refs, (if mark.ref = ref then [mark.event] else []).countP P =
        [mark.event].countP P := by
      simp only [apply_ite (List.countP P), List.countP_nil, Finset.sum_ite_eq, hmem, if_true]
    simp only [eventsOf_cons, List.countP_append, Finset.sum_add_distrib, hone]
    rw [← ih fun m hm => h m (List.mem_cons_of_mem _ hm), List.map_cons, ← List.singleton_append,
      List.countP_append]

/-- A sum is another one and a count, if it is so term by term. -/
theorem sum_map_eq_add_countP {f g : α → Nat} {P : α → Bool} {l : List α}
    (h : ∀ a ∈ l, f a = g a + if P a = true then 1 else 0) :
    (l.map f).sum = (l.map g).sum + l.countP P := by
  induction l with
  | nil => rfl
  | cons a rest ih =>
    have hrest := ih fun b hb => h b (List.mem_cons_of_mem _ hb)
    rw [List.map_cons, List.sum_cons, List.map_cons, List.sum_cons, List.countP_cons, hrest,
      h a List.mem_cons_self]
    omega

/-- Which events are counted as telling of an end tell of a window. -/
theorem LogEvent.countP_filter_ofWindow {P : LogEvent → Bool}
    (h : ∀ e, P e = true → e.ofWindow = true) (l : List LogEvent) :
    (l.filter ofWindow).countP P = l.countP P := by
  rw [List.countP_filter]
  refine List.countP_congr fun e _ => ?_
  simp only [Bool.and_eq_true]
  exact ⟨fun he => he.1, fun he => ⟨he, h e he⟩⟩

theorem LogEvent.ofWindow_of_opens {e : LogEvent} (h : e.opens = true) : e.ofWindow = true := by
  cases e <;> first | rfl | exact absurd h (by simp [opens])

theorem LogEvent.ofWindow_of_closes {e : LogEvent} (h : e.closes = true) : e.ofWindow = true := by
  cases e <;> first | rfl | exact absurd h (by simp [closes])

namespace Window.Recounts

variable {win : Window} {events : List LogEvent}

theorem countP_opens (h : win.Recounts events) : events.countP LogEvent.opens = 1 := by
  obtain ⟨opening, hopening, rfl⟩ := h
  rw [List.countP_cons_of_pos hopening.opens.1]
  split <;> rfl

theorem countP_closes (h : win.Recounts events) :
    events.countP LogEvent.closes = if win.status = .ended then 1 else 0 := by
  obtain ⟨opening, hopening, rfl⟩ := h
  have hnot : opening.closes = false := by cases hopening <;> rfl
  rw [List.countP_cons_of_neg (by simp [hnot])]
  split <;> rfl

/-- Nothing is told of an end before it is told of the opening. -/
theorem closes_le (h : win.Recounts events) {l : List LogEvent} (hl : l <+: events) :
    l.countP LogEvent.closes ≤ l.countP LogEvent.opens := by
  cases l with
  | nil => exact Nat.le_refl _
  | cons e rest =>
    have hopens : e.opens = true := by
      obtain ⟨opening, hopening, rfl⟩ := h
      rw [(List.cons_prefix_cons.1 hl).1]
      exact hopening.opens.1
    calc (e :: rest).countP LogEvent.closes ≤ events.countP LogEvent.closes := hl.sublist.countP_le
      _ ≤ 1 := by
        rw [h.countP_closes]
        split <;> decide
      _ ≤ (e :: rest).countP LogEvent.opens := by
        rw [List.countP_cons_of_pos hopens]
        exact Nat.le_add_left ..

end Window.Recounts

namespace Process

/-- The windows of all threads. -/
def allWindows (p : Process η ν) : List (WindowRef × Window) :=
  p.threads.bindings.flatMap fun b => b.2.windows.zipIdx.map fun w => (⟨b.1, w.2⟩, w.1)

/-- How many windows stand, on all threads. -/
def standingCount (p : Process η ν) : Nat :=
  p.allWindows.countP fun w => w.2.status = .standing

theorem mem_allWindows {p : Process η ν} {ref : WindowRef} {win : Window} :
    (ref, win) ∈ p.allWindows ↔ p.sight.window? ref = some win := by
  obtain ⟨n, i⟩ := ref
  have hthread : p.sight.window? ⟨n, i⟩ = (p.thread n).windows[i]? := rfl
  simp only [allWindows, List.mem_flatMap, List.mem_map, hthread]
  constructor
  · rintro ⟨⟨m, t⟩, ht, ⟨w, j⟩, hw, heq⟩
    obtain ⟨⟨rfl, rfl⟩, rfl⟩ : (m = n ∧ j = i) ∧ w = win := by simpa using heq
    rw [thread, Table.get?_eq_some_iff.2 ht]
    exact List.mk_mem_zipIdx_iff_getElem?.1 hw
  · intro hw
    cases ht : p.threads.get? n with
    | none =>
      rw [thread, ht] at hw
      exact absurd hw (by simp)
    | some t =>
      rw [thread, ht] at hw
      have hmem := List.mk_mem_zipIdx_iff_getElem?.2 hw
      exact ⟨(n, t), Table.get?_eq_some_iff.1 ht, (win, i), hmem, rfl⟩

theorem nodup_allWindows (p : Process η ν) : (p.allWindows.map Prod.fst).Nodup := by
  rw [allWindows, List.map_flatMap, List.nodup_flatMap]
  refine ⟨fun b _ => ?_, p.threads.sorted.imp fun {b c} hbc => ?_⟩
  · have hrefs : (b.2.windows.zipIdx.map fun w => ((⟨b.1, w.2⟩ : WindowRef), w.1)).map Prod.fst =
        (List.range' 0 b.2.windows.length).map (WindowRef.mk b.1) := by
      rw [← List.zipIdx_map_snd, List.map_map, List.map_map]
      rfl
    rw [hrefs]
    exact List.Nodup.map (fun i j h => (WindowRef.mk.inj h).2) List.nodup_range'
  · intro ref hb hc
    have hthread : ∀ {d : Key × Thread}, ref ∈
        (d.2.windows.zipIdx.map fun w => ((⟨d.1, w.2⟩ : WindowRef), w.1)).map Prod.fst →
        ref.thread = d.1 := by
      intro d hd
      simp only [List.map_map, List.mem_map, Function.comp_apply] at hd
      obtain ⟨w, -, rfl⟩ := hd
      rfl
    exact String.lt_irrefl ref.thread (by rwa [← hthread hb, ← hthread hc] at hbc)

end Process

/-! ### What the ledger says of the log -/

namespace Process.Ledger

variable {marks : List Mark} {p : Process η ν} {ref : WindowRef}

/-- What is told of a window is told of one that there is. -/
theorem window_of_mem (h : p.Ledger marks) {mark : Mark} (hm : mark ∈ marks) :
    ∃ win, p.sight.window? mark.ref = some win := by
  refine Option.ne_none_iff_exists'.1 fun hnone => ?_
  have hmem : mark.event ∈ eventsOf mark.ref marks :=
    List.mem_map_of_mem (List.mem_filter.2 ⟨hm, by simp⟩)
  rw [h.unopened mark.ref hnone] at hmem
  exact absurd hmem List.not_mem_nil

/-- At no point does the log tell of more windows that ended than were opened. -/
theorem closes_le (h : p.Ledger marks) {l : List LogEvent} (hl : l <+: p.logs) :
    l.countP LogEvent.closes ≤ l.countP LogEvent.opens := by
  have hfilter : l.filter LogEvent.ofWindow <+: marks.map Mark.event :=
    h.log ▸ hl.filter LogEvent.ofWindow
  obtain ⟨n, hn⟩ : ∃ n, l.filter LogEvent.ofWindow = (marks.take n).map Mark.event :=
    ⟨_, List.map_take ▸ List.prefix_iff_eq_take.1 hfilter⟩
  have hrefs : ∀ mark ∈ marks.take n, mark.ref ∈ (marks.map Mark.ref).toFinset := fun mark hm => by
    simpa using ⟨mark, List.mem_of_mem_take hm, rfl⟩
  rw [← LogEvent.countP_filter_ofWindow (fun _ => LogEvent.ofWindow_of_closes) l,
    ← LogEvent.countP_filter_ofWindow (fun _ => LogEvent.ofWindow_of_opens) l, hn,
    countP_eq_sum _ hrefs, countP_eq_sum _ hrefs]
  refine Finset.sum_le_sum fun ref _ => ?_
  have hprefix : eventsOf ref (marks.take n) <+: eventsOf ref marks :=
    ((List.take_prefix n marks).filter _).map _
  cases hw : p.sight.window? ref with
  | none =>
    rw [h.unopened ref hw] at hprefix
    rw [List.prefix_nil.1 hprefix]
    exact Nat.le_refl _
  | some win => exact (h.opened ref win hw).closes_le hprefix

/-- Where no window is being restored, the windows that were opened are those that ended and those
that stand. -/
theorem countP_opens (h : p.Ledger marks)
    (hrest : ∀ ref win, p.sight.window? ref = some win → win.status ≠ .closing) :
    p.logs.countP LogEvent.opens = p.logs.countP LogEvent.closes + p.standingCount := by
  have hrefs : ∀ mark ∈ marks, mark.ref ∈ (p.allWindows.map Prod.fst).toFinset := fun mark hm => by
    obtain ⟨win, hw⟩ := h.window_of_mem hm
    exact List.mem_toFinset.2 (List.mem_map.2 ⟨_, mem_allWindows.2 hw, rfl⟩)
  have hsum : ∀ P : LogEvent → Bool, (∀ e, P e = true → e.ofWindow = true) →
      p.logs.countP P = (p.allWindows.map fun w => (eventsOf w.1 marks).countP P).sum := by
    intro P hP
    rw [← LogEvent.countP_filter_ofWindow hP, ← windowLog, h.log, countP_eq_sum P hrefs,
      List.sum_toFinset _ p.nodup_allWindows, List.map_map]
    rfl
  have hone : ∀ w ∈ p.allWindows, (eventsOf w.1 marks).countP LogEvent.opens =
      (eventsOf w.1 marks).countP LogEvent.closes +
        if decide (w.2.status = .standing) = true then 1 else 0 := by
    rintro ⟨ref, win⟩ hw
    rw [mem_allWindows] at hw
    have hrecounts := h.opened ref win hw
    rw [hrecounts.countP_opens, hrecounts.countP_closes]
    cases hs : win.status with
    | standing => simp
    | closing => exact absurd hs (hrest ref win hw)
    | ended => simp
  rw [hsum _ fun _ => LogEvent.ofWindow_of_opens, hsum _ fun _ => LogEvent.ofWindow_of_closes]
  exact sum_map_eq_add_countP hone

/-- The end of a window is told of once, after its opening, and with the number of its priors. -/
theorem closed (h : p.Ledger marks) {before later : List Mark} {k : Nat}
    (hm : marks = before ++ ⟨ref, .closed k⟩ :: later) :
    ∃ win opening, p.sight.window? ref = some win ∧ win.OpenedBy opening ∧ win.priors.length = k ∧
      eventsOf ref before = [opening] ∧ eventsOf ref later = [] := by
  have hmem : (⟨ref, .closed k⟩ : Mark) ∈ marks := by simp [hm]
  obtain ⟨win, hw⟩ := h.window_of_mem hmem
  obtain ⟨opening, hopening, hevents⟩ := h.opened ref win hw
  rw [hm, eventsOf_append, eventsOf_cons, if_pos rfl] at hevents
  cases hb : eventsOf ref before with
  | nil =>
    rw [hb] at hevents
    obtain rfl : LogEvent.closed k = opening := (List.cons.inj hevents).1
    exact nomatch hopening
  | cons e rest =>
    rw [hb] at hevents
    obtain ⟨rfl, hends⟩ := List.cons.inj hevents
    cases rest with
    | nil =>
      split at hends
      · obtain ⟨hk, hlater⟩ := List.cons.inj hends
        exact ⟨win, e, hw, hopening, (LogEvent.closed.inj hk).symm, rfl, hlater⟩
      · exact absurd hends (by simp)
    | cons d rest =>
      -- nothing is told of the window but its opening and one end
      have hlength := congrArg List.length hends
      split at hlength <;> simp at hlength

end Process.Ledger

/-! ### Events that only others log -/

/-- From `p` to `q` no event of the kind was logged. -/
def Process.Omits (kind : LogEvent → Prop) (p q : Process η ν) : Prop :=
  ∃ l, q.logs = p.logs ++ l ∧ ∀ e ∈ l, ¬ kind e

/-- The functions behind the accessors log no event of the kind. -/
def Host.Omits (kind : LogEvent → Prop) (H : Host η ν) : Prop :=
  ∀ ref, (H.behaviour ref).Lasts (Process.Omits kind)

/-- Whatever is told of tasks in `l`, these functions told it: what they never log is not there. -/
def Host.Tells (H : Host η ν) (l : List LogEvent) : Prop :=
  ∀ kind : LogEvent → Prop, (∀ e, kind e → e.ofTask = true) → H.Omits kind → ∀ e ∈ l, ¬ kind e

namespace Process.Omits

variable {kind : LogEvent → Prop} {p q r : Process η ν}

theorem of_logs (h : q.logs = p.logs) : p.Omits kind q :=
  ⟨[], by rw [h, List.append_nil], fun _ he => absurd he List.not_mem_nil⟩

theorem trans (h : p.Omits kind q) (k : q.Omits kind r) : p.Omits kind r := by
  obtain ⟨l, hl, hnone⟩ := h
  obtain ⟨l', hl', hnone'⟩ := k
  refine ⟨l ++ l', by rw [hl', hl, List.append_assoc], fun e he => ?_⟩
  exact (List.mem_append.1 he).elim (hnone e) (hnone' e)

theorem logged (hkind : ∀ e, kind e → e.ofTask = true) (p : Process η ν) {e : LogEvent}
    (he : e.ofTask = false) : p.Omits kind (p.record (.logged e)) := by
  refine ⟨[e], p.logs_record _, fun d hd hk => ?_⟩
  rw [List.mem_singleton.1 hd] at hk
  exact absurd (hkind e hk) (by simp [he])

/-- The library itself tells of tasks only where one is resumed or suspended. -/
theorem lasting {H : Host η ν} (hkind : ∀ e, kind e → e.ofTask = true) (hH : H.Omits kind) :
    Lasting H (fun _ => True) (Process.Omits kind) where
  aside h := of_logs h.logs
  called _ _ _ := of_logs (by simp [Event.log?])
  logged p _ _ he := logged hkind p he
  trans := trans
  installed p _ _ _ := (logged hkind p rfl).trans (of_logs rfl)
  refused p _ _ _ _ _ _ _ _ := (logged hkind p rfl).trans (of_logs rfl)
  functions := hH
  restoring _ _ := of_logs (by simp [Event.log?])
  closed _ _ h := (h.trans (logged hkind _ rfl)).trans (of_logs rfl)
  aborted _ _ h _ := h.trans (of_logs rfl)
  spoils := H.spoils_true

end Process.Omits

theorem Host.Tells.of_omits {H : Host η ν} {p q : Process η ν} {l : List LogEvent}
    (hl : q.logs = p.logs ++ l) (h : ∀ kind : LogEvent → Prop, (∀ e, kind e → e.ofTask = true) →
      H.Omits kind → p.Omits kind q) : H.Tells l := by
  intro kind hkind hH e he
  obtain ⟨l', hl', hnone⟩ := h kind hkind hH
  obtain rfl : l = l' := List.append_cancel_left (hl.symm.trans hl')
  exact hnone e he

/-! ### What installations and polls log -/

namespace Window

variable {H : Host η Note} {i : Nat} {win : Window} {p : Process η Note}

/-- A window that stands is restored, and that is told in the end. -/
theorem logs_restore (L : Lasting H Process.Panicked Posted) (hw : p.current.windows[i]? = some win)
    (hs : win.status = .standing) (hcalm : ¬ (restore H i p).2.Panicked) :
    ∃ failures, (restore H i p).2.logs = p.logs ++ (failures ++ [.closed win.priors.length]) := by
  have hback := L.putBack ⟨p.here, i⟩ win.priors.reverse none (p.marked i .closing)
  rw [restore_standing hw hs] at hcalm ⊢
  rcases hput : putBack H ⟨p.here, i⟩ win.priors.reverse none (p.marked i .closing) with
    ⟨first | text, r⟩ <;> rw [hput] at hback hcalm
  · obtain ⟨failures, hfailures⟩ := hback.logs
    refine ⟨failures, ?_⟩
    change (r.record (.logged (.closed win.priors.length))).logs = _
    rw [Process.logs_record, ← hfailures, Process.logs_marked, List.append_assoc]
    rfl
  · exact absurd (L.spoils.of_putBack hput) hcalm

/-- The same where only the log tells of a failure, after that. -/
theorem logs_endWith (L : Lasting H Process.Panicked Posted) (report : Failure → LogEvent)
    (hw : p.current.windows[i]? = some win) (hs : win.status = .standing)
    (hcalm : ¬ (endWith H i report p).2.Panicked) :
    ∃ failures, ∃ first : Option Failure, (endWith H i report p).2.logs =
      p.logs ++ (failures ++ .closed win.priors.length :: first.toList.map report) := by
  have hended : ∀ q : Process η Note, ((q.marked i .ended).sweep H).logs = q.logs := fun q => by
    rw [Process.logs_sweep, Process.logs_marked]
  have hrestore := logs_restore L hw hs
  rw [endWith_apply] at hcalm ⊢
  rcases hq : restore H i p with ⟨(failure | ⟨⟩) | text, q⟩ <;> rw [hq] at hcalm hrestore
  all_goals
    have hcalm' : ¬ q.Panicked := fun h => hcalm (((Process.aside_sweep H _).noted _).2 (by
      first | exact h | exact List.mem_cons_of_mem _ h))
    obtain ⟨failures, hfailures⟩ := hrestore hcalm'
  · refine ⟨failures, some failure, ?_⟩
    change ((((q.record (.logged (report failure))).marked i .ended).sweep H).logs = _)
    rw [hended, Process.logs_record, hfailures]
    simp [Event.log?]
  · exact ⟨failures, none, (hended q).trans hfailures⟩
  · exact ⟨failures, none, (hended q).trans hfailures⟩

end Window

/-- What an installation logs from the write on that fails: the failure, and then what is told of
the restoration of the entries that were written before, and of that one. -/
def Snapshot.Failing.Told {H : Host η Note} {s : Snapshot} {p : Process η Note} {failure : Failure}
    (f : s.Failing H p failure) (q : Process η Note) : Prop :=
  ∃ failures, ∃ first : Option Failure, q.logs = f.left.logs ++
    .installFailed f.entry.key failure ::
      (failures ++ .closed (f.before.length + 1) :: first.toList.map .rollbackFailed)

theorem Snapshot.told_of_install {H : Host η Note} (L : Lasting H Process.Panicked Posted)
    {s : Snapshot} {p q : Process η Note} {failure : Failure}
    (hi : s.install H p = (.returned (.error failure), q)) (hcalm : ¬ q.Panicked) :
    ∃ f : s.Failing H p failure, f.Told q := by
  obtain ⟨f, r, n, hdiscard, rfl⟩ := failing_of_install hi
  have hr : (Window.endWith H f.index .rollbackFailed f.opened).2 = r := congrArg Prod.snd hdiscard
  obtain ⟨failures, first, hlogs⟩ := Window.logs_endWith L .rollbackFailed f.window_opened rfl
    (hr ▸ hcalm)
  have hpriors : (f.priors ++ [f.displaced]).length = f.before.length + 1 := by
    simpa using congrArg List.length f.placed.accessors
  have hopened : f.opened.logs = f.left.logs ++ [.installFailed f.entry.key failure] :=
    f.left.logs_record _
  refine ⟨f, failures, first, ?_⟩
  rw [Process.logs_unhold, ← hr, hlogs, hpriors, hopened, List.append_assoc]
  rfl

/-- What a poll logs, which begins in `p`, besides what is logged by the inner computation: what is
told of tasks otherwise is told by the functions behind the accessors. -/
inductive Task.Logs (H : Host η Note) (t : Task) (inner : Action η Note (Progress ω))
    (p : Process η Note) : Prop
  /-- The installation did not succeed. -/
  | refused {answer q installing}
      (hi : t.bridge.snapshot.install H (p.record (.logged (.resuming t.advance.site))) =
        (answer, q))
      (hno : ∀ i, answer ≠ .returned (.ok i))
      (hresuming : q.logs = p.logs ++ .resuming t.advance.site :: installing)
      (htells : H.Tells installing) (hlast : ((t.poll H inner).2 p).2 = q)
  /-- The window `i` was opened. When the inner computation has ended, it is restored if it still
  stands, and at most a warning comes after that. -/
  | ran {i q exit r installing body restoring} {regret : Option LogEvent}
      (hi : t.bridge.snapshot.install H (p.record (.logged (.resuming t.advance.site))) =
        (.returned (.ok i), q))
      (hresuming : q.logs = p.logs ++ .resuming t.advance.site :: installing)
      (hinner : inner q = (exit, r)) (hbody : r.logs = q.logs ++ body)
      (hsuspending : ((t.poll H inner).2 p).2.logs =
        r.logs ++ .suspending t.advance.site :: (restoring ++ regret.toList))
      (htells : H.Tells (installing ++ restoring))
      (hclosed : ∀ win, r.current.windows[i]? = some win → win.status = .standing →
        ∃ failures, restoring = failures ++ [.closed win.priors.length])
      (hregret : ∀ e ∈ regret, e.Regrets t.advance.site)

theorem Host.Tells.append {H : Host η ν} {l l' : List LogEvent} (h : H.Tells l) (h' : H.Tells l') :
    H.Tells (l ++ l') := by
  intro kind hkind hH e he
  exact (List.mem_append.1 he).elim (h kind hkind hH e) (h' kind hkind hH e)

/-- Where an inner computation has ended in `r`, what is logged until the poll has. -/
theorem Task.logs_conclude {H : Host η Note} (L : Lasting H Process.Panicked Posted) (t : Task)
    {i : Nat} {exit : Exit (Progress ω)} {r : Process η Note}
    (hfree : (r.record (.logged (.suspending t.site))).Free Posted i)
    (hcalm : ¬ (t.conclude H i exit r).2.Panicked) :
    ∃ restoring, ∃ regret : Option LogEvent, (t.conclude H i exit r).2.logs =
        r.logs ++ .suspending t.site :: (restoring ++ regret.toList) ∧ H.Tells restoring ∧
      (∀ win, r.current.windows[i]? = some win → win.status = .standing →
        ∃ failures, restoring = failures ++ [.closed win.priors.length]) ∧
      ∀ e ∈ regret, e.Regrets t.site := by
  set begun := r.record (.logged (.suspending t.site))
  set ended := (Window.restore H i begun).2.marked i .ended
  have hbegun : begun.logs = r.logs ++ [.suspending t.site] := r.logs_record _
  obtain ⟨restoring, hrestoring⟩ := (L.enduring.ended hfree).logs
  have hsuspend : (Bridge.suspend H t.site i r).2.logs =
      r.logs ++ .suspending t.site :: restoring := by
    rw [Bridge.suspend_apply, Window.close_apply, Process.logs_sweep, ← hrestoring, hbegun,
      List.append_assoc]
    rfl
  have hpanicked : (Window.restore H i begun).2.Panicked →
      (Bridge.suspend H t.site i r).2.Panicked := fun h => ((Process.aside_sweep H ended).noted _).2 h
  have htells : H.Tells restoring := by
    refine .of_omits hrestoring.symm fun kind hkind hH => ?_
    exact (Process.Omits.lasting hkind hH).enduring.ended fun _ _ _ => .of_logs (Process.logs_marked ..)
  have hclosed : ¬ (Window.restore H i begun).2.Panicked → ∀ win,
      r.current.windows[i]? = some win → win.status = .standing →
        ∃ failures, restoring = failures ++ [.closed win.priors.length] := by
    intro hcalm win hw hs
    obtain ⟨failures, hfailures⟩ := Window.logs_restore (p := begun) L hw hs hcalm
    refine ⟨failures, List.append_cancel_left (hrestoring.trans ?_)⟩
    rw [Process.logs_marked, hfailures]
  rcases t.conclude_snd (H := H) i exit r with hlast | ⟨e, he, hlast⟩ <;>
    rw [hlast] at hcalm ⊢
  · refine ⟨restoring, none, by simpa using hsuspend, htells, ?_, by simp⟩
    exact hclosed fun h => hcalm (hpanicked h)
  · refine ⟨restoring, some e, ?_, htells, ?_, by simpa using he⟩
    · rw [Process.logs_record, hsuspend]
      simp [Event.log?]
    · exact hclosed fun h => hcalm (List.mem_cons_of_mem _ (hpanicked h))

theorem Task.logs_poll {H : Host η Note} (L : Lasting H Process.Panicked Posted) (t : Task)
    {inner : Action η Note (Progress ω)} (hb : inner.Lasts Posted) {p : Process η Note}
    (hcalm : ¬ ((t.poll H inner).2 p).2.Panicked) : t.Logs H inner p := by
  set begun := p.record (.logged (.resuming t.advance.site))
  have hbegun : begun.logs = p.logs ++ [.resuming t.advance.site] := p.logs_record _
  obtain ⟨installing, hinstalling⟩ := (L.enduring.install t.bridge.snapshot begun).logs
  have htells : H.Tells installing := by
    refine .of_omits hinstalling.symm fun kind hkind hH => ?_
    exact (Process.Omits.lasting hkind hH).enduring.install t.bridge.snapshot begun
  rw [hbegun, List.append_assoc, List.singleton_append] at hinstalling
  rcases hi : t.bridge.snapshot.install H begun with ⟨(failure | i) | text, q⟩ <;>
    rw [hi] at hinstalling
  · refine .refused hi (by simp) hinstalling.symm htells ?_
    rw [poll_of_error hi]
  · obtain ⟨win, hw, hs⟩ := Snapshot.window_of_install hi
    obtain ⟨body, hbody⟩ := (hb q).logs
    have hfree : ((inner q).2.record (.logged (.suspending t.advance.site))).Free Posted i :=
      Posted.freeing hw hs ((hb q).trans (.logged _ rfl))
    rw [poll_of_ok hi] at hcalm
    obtain ⟨restoring, regret, hlast, htells', hclosed, hregret⟩ :=
      t.advance.logs_conclude L hfree hcalm
    refine .ran hi hinstalling.symm rfl hbody.symm ?_ (htells.append htells') hclosed hregret
    rw [poll_of_ok hi]
    exact hlast
  · refine .refused hi (by simp) hinstalling.symm htells ?_
    rw [poll_of_panicked hi]

/-! ### Runs -/

/-- The log of a run balances that ended in `last`. -/
structure Balanced (last : Process η Note) : Prop where
  /-- At no point does it tell of more windows that ended than were opened. -/
  partway : ∀ l, l <+: last.logs → l.countP LogEvent.closes ≤ l.countP LogEvent.opens
  /-- In the end the difference is the number of windows that stand. -/
  whole : last.logs.countP LogEvent.opens =
    last.logs.countP LogEvent.closes + last.standingCount
  /-- What it tells of windows can be marked with these: the end of each is told once, with the
  number of its priors, and after the one event that tells of its opening. -/
  matched : ∃ marks : List Mark, marks.map Mark.event = last.windowLog ∧
    ∀ before ref k later, marks = before ++ ⟨ref, .closed k⟩ :: later →
      ∃ win opening, last.sight.window? ref = some win ∧ win.OpenedBy opening ∧
        win.priors.length = k ∧ eventsOf ref before = [opening] ∧ eventsOf ref later = []

/-- In the beginning there are no windows, and the log is empty. -/
theorem Process.ledger_start (n : ThreadName) (host : η) :
    ({ here := n, host } : Process η Note).Ledger [] :=
  ⟨rfl, fun _ _ => rfl, fun ref win hw => absurd hw (by simp [Sight.window?, sight, thread])⟩

namespace Regular

variable {m : Action η Note α} {n : ThreadName} {host : η} {exit : Exit α} {last : Process η Note}

theorem balanced_of_run (hm : Regular m) (hrun : m { here := n, host } = (exit, last))
    (hcalm : ¬ last.Panicked) : Balanced last := by
  have hposted := hm.posts { here := n, host }
  rw [hrun] at hposted
  obtain ⟨marks, hmarks⟩ := hposted.ledger hcalm [] (Process.ledger_start n host)
  refine ⟨fun l hl => hmarks.closes_le hl, hmarks.countP_opens fun ref win hw hc => ?_, marks, ?_,
    ?_⟩
  · -- a window that is being restored was so from the start
    exact absurd (hposted.fresh hcalm ref win hw hc)
      (by simp [Sight.window?, Process.sight, Process.thread])
  · exact hmarks.log.symm
  · exact fun before ref k later hsplit => hmarks.closed hsplit

/-- A run of a program in which no function of an accessor panicked. The log balances, at each point
of it. An installation that fails tells of as many entries restored as were written before the
failure, and one. A poll is told once to begin, and once to have stopped if it opened a window,
before that is restored. -/
theorem closes_le_opens_of_run (hm : Regular m) (hrun : m { here := n, host } = (exit, last))
    (hcalm : ¬ last.Panicked) :
    Balanced last ∧
    (∀ (H : Host η Note) (s : Snapshot) (p q : Process η Note) (failure : Failure), H.Regular →
      s.install H.watched p = (.returned (.error failure), q) → ¬ q.Panicked →
        ∃ f : s.Failing H.watched p failure, f.Told q) ∧
    ∀ (ω : Type) (H : Host η Note) (t : Task) (inner : Action η Note (Progress ω))
      (p : Process η Note), H.Regular → Regular inner →
      ¬ ((t.poll H.watched inner).2 p).2.Panicked → t.Logs H.watched inner p := by
  refine ⟨hm.balanced_of_run hrun hcalm, fun H s p q failure hH hi hq => ?_,
    fun ω H t inner p hH hinner hq => ?_⟩
  · exact Snapshot.told_of_install hH.lasting hi hq
  · exact Task.logs_poll hH.lasting t hinner.posts hq

/-- An embedding program with a cell for each number, which answers a failure whenever the cell of
`b` was given a value. -/
def grudging : Host (Table Value) Note :=
  rack (fun ref => if ref = 0 then "a" else "b") fun ref content =>
    if ref = 0 ∨ content = none then .returned (.ok ()) else .returned (.error (.accessor "b" "no"))

/-- The same program, but when a cell is to be cleared, it first tries to install both values. -/
def relapsing : Host (Table Value) Note where
  behaviour ref :=
    { read := (grudging.behaviour ref).read
      write := (grudging.behaviour ref).write
      clear := do
        let _ ← (Operation.install Snapshot.both).run grudging.watched
        (grudging.behaviour ref).clear }
  holds := grudging.holds

/-- Both values cannot be installed, one can, and a task is polled. -/
def round : Action (Table Value) Note Unit := do
  let _ ← (Operation.install Snapshot.both).run relapsing.watched
  let _ ← (Operation.install Task.errand.bridge.snapshot).run relapsing.watched
  let _ ← (Task.errand.poll relapsing.watched (pure (Progress.ready ()))).2

theorem regular_pure {β : Type} (b : β) : Regular (pure b : Action η Note β) :=
  .own fun _ => ⟨rfl, fun _ => rfl, rfl⟩

theorem regular_grudging : grudging.Regular := fun _ =>
  ⟨.own fun _ => ⟨rfl, fun _ => rfl, rfl⟩, fun _ => .own fun _ => ⟨rfl, fun _ => rfl, rfl⟩,
    .own fun _ => ⟨rfl, fun _ => rfl, rfl⟩⟩

theorem regular_relapsing : relapsing.Regular := fun ref =>
  ⟨(regular_grudging ref).read, (regular_grudging ref).write,
    (regular_grudging.operation (.install Snapshot.both)).bind fun _ => (regular_grudging ref).clear⟩

theorem regular_round : Regular round := by
  have hinstall : ∀ s, Regular ((Operation.install s).run relapsing.watched) := fun s =>
    regular_relapsing.operation (.install s)
  have hpoll : Regular (Task.errand.poll relapsing.watched (pure (Progress.ready ()))).2 :=
    regular_relapsing.poll Task.errand (regular_pure _)
  exact (hinstall _).bind fun _ => (hinstall _).bind fun _ => hpoll.bind fun _ => regular_pure _

/-- In the end the window of one value stands. -/
theorem closes_le_opens_round : ∃ last, round { here := "main", host := .empty } = (.returned (), last) ∧
      last.logs.countP LogEvent.opens = last.logs.countP LogEvent.closes + 1 ∧
      (∃ f : Snapshot.both.Failing relapsing.watched { here := "main", host := .empty }
        (.accessor "b" "no"), f.Told
          (Snapshot.both.install relapsing.watched { here := "main", host := .empty }).2) ∧
      Task.errand.Logs relapsing.watched (pure (Progress.ready ()))
        { here := "main", host := .empty } := by
  have hexit : (round { here := "main", host := .empty }).1 = .returned () := by decide +kernel
  have hcalm : ¬ (round { here := "main", host := .empty }).2.Panicked :=
    Honest.not_panicked (by decide +kernel)
  have hcount : (round { here := "main", host := .empty }).2.standingCount = 1 := by decide +kernel
  have hfails : (Snapshot.both.install relapsing.watched { here := "main", host := .empty }).1 =
      .returned (.error (.accessor "b" "no")) := by decide +kernel
  have hrun := Prod.fst_eq_iff.1 hexit
  obtain ⟨hlog, hrefused, hpolled⟩ := closes_le_opens_of_run regular_round hrun hcalm
  refine ⟨_, hrun, hcount ▸ hlog.whole, ?_, ?_⟩
  · refine hrefused relapsing _ _ _ _ regular_relapsing (Prod.fst_eq_iff.1 hfails) ?_
    exact Honest.not_panicked (by decide +kernel)
  · refine hpolled _ relapsing _ _ _ regular_relapsing (regular_pure _) ?_
    exact Honest.not_panicked (by decide +kernel)

end Regular

end Ambient
