import Mathlib.Data.List.Nodup
import Ambient.Proofs.Endings
import Ambient.Proofs.Locality

/-! Context that is handed from thread to thread. What one thread was captured of is installed on
another, the other is captured inside the window, that is installed on a third, and so on, to any
length and back to threads where windows are open still. Windows may end before the next is opened
or long after; those of one thread end latest first. Proved: every capture is the first one again,
with its absences, and a thread whose windows have all ended has its slots back. Accessors other
than slots are left out, and so is code of other owners between the moves. -/

namespace Ambient

variable {η ν : Type}

/-! ### Relays -/

/-- What is done next in a relay. -/
inductive Move where
  /-- What is in hand is installed on a thread, and inside the window the thread is captured, which
  is in hand then. -/
  | pass (n : ThreadName)
  /-- The latest window that the relay has open on a thread ends. -/
  | back (n : ThreadName) (way : Ending.Way)

/-- A relay on its way. -/
structure Relay where
  /-- What was captured last. -/
  inHand : Snapshot
  /-- The numbers of the windows that are open on each thread, the latest first. -/
  opened : ThreadName → List Nat := fun _ => []

/-- The relay with other windows open on a thread. -/
def Relay.reopened (relay : Relay) (n : ThreadName) (l : List Nat) : Relay :=
  { relay with opened := Function.update relay.opened n l }

theorem Relay.opened_reopened (relay : Relay) (n n' : ThreadName) (l : List Nat) :
    (relay.reopened n l).opened n' = if n' = n then l else relay.opened n' :=
  Function.update_apply relay.opened n l n'

section Running

variable (H : Host η ν) (r : RegistryId)

/-- What is in hand is installed on the running thread `n`, which is then captured. -/
def Relay.take (n : ThreadName) (relay : Relay) : Action η ν Relay := do
  match ← relay.inHand.install H with
  | .error failure => Action.panic failure.message
  | .ok i =>
    let captured ← Snapshot.capture H r none {}
    return { relay.reopened n (i :: relay.opened n) with inHand := captured }

def Move.make (relay : Relay) : Move → Action η ν Relay
  | pass n => Action.onThread n (relay.take H r n)
  | back n way =>
    match relay.opened n with
    | [] => pure relay
    | i :: rest => do
      Action.onThread n (way.run H i)
      return relay.reopened n rest

def Relay.run : List Move → Relay → Action η ν Relay
  | [], relay => pure relay
  | move :: rest, relay => do Relay.run rest (← move.make H r relay)

end Running

/-- How many windows are open on the thread `n` after a move, if `d` are before. -/
def Move.depth (n : ThreadName) (d : Nat) : Move → Nat
  | pass m => if n = m then d + 1 else d
  | back m _ => if n = m then d - 1 else d

/-- How many windows moves leave open on the thread `n`, if `d` are open before. -/
def Move.leave (n : ThreadName) (moves : List Move) (d : Nat) : Nat := moves.foldl (Move.depth n) d

/-- A relay that ends each window before it opens the next. -/
def Move.inTurn (threads : List ThreadName) : List Move :=
  threads.flatMap fun n => [.pass n, .back n .closed]

theorem Move.leave_inTurn (n : ThreadName) (threads : List ThreadName) (d : Nat) :
    leave n (inTurn threads) d = d := by
  induction threads with
  | nil => rfl
  | cons m rest ih =>
    refine Eq.trans ?_ ih
    change leave n (inTurn rest) (depth n (depth n d (.pass m)) (.back m .closed)) = _
    congr 1
    by_cases hm : n = m <;> simp [depth, hm]

/-! ### Windows piled up on one thread -/

namespace SlotSnapshot

variable (s : SlotSnapshot) (m : Slots)

/-- What the slots are on which some windows over `s` are open, if they were `m`. -/
def laid : List Nat → Slots
  | [] => m
  | _ :: _ => s.overlay m

/-- The windows over `s` of these numbers, the latest first. -/
def openings : List Nat → List Opening
  | [] => []
  | i :: rest => ⟨s, i, s.laid m rest⟩ :: openings rest

variable {s m}

theorem laid_of_not_mem {k : Key} (hk : k ∉ s.keys) (l : List Nat) : s.laid m l k = m k := by
  cases l with
  | nil => rfl
  | cons i rest => exact Snapshot.overlay_of_not_mem hk m

/-- To put the same over slots a second time changes nothing. -/
theorem overlay_laid (l : List Nat) : s.overlay (s.laid m l) = s.overlay m := by
  cases l with
  | nil => rfl
  | cons i rest =>
    funext k
    rw [laid, overlay, overlay]
    cases s.get? k <;> rfl

theorem back_laid (l : List Nat) : s.back (s.laid m l) (s.overlay m) = s.laid m l := by
  funext k
  rw [back]
  split
  · rfl
  · next hk =>
    have hk : k ∉ s.keys := mt Snapshot.contains_iff.2 hk
    rw [Snapshot.overlay_of_not_mem hk, laid_of_not_mem hk]

theorem map_index_openings (l : List Nat) : (s.openings m l).map Opening.index = l := by
  induction l with
  | nil => rfl
  | cons i rest ih => rw [openings, List.map_cons, ih]

end SlotSnapshot

/-- Who ends a window over slots leaves other threads alone, and does not cost the running one its
slots. -/
theorem Opening.Stands.run_local {H : Host η ν} {o : Opening} {p : Process η ν} (h : o.Stands p)
    (way : Ending.Way) : p.Local (way.run H o.index p).2 ∧
      (way.run H o.index p).2.current.storage.isLive = p.current.storage.isLive := by
  obtain ⟨r, hrestore, hf, -⟩ := h.restored (H := H)
  obtain ⟨m, -, hwin⟩ := h.window
  rw [Ending.Way.run_of_restored hrestore way]
  have hpriors : ∀ e ∈ Entry.displaced (slotsOnly η) o.snapshot.entries m,
      e.accessor = .slot e.accessor.key :=
    (Entry.forall_displaced (P := fun a => a = .slot a.key) _).2 o.snapshot.slots
  have hmarked : ∀ (p : Process η ν) status,
      (p.marked o.index status).current.storage = p.current.storage := fun p status => by
    simp [Process.marked, Process.modifyCurrent]
  refine ⟨?_, ?_⟩
  · have hr := Window.restore_local hwin rfl hpriors hrestore
    exact (hr.trans (r.local_modifyCurrent _)).trans (Process.still_sweep _).local
  · rw [Process.current_sweep, hmarked, hf.live, hmarked]

/-- On the running thread, whose slots were `m`, the windows of these numbers are open over `s`, and
nothing else has come to its slots. -/
structure Piled (s : SlotSnapshot) (m : Slots) (l : List Nat) (p : Process η ν) : Prop where
  slots : p.slot? = s.laid m l
  stands : ∀ o ∈ s.openings m l, o.Stands p
  nodup : l.Nodup

namespace Piled

variable {H : Host η ν} {s : SlotSnapshot} {m : Slots} {i : Nat} {l : List Nat} {p q : Process η ν}

theorem of_current (h : Piled s m l p) (hh : q.here = p.here) (hc : q.current = p.current) :
    Piled s m l q := by
  refine ⟨?_, fun o ho => (h.stands o ho).of_frame ⟨hh, by rw [hc], by simp [hc]⟩, h.nodup⟩
  rw [← h.slots]
  funext k
  rw [Process.slot?, Process.slot?, hc]

/-- One more window over the same. -/
theorem push (h : Piled s m l p) (hp : p.current.storage.isLive = true)
    (hi : s.install H p = (.returned (.ok i), q)) : Piled s m (i :: l) q := by
  have hinstalled := Snapshot.installed_of_install s.isCell hi
  refine ⟨?_, fun o ho => ?_, List.nodup_cons.2 ⟨fun hmem => ?_, h.nodup⟩⟩
  · rw [SlotSnapshot.slot?_of_installed hinstalled, h.slots, SlotSnapshot.overlay_laid]
    rfl
  · rcases List.mem_cons.1 ho with rfl | ho
    · exact h.slots ▸ Opening.stands_of_installed hinstalled fun _ _ => hp
    · exact (h.stands o ho).of_frame hinstalled.frame
  · -- windows that are there have lower numbers
    rw [← SlotSnapshot.map_index_openings (s := s) (m := m) l] at hmem
    obtain ⟨o, ho, rfl⟩ := List.mem_map.1 hmem
    have hlt := (h.stands o ho).lt
    have hfresh := hinstalled.fresh
    omega

/-- The latest window ends. -/
theorem pop (h : Piled s m (i :: l) p) (way : Ending.Way) :
    ∃ q, way.run H i p = (.returned (), q) ∧ Piled s m l q ∧ p.Local q ∧
      q.current.storage.isLive = p.current.storage.isLive := by
  have hstands : (⟨s, i, s.laid m l⟩ : Opening).Stands p := h.stands _ List.mem_cons_self
  obtain ⟨hnot, hnodup⟩ := List.nodup_cons.1 h.nodup
  obtain ⟨q, hrun, hhere, hslots, hothers⟩ := hstands.ended (H := H) way
  refine ⟨q, hrun, ⟨?_, fun o ho => ?_, hnodup⟩, ?_⟩
  · rw [hslots, h.slots]
    exact SlotSnapshot.back_laid l
  · refine hothers o (fun heq => hnot ?_) (h.stands o (List.mem_cons_of_mem _ ho))
    rw [← SlotSnapshot.map_index_openings (s := s) (m := m) l]
    exact List.mem_map.2 ⟨o, ho, heq⟩
  · have hlocal := hstands.run_local (H := H) way
    rw [hrun] at hlocal
    exact hlocal

end Piled

/-! ### What a relay keeps up -/

/-- What the slots of a thread hold. -/
def Process.slotsOn (p : Process η ν) (n : ThreadName) : Slots :=
  fun k => (p.thread n).storage.get? k

/-- A picture of slots over which a picture was put is this one. -/
theorem Registry.picture_overlay {t : Registry} {s : SlotSnapshot} {m : Slots}
    (hs : s.toSnapshot = t.picture m) (n : Slots) : t.picture (s.overlay n) = s.toSnapshot := by
  rw [hs, picture, picture]
  refine congrArg _ (List.map_congr_left fun k hk => ?_)
  rw [SlotSnapshot.overlay, hs, Snapshot.get?_picture, if_pos hk, Option.getD_some]

namespace Relay

/-- A relay that began in `start` with `s` in hand and has come to `p`: it has `s` in hand still,
and each thread has its slots of then, with what the relay has open on it. -/
structure Upholds (s : SlotSnapshot) (start : Process η ν) (relay : Relay) (p : Process η ν) :
    Prop where
  inHand : relay.inHand = s.toSnapshot
  registries : p.registries = start.registries
  live : ∀ n, (p.thread n).storage.isLive = (start.thread n).storage.isLive
  piled : ∀ n, Piled s (start.slotsOn n) (relay.opened n) (p.entered n)

namespace Upholds

variable {H : Host η ν} {r : RegistryId} {s : SlotSnapshot} {start p q : Process η ν}
  {relay : Relay} {n : ThreadName} {l : List Nat}

/-- A thread did what concerns it alone, and other windows are open on it now. -/
theorem upholds_reopened (h : relay.Upholds s start p) (hq : (p.entered n).Local q)
    (hlive : q.current.storage.isLive = (p.thread n).storage.isLive)
    (hl : Piled s (start.slotsOn n) l q) (home : ThreadName) :
    (relay.reopened n l).Upholds s start (q.reentered home) := by
  have hcurrent : q.current = q.thread n := congrArg q.thread hq.here
  have hother : ∀ n', n' ≠ n → (q.reentered home).thread n' = p.thread n' := hq.others
  refine ⟨h.inHand, hq.registries.trans h.registries, fun n' => ?_, fun n' => ?_⟩
  · by_cases hn : n' = n
    · subst hn
      rw [← h.live n', ← hlive, hcurrent]
      rfl
    · rw [hother n' hn, h.live n']
  · rw [opened_reopened]
    by_cases hn : n' = n
    · subst hn
      rw [if_pos rfl]
      exact hl.of_current hq.here.symm hcurrent.symm
    · rw [if_neg hn]
      exact (h.piled n').of_current rfl (hother n' hn)

/-- A move to another thread. -/
theorem returned_of_pass (h : relay.Upholds s start p) {m : Slots} (hslots : (start.registry r).OfSlots)
    (hs : s.toSnapshot = (start.registry r).picture m)
    (hlive : (start.thread n).storage.isLive = true) :
    ∃ relay' q, (Move.pass n).make H r relay p = (.returned relay', q) ∧
      relay'.Upholds s start q ∧
      ∀ n', (relay'.opened n').length = Move.depth n' (relay.opened n').length (.pass n) := by
  have hp : (p.entered n).current.storage.isLive = true := (h.live n).trans hlive
  obtain ⟨i, q, hinstall, hinstalled⟩ :=
    Snapshot.install_of_unfailing (H := H) s.isCell (s.unfailing hp)
  have hlocal := Snapshot.install_local s.slots hinstall
  have hregistry : q.registry r = start.registry r := by
    rw [Process.registry, hlocal.registries]
    exact congrArg (·.getD r .empty) h.registries
  obtain ⟨q', hcapture, hstill⟩ :=
    Snapshot.capture_of_slots (H := H) (hregistry ▸ hslots) (Settings.not_goesBy_none {})
  rw [hregistry, SlotSnapshot.slot?_of_installed hinstalled,
    Registry.picture_overlay hs] at hcapture
  have hpiled := ((h.piled n).push hp hinstall).of_current hstill.here hstill.current
  have hkept := h.upholds_reopened (hlocal.trans hstill.local)
    (hstill.current ▸ hinstalled.frame.live) hpiled p.here
  refine ⟨_, _, ?_, hkept, fun n' => ?_⟩
  · have htake : relay.take H r n (p.entered n) =
        (.returned { relay.reopened n (i :: relay.opened n) with inHand := s.toSnapshot }, q') := by
      rw [Relay.take, h.inHand, Action.bind_of_returned hinstall]
      exact Action.bind_of_returned hcapture _
    rw [← h.inHand] at htake
    rw [Move.make, Action.onThread_apply, htake]
    rfl
  · rw [opened_reopened, Move.depth]
    split
    · next hn => rw [hn]; rfl
    · rfl

/-- An ending of the latest window of a thread, if there is one. -/
theorem returned_of_back (h : relay.Upholds s start p) (way : Ending.Way) :
    ∃ relay' q, (Move.back n way).make H r relay p = (.returned relay', q) ∧
      relay'.Upholds s start q ∧
      ∀ n', (relay'.opened n').length = Move.depth n' (relay.opened n').length (.back n way) := by
  have hpiled := h.piled n
  cases hl : relay.opened n with
  | nil =>
    refine ⟨relay, p, ?_, h, fun n' => ?_⟩
    · rw [Move.make, hl]
      rfl
    · rw [Move.depth]
      split
      · next hn => rw [hn, hl]; rfl
      · rfl
  | cons i rest =>
    rw [hl] at hpiled
    obtain ⟨q, hrun, hrest, hlocal, hlive⟩ := hpiled.pop (H := H) way
    refine ⟨_, _, ?_, h.upholds_reopened hlocal hlive hrest p.here, fun n' => ?_⟩
    · rw [Move.make, hl]
      have hback : Action.onThread n (way.run H i) p = (.returned (), q.reentered p.here) := by
        rw [Action.onThread_apply, hrun]
      exact Action.bind_of_returned hback _
    · rw [opened_reopened, Move.depth]
      split
      · next hn => rw [hn, hl]; rfl
      · rfl

/-- Each move keeps up what the relay keeps up. -/
theorem returned_of_make (h : relay.Upholds s start p) {m : Slots} (hslots : (start.registry r).OfSlots)
    (hs : s.toSnapshot = (start.registry r).picture m) (move : Move)
    (hlive : ∀ n, move = .pass n → (start.thread n).storage.isLive = true) :
    ∃ relay' q, move.make H r relay p = (.returned relay', q) ∧ relay'.Upholds s start q ∧
      ∀ n, (relay'.opened n).length = Move.depth n (relay.opened n).length move := by
  cases move with
  | pass n => exact h.returned_of_pass hslots hs (hlive n rfl)
  | back n way => exact h.returned_of_back way

/-- And so do all moves one after another. -/
theorem returned_of_run {moves : List Move} {m : Slots} (hslots : (start.registry r).OfSlots)
    (hs : s.toSnapshot = (start.registry r).picture m) (h : relay.Upholds s start p)
    (hlive : ∀ n, Move.pass n ∈ moves → (start.thread n).storage.isLive = true) :
    ∃ relay' q, Relay.run H r moves relay p = (.returned relay', q) ∧ relay'.Upholds s start q ∧
      ∀ n, (relay'.opened n).length = Move.leave n moves (relay.opened n).length := by
  induction moves generalizing relay p with
  | nil => exact ⟨relay, p, rfl, h, fun _ => rfl⟩
  | cons move rest ih =>
    obtain ⟨relay₁, p₁, hmake, h₁, hdepth⟩ := h.returned_of_make hslots hs move
      fun n hn => hlive n (hn ▸ List.mem_cons_self)
    obtain ⟨relay₂, p₂, hrun, h₂, hleave⟩ := ih h₁
      fun n hn => hlive n (List.mem_cons_of_mem _ hn)
    refine ⟨relay₂, p₂, (Action.bind_of_returned hmake _).trans hrun, h₂, fun n => ?_⟩
    rw [hleave n, hdepth n]
    rfl

end Upholds

/-- Before any move a relay upholds what is in hand. -/
theorem upholds_start {s : SlotSnapshot} {start p : Process η ν}
    (ht : p.threads = start.threads) (hr : p.registries = start.registries) :
    Upholds s start { inHand := s.toSnapshot } p := by
  have hthread : ∀ n, p.thread n = start.thread n := fun n => by
    rw [Process.thread, Process.thread, ht]
  refine ⟨rfl, hr, fun n => by rw [hthread n], fun n => ⟨?_, fun o ho => ?_, List.nodup_nil⟩⟩
  · funext k
    exact congrArg (·.storage.get? k) (hthread n)
  · exact absurd ho List.not_mem_nil

/-- Context survives any chain of hand-overs. A thread is captured of a registry of slots, and what
was captured goes from thread to thread, each of which has slots, whatever is in them; windows may
end in turn, as in `Move.inTurn`, or later. In the end the first capture is in hand again, and a
thread on which no window of the relay is left has its slots as they were. -/
theorem context_survives {H : Host η ν} {r : RegistryId} {start : Process η ν}
    (hslots : (start.registry r).OfSlots) (first : ThreadName) (moves : List Move)
    (hlive : ∀ n, Move.pass n ∈ moves → (start.thread n).storage.isLive = true) :
    ∃ s p relay q,
      Action.onThread first (Snapshot.capture H r none {}) start = (.returned s, p) ∧
      s = (start.registry r).picture (start.slotsOn first) ∧
      Relay.run H r moves { inHand := s } p = (.returned relay, q) ∧
      relay.inHand = s ∧
      ∀ n, Move.leave n moves 0 = 0 → q.slotsOn n = start.slotsOn n := by
  obtain ⟨s, hs⟩ := Snapshot.exists_picture (start.registry r) (start.slotsOn first)
  obtain ⟨p, hcapture, hstill⟩ := Snapshot.capture_of_slots (H := H) (p := start.entered first)
    hslots (Settings.not_goesBy_none {})
  have hfirst : Action.onThread first (Snapshot.capture H r none {}) start =
      (.returned s.toSnapshot, p.reentered start.here) := by
    rw [Action.onThread_apply, hcapture, hs]
    rfl
  have hstart : Upholds s start { inHand := s.toSnapshot } (p.reentered start.here) :=
    upholds_start hstill.threads hstill.registries
  obtain ⟨relay, q, hrun, hupheld, hleave⟩ := Upholds.returned_of_run (H := H) hslots hs hstart hlive
  refine ⟨s.toSnapshot, _, relay, q, hfirst, hs, hrun, hupheld.inHand, fun n hn => ?_⟩
  have hnone : relay.opened n = [] := List.eq_nil_of_length_eq_zero ((hleave n).trans hn)
  have hpiled := hupheld.piled n
  rw [hnone] at hpiled
  exact hpiled.slots

/-- Two threads, on each of which another slot holds something. -/
def crew : Process (Table Value) Unit where
  here := "main"
  threads := (Table.empty.insert "main"
      { storage := .live (.ofList [("a", ⟨.numbered 1, .unit⟩)]) }).insert "worker"
    { storage := .live (.ofList [("b", ⟨.numbered 2, .unit⟩)]) }
  registries := [(Registry.empty.register (.slot "a")).register (.slot "b")]
  host := .empty

/-- The absence of `b` travels to the worker and back, over windows that are open at the same time,
and the worker has its own `b` again when they have ended. -/
theorem context_survives_crew :
    ∃ s p relay q,
      Action.onThread "main" (Snapshot.capture bare processWide none {}) crew = (.returned s, p) ∧
      Relay.run bare processWide ([.pass "worker", .pass "main", .pass "worker",
        .back "worker" .closed, .back "main" .dropped, .back "worker" .closed] ++
          Move.inTurn ["worker", "main"]) { inHand := s } p = (.returned relay, q) ∧
      relay.inHand = ⟨[⟨.slot "a", some ⟨.numbered 1, .unit⟩⟩, ⟨.slot "b", none⟩]⟩ ∧
      q.slotsOn "worker" "b" = some ⟨.numbered 2, .unit⟩ := by
  have hlive : ∀ n, (crew.thread n).storage.isLive = true := by
    intro n
    simp only [Process.thread, crew, Table.get?_insert, Table.get?_empty]
    split
    · rfl
    · split <;> rfl
  have hslots : (crew.registry processWide).OfSlots := by decide
  obtain ⟨s, p, relay, q, hfirst, hs, hrun, hinHand, hback⟩ :=
    context_survives (H := bare) hslots "main" _ fun n _ => hlive n
  refine ⟨s, p, relay, q, hfirst, hrun, hinHand.trans hs, ?_⟩
  exact congrFun (hback "worker" rfl) "b"

end Relay

end Ambient
