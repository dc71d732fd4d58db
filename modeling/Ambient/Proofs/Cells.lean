import Mathlib.Logic.Function.Basic
import Ambient.Window

/-! Cells. An accessor is a cell where reading it answers what the cell holds and writing
it changes no other cell. Slots are cells, and so are the places of an embedding program
to which the functions of its custom accessors give access; any number of accessors may
share one. A write that fails or panics may have changed its cell or not. Proved: what
reading and writing such accessors does to a process, and that cells written one after
another hold again what they held before when what was displaced is put back in reverse,
whatever was written in between. Windows are left to other modules. -/

namespace Ambient

variable {η ν κ : Type}

/-! ### What runs of accessor functions leave alone -/

/-- The call that an event tells of. -/
def Event.call? : Event ν → Option Call
  | .called call => some call
  | _ => none

/-- Whether a thread has slots. -/
def Storage.isLive : Storage → Bool
  | live _ => true
  | destroyed => false

namespace Process

/-- The calls made of accessors, first to last. -/
def calls (p : Process η ν) : List Call := p.history.reverse.filterMap Event.call?

/-- The same thread runs in `q` as in `p`, it has slots as before, and the windows that it
had are as they were. -/
structure Frame (p q : Process η ν) : Prop where
  here : q.here = p.here
  live : q.current.storage.isLive = p.current.storage.isLive
  windows : p.current.windows <+: q.current.windows

theorem Frame.refl (p : Process η ν) : p.Frame p := ⟨rfl, rfl, List.prefix_rfl⟩

theorem Frame.trans {p q r : Process η ν} (h : p.Frame q) (k : q.Frame r) : p.Frame r :=
  ⟨k.here.trans h.here, k.live.trans h.live, h.windows.trans k.windows⟩

/-- Nothing that a frame speaks of hangs on more than the threads and which one runs. -/
theorem frame_of_eq {p q : Process η ν} (hh : q.here = p.here) (ht : q.threads = p.threads) :
    p.Frame q := by
  have hc : q.current = p.current := by rw [current, current, thread, thread, hh, ht]
  exact ⟨hh, by rw [hc], by simp [hc]⟩

theorem frame_record (p : Process η ν) (e : Event ν) : p.Frame (p.record e) := frame_of_eq rfl rfl

theorem frame_sweep (H : Host η ν) (p : Process η ν) : p.Frame (p.sweep H) := frame_of_eq rfl rfl

theorem frame_hold (p : Process η ν) (values : List Value) : p.Frame (p.hold values) :=
  frame_of_eq rfl rfl

theorem frame_unhold (p : Process η ν) (n : Nat) : p.Frame (p.unhold n) := frame_of_eq rfl rfl

theorem Frame.window {p q : Process η ν} (h : p.Frame q) {i : Nat} {win : Window}
    (hw : p.current.windows[i]? = some win) : q.current.windows[i]? = some win := by
  obtain ⟨later, hl⟩ := h.windows
  have hi : i < p.current.windows.length := by
    by_contra hn
    rw [List.getElem?_eq_none (by omega)] at hw
    exact absurd hw (by simp)
  rw [← hl, List.getElem?_append_left hi, hw]

@[simp] theorem calls_record (p : Process η ν) (e : Event ν) :
    (p.record e).calls = p.calls ++ e.call?.toList := by
  rw [calls, calls, record, List.reverse_cons, List.filterMap_append]
  cases h : e.call? <;> simp [h]

@[simp] theorem calls_hold (p : Process η ν) (values : List Value) :
    (p.hold values).calls = p.calls := rfl

@[simp] theorem calls_unhold (p : Process η ν) (n : Nat) : (p.unhold n).calls = p.calls := rfl

@[simp] theorem calls_modifyCurrent (p : Process η ν) (f : Thread → Thread) :
    (p.modifyCurrent f).calls = p.calls := rfl

/-- Releasing values is no call of an accessor. -/
@[simp] theorem calls_sweep (H : Host η ν) (p : Process η ν) : (p.sweep H).calls = p.calls := by
  have hnone : ∀ gone : List Value, (gone.map p.releaseEvent).filterMap Event.call? = [] := by
    intro gone
    induction gone with
    | nil => rfl
    | cons v rest ih => simp [releaseEvent, Event.call?]
  simp only [calls, sweep, List.reverse_append, List.reverse_reverse, List.filterMap_append, hnone,
    List.append_nil]

end Process

/-! ### Cells and accessors -/

/-- What an accessor gives access to. -/
inductive Cell (κ : Type) where
  /-- The slot of the key on the running thread. -/
  | slot (k : Key)
  /-- A cell that the embedding program keeps. -/
  | own (c : κ)
  deriving DecidableEq, Repr

/-- What all cells hold. -/
abbrev Contents (κ : Type) := Cell κ → Option Value

/-- The cells of an embedding program. -/
structure Cells (η κ : Type) where
  /-- What a cell holds on a thread. -/
  look : ThreadName → η → κ → Option Value
  /-- The cell that the functions of a number give access to. -/
  address : Nat → Cell κ

/-- The cell of an accessor. -/
def Accessor.cell (V : Cells η κ) : Accessor → Cell κ
  | slot k => .slot k
  | custom _ ref => V.address ref

/-- The cell of an entry. -/
def Entry.cell (V : Cells η κ) (e : Entry) : Cell κ := e.accessor.cell V

/-- What the cells hold on the running thread. -/
def Process.contents (V : Cells η κ) (p : Process η ν) : Contents κ
  | .slot k => p.slot? k
  | .own c => V.look p.here p.host c

/-- What a write of `content` to the cell `c` comes to: accessors were called as `made` says,
other cells hold what they held, and the cell holds `content` if the write succeeded. -/
structure Written (V : Cells η κ) (c : Cell κ) (content : Option Value) (made : List Call)
    (p : Process η ν) (r : Exit (Except Failure Unit) × Process η ν) : Prop where
  frame : p.Frame r.2
  calls : r.2.calls = p.calls ++ made
  elsewhere : ∀ d, d ≠ c → r.2.contents V d = p.contents V d
  there : r.1 = .returned (.ok ()) → r.2.contents V c = content

/-- Functions that give access to the cell `c`. Besides that they do what they like with the
rest of the embedding program's state. -/
structure Behaviour.Addresses (V : Cells η κ) (c : Cell κ) (b : Behaviour η ν) : Prop where
  read : ∀ p, ∃ q, b.read p = (.returned (p.contents V c), q) ∧
    p.Frame q ∧ q.calls = p.calls ∧ q.contents V = p.contents V
  write : ∀ v p, Written V c (some v) [] p (b.write v p)
  clear : ∀ p, Written V c none [] p (b.clear p)

/-- What a read of the cell `c` comes to where reads may panic: accessors were called as `made`
says, an answer is what the cell holds, and nothing has changed then. After a panic the cell
may hold something else, but no other may. -/
structure Looked (V : Cells η κ) (c : Cell κ) (made : List Call) (p : Process η ν)
    (r : Exit (Option Value) × Process η ν) : Prop where
  frame : p.Frame r.2
  calls : r.2.calls = p.calls ++ made
  elsewhere : ∀ d, d ≠ c → r.2.contents V d = p.contents V d
  answer : ∀ content, r.1 = .returned content →
    content = p.contents V c ∧ r.2.contents V = p.contents V

/-- Functions that give access to the cell `c`, any of which may panic. -/
structure Behaviour.Brittle (V : Cells η κ) (c : Cell κ) (b : Behaviour η ν) : Prop where
  read : ∀ p, Looked V c [] p (b.read p)
  write : ∀ v p, Written V c (some v) [] p (b.write v p)
  clear : ∀ p, Written V c none [] p (b.clear p)

variable (H : Host η ν) (V : Cells η κ)

/-- The accessor is a cell; a slot always is. -/
def Accessor.IsCell : Accessor → Prop
  | slot _ => True
  | custom _ ref => (H.behaviour ref).Addresses V (V.address ref)

/-- The accessor is a cell whose reads may panic, as its writes may in any case. -/
def Accessor.IsBrittleCell : Accessor → Prop
  | slot _ => True
  | custom _ ref => (H.behaviour ref).Brittle V (V.address ref)

namespace Entry

/-- The call that reads what the entry's accessor gives access to. -/
def reading (e : Entry) : Call := { accessor := e.accessor, request := .read }

/-- The call that writes the entry, for the restoration of a window if one is told. -/
def writing (restoring : Option WindowRef) (e : Entry) : Call :=
  { accessor := e.accessor, request := .write e.value, restoring }

end Entry

theorem Process.contents_of_eq {p q : Process η ν} (hh : q.here = p.here) (hg : q.host = p.host)
    (hs : q.current.storage = p.current.storage) : q.contents V = p.contents V := by
  funext c
  cases c with
  | slot k => rw [contents, contents, slot?, slot?, hs]
  | own c => rw [contents, contents, hh, hg]

@[simp] theorem Process.contents_record (p : Process η ν) (e : Event ν) :
    (p.record e).contents V = p.contents V := contents_of_eq V rfl rfl rfl

theorem Process.slot?_record (p : Process η ν) (e : Event ν) : (p.record e).slot? = p.slot? := rfl

@[simp] theorem Process.contents_sweep (p : Process η ν) :
    (p.sweep H).contents V = p.contents V := contents_of_eq V rfl rfl rfl

@[simp] theorem Process.contents_hold (p : Process η ν) (values : List Value) :
    (p.hold values).contents V = p.contents V := contents_of_eq V rfl rfl rfl

@[simp] theorem Process.contents_unhold (p : Process η ν) (n : Nat) :
    (p.unhold n).contents V = p.contents V := contents_of_eq V rfl rfl rfl

/-! ### What a read and a write come to -/

variable {V}

theorem Written.of_record {c : Cell κ} {content : Option Value} {call : Call} {p : Process η ν}
    {r : Exit (Except Failure Unit) × Process η ν}
    (h : Written V c content [] (p.record (.called call)) r) : Written V c content [call] p r := by
  refine ⟨(p.frame_record _).trans h.frame, ?_, ?_, h.there⟩
  · rw [h.calls, Process.calls_record, List.append_nil]
    rfl
  · intro d hd
    rw [h.elsewhere d hd, Process.contents_record]

theorem Looked.of_record {c : Cell κ} {call : Call} {p : Process η ν}
    {r : Exit (Option Value) × Process η ν} (h : Looked V c [] (p.record (.called call)) r) :
    Looked V c [call] p r := by
  refine ⟨(p.frame_record _).trans h.frame, ?_, ?_, ?_⟩
  · rw [h.calls, Process.calls_record, List.append_nil]
    rfl
  · intro d hd
    rw [h.elsewhere d hd, Process.contents_record]
  · intro content hr
    rw [← Process.contents_record V p (.called call)]
    exact h.answer content hr

theorem Written.sweep {c : Cell κ} {content : Option Value} {made : List Call} {p : Process η ν}
    {r : Exit (Except Failure Unit) × Process η ν} (h : Written V c content made p r) :
    Written V c content made p (r.1, r.2.sweep H) := by
  refine ⟨h.frame.trans (r.2.frame_sweep H), ?_, ?_, ?_⟩
  · rw [Process.calls_sweep, h.calls]
  · intro d hd
    rw [Process.contents_sweep, h.elsewhere d hd]
  · intro hr
    rw [Process.contents_sweep, h.there hr]

theorem Slot.written (k : Key) (content : Option Value) (p : Process η ν) :
    Written V (.slot k) content [] p (Slot.write H k content p) := by
  cases hs : p.current.storage with
  | destroyed =>
    rw [Slot.write_destroyed H hs]
    exact ⟨.refl p, (List.append_nil _).symm, fun _ _ => rfl, fun h => by simp at h⟩
  | live slots =>
    have hslot := fun j => Slot.slot?_write H hs k j content
    rw [Slot.write_live H hs] at hslot ⊢
    refine ⟨⟨rfl, ?_, ?_⟩, ?_, ?_, fun _ => ?_⟩
    · simp [Process.modifyCurrent, hs, Storage.isLive]
    · simp [Process.modifyCurrent]
    · simp
    · rintro (j | c) hd
      · have hj : k ≠ j := fun e => hd (e ▸ rfl)
        simpa [Process.contents, hj] using hslot j
      · rfl
    · simpa [Process.contents] using hslot k

namespace Accessor

/-- Reading a cell answers what it holds and changes no cell. -/
theorem read_isCell {a : Accessor} (ha : a.IsCell H V) (p : Process η ν) :
    ∃ q, a.read H p = (.returned (p.contents V (a.cell V)), q) ∧ p.Frame q ∧
      q.calls = p.calls ++ [{ accessor := a, request := .read }] ∧
      q.contents V = p.contents V := by
  cases a with
  | slot k =>
    exact ⟨_, read_slot H k p, p.frame_record _, by simp [Event.call?], by simp⟩
  | custom k ref =>
    obtain ⟨q, hq, hf, hc, hv⟩ :=
      ha.read (p.record (.called { accessor := custom k ref, request := .read }))
    refine ⟨q, ?_, (p.frame_record _).trans hf, ?_, ?_⟩
    · exact hq.trans (by simp [cell])
    · simpa [Event.call?] using hc
    · simpa using hv

variable {H} in
/-- Reads that always answer are reads that may panic and do not. -/
theorem IsCell.brittle {a : Accessor} (ha : a.IsCell H V) : a.IsBrittleCell H V := by
  cases a with
  | slot k => trivial
  | custom k ref =>
    refine ⟨fun p => ?_, ha.write, ha.clear⟩
    obtain ⟨q, hq, hf, hc, hv⟩ := ha.read p
    rw [hq]
    refine ⟨hf, by rw [hc, List.append_nil], fun d _ => by rw [hv], fun content hr => ?_⟩
    exact ⟨(Exit.returned.inj hr).symm, hv⟩

/-- Reading a cell that may panic changes no other, and answers what it holds if it answers. -/
theorem read_isBrittleCell {a : Accessor} (ha : a.IsBrittleCell H V) (p : Process η ν) :
    Looked V (a.cell V) [{ accessor := a, request := .read }] p (a.read H p) := by
  cases a with
  | slot k =>
    obtain ⟨q, hq, hf, hc, hv⟩ := read_isCell H (V := V) (a := slot k) trivial p
    rw [hq]
    refine ⟨hf, hc, fun d _ => by rw [hv], fun content hr => ?_⟩
    exact ⟨(Exit.returned.inj hr).symm, hv⟩
  | custom k ref => exact (ha.read _).of_record

/-- Writing a cell changes no other, and it holds what was written unless the write failed. -/
theorem write_isBrittleCell {a : Accessor} (ha : a.IsBrittleCell H V) (content : Option Value)
    (restoring : Option WindowRef) (p : Process η ν) :
    Written V (a.cell V) content [{ accessor := a, request := .write content, restoring }] p
      (a.write H content restoring p) := by
  cases a with
  | slot k => exact (Slot.written H k content _).of_record
  | custom k ref =>
    cases content with
    | none => exact ((ha.clear _).sweep H).of_record
    | some v => exact ((ha.write v _).sweep H).of_record

theorem write_isCell {a : Accessor} (ha : a.IsCell H V) (content : Option Value)
    (restoring : Option WindowRef) (p : Process η ν) :
    Written V (a.cell V) content [{ accessor := a, request := .write content, restoring }] p
      (a.write H content restoring p) :=
  write_isBrittleCell H ha.brittle content restoring p

end Accessor

/-! ### Writing entries and putting back what they displace -/

namespace Entry

variable [DecidableEq κ] (V)

/-- What the cells hold after the entries were written, first to last. -/
def writeAll (l : List Entry) (m : Contents κ) : Contents κ :=
  l.foldl (fun m e => Function.update m (e.cell V) e.value) m

/-- What the entries displace when they are written, first to last: for each of them what
its cell holds when its turn comes. -/
def displaced : List Entry → Contents κ → List Entry
  | [], _ => []
  | e :: rest, m =>
    ⟨e.accessor, m (e.cell V)⟩ :: displaced rest (Function.update m (e.cell V) e.value)

@[simp] theorem writeAll_nil (m : Contents κ) : writeAll V [] m = m := rfl

@[simp] theorem writeAll_cons (e : Entry) (l : List Entry) (m : Contents κ) :
    writeAll V (e :: l) m = writeAll V l (Function.update m (e.cell V) e.value) := rfl

theorem writeAll_append (l r : List Entry) (m : Contents κ) :
    writeAll V (l ++ r) m = writeAll V r (writeAll V l m) := List.foldl_append

theorem writeAll_of_not_mem {l : List Entry} {c : Cell κ} (h : c ∉ l.map (cell V))
    (m : Contents κ) : writeAll V l m c = m c := by
  induction l generalizing m with
  | nil => rfl
  | cons e rest ih =>
    simp only [List.map_cons, List.mem_cons, not_or] at h
    rw [writeAll_cons, ih h.2, Function.update_of_ne h.1]

theorem writeAll_of_mem {l : List Entry} (hl : (l.map (cell V)).Nodup) {e : Entry} (he : e ∈ l)
    (m : Contents κ) : writeAll V l m (e.cell V) = e.value := by
  induction l generalizing m with
  | nil => exact absurd he List.not_mem_nil
  | cons d rest ih =>
    obtain ⟨hd, hrest⟩ := List.nodup_cons.1 (List.map_cons ▸ hl)
    rcases List.mem_cons.1 he with rfl | he
    · rw [writeAll_cons, writeAll_of_not_mem V hd, Function.update_self]
    · exact ih hrest he _

theorem accessor_displaced (l : List Entry) (m : Contents κ) :
    (displaced V l m).map accessor = l.map accessor := by
  induction l generalizing m with
  | nil => rfl
  | cons e rest ih => rw [displaced, List.map_cons, ih, List.map_cons]

theorem forall_displaced {P : Accessor → Prop} {l : List Entry} {m : Contents κ} :
    (∀ e ∈ displaced V l m, P e.accessor) ↔ ∀ e ∈ l, P e.accessor := by
  rw [← List.forall_mem_map (f := accessor) (P := P), accessor_displaced, List.forall_mem_map]

/-- Put back in reverse, what entries displaced is again in every cell of theirs, whatever
was written meanwhile and however many of them share a cell; other cells keep what they hold. -/
theorem writeAll_reverse_displaced (l : List Entry) (m n : Contents κ) (c : Cell κ) :
    writeAll V (displaced V l m).reverse n c = if c ∈ l.map (cell V) then m c else n c := by
  induction l generalizing m with
  | nil => rfl
  | cons e rest ih =>
    rw [displaced, List.reverse_cons, writeAll_append, writeAll_cons, writeAll_nil]
    change Function.update (writeAll V _ n : Contents κ) (e.cell V) (m (e.cell V)) c = _
    -- the entry written first is put back last, over whatever later entries of its cell left
    by_cases hc : c = e.cell V
    · subst hc
      rw [Function.update_self, if_pos (by simp)]
    · rw [Function.update_of_ne hc, ih, Function.update_of_ne hc]
      simp [hc]

/-- Put back at once, what entries displaced leaves no trace of them. -/
theorem writeAll_reverse_displaced_writeAll (l : List Entry) (m : Contents κ) :
    writeAll V (displaced V l m).reverse (writeAll V l m) = m := by
  funext c
  rw [writeAll_reverse_displaced]
  split
  · rfl
  · next hc => exact writeAll_of_not_mem V hc m

end Entry

/-! ### Racks -/

/-- An embedding program that keeps named cells. The functions of a number give access to the
cell that `place` tells, and what is asked of it is done before the answer is looked up. -/
def rack (place : Nat → Key) (answer : Nat → Option Value → Exit (Except Failure Unit)) :
    Host (Table Value) ν where
  behaviour ref :=
    let put (content : Option Value) : Action (Table Value) ν (Except Failure Unit) := do
      Action.change fun p => { p with host := p.host.assign (place ref) content }
      Action.finish (answer ref content)
    { read := Action.inspect fun p => p.host.get? (place ref)
      write := fun v => put (some v)
      clear := put none }
  holds i cells := cells.values.any (Value.mentions i)

/-- The cells of a rack. -/
def rackCells (place : Nat → Key) : Cells (Table Value) Key where
  look _ cells k := cells.get? k
  address ref := .own (place ref)

theorem isCell_rack (place : Nat → Key)
    (answer : Nat → Option Value → Exit (Except Failure Unit)) (a : Accessor) :
    a.IsCell (rack (ν := ν) place answer) (rackCells place) := by
  cases a with
  | slot k => trivial
  | custom k ref =>
    have hput : ∀ content (p : Process (Table Value) ν),
        Written (rackCells place) (.own (place ref)) content [] p
          (answer ref content, { p with host := p.host.assign (place ref) content }) := by
      intro content p
      refine ⟨Process.frame_of_eq rfl rfl, (List.append_nil _).symm, ?_, fun _ => ?_⟩
      · rintro (j | k) hk
        · rfl
        · have hne : place ref ≠ k := fun h => hk (h ▸ rfl)
          simp [Process.contents, rackCells, Table.get?_assign, hne]
      · simp [Process.contents, rackCells, Table.get?_assign]
    exact ⟨fun p => ⟨p, rfl, .refl p, rfl, rfl⟩, fun v => hput (some v), hput none⟩

end Ambient
