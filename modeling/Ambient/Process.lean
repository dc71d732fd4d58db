import Ambient.History

/-! The state of a process. Each thread has its slots, its stack of scoped registries
and the list of the windows opened on it; registries, the history and what the
embedding program keeps belong to all threads. One thread runs at a time. -/

namespace Ambient

/-! ### Threads -/

inductive Storage where
  | live (slots : Table Value)
  /-- The thread is past the end of its storage. -/
  | destroyed

/-- Where a window is in its life. -/
inductive WindowStatus where
  /-- The snapshot is installed. -/
  | standing
  /-- What it displaced is being put back. -/
  | closing
  /-- It is over, and holds nothing any more. -/
  | ended
  deriving DecidableEq, Repr

/-- A snapshot installed on a thread, with what it displaced. -/
structure Window where
  snapshot : Snapshot
  /-- What was there before, in the order of installation. -/
  priors : List Entry
  status : WindowStatus := .standing

/-- The number of a registry; number 0 is the one of the whole process. -/
abbrev RegistryId := Nat

def processWide : RegistryId := 0

structure Thread where
  storage : Storage := .live .empty
  /-- The scoped registries, the innermost first. -/
  registries : List RegistryId := []
  /-- All windows ever opened here, in the order of opening. -/
  windows : List Window := []

namespace Storage

/-- What a slot holds; storage that is gone holds nothing. -/
def get? (k : Key) : Storage → Option Value
  | live slots => slots.get? k
  | destroyed => none

/-- Storage with another content of the slot `k`, if it has slots. -/
def assign (k : Key) (content : Option Value) : Storage → Storage
  | live slots => live (slots.assign k content)
  | destroyed => destroyed

/-- Whether a slot keeps the value of identity `i` alive. -/
def holds (i : Identity) : Storage → Bool
  | live slots => slots.values.any (Value.mentions i)
  | destroyed => false

end Storage

namespace Window

def holds (i : Identity) (win : Window) : Bool :=
  win.status != .ended &&
    (win.snapshot.entries.any (Entry.mentions i) || win.priors.any (Entry.mentions i))

/-- The value that was there for a key before, as `Snapshot.get?` tells it. -/
def prior? (win : Window) (k : Key) : Option (Option Value) := Entry.lookUp k win.priors

end Window

namespace Thread

def holds (i : Identity) (t : Thread) : Bool :=
  t.storage.holds i || t.windows.any (Window.holds i)

end Thread

/-! ### Processes -/

/-- The state of a process. `η` is what the embedding program keeps, `ν` what it notes. -/
structure Process (η ν : Type) where
  here : ThreadName
  /-- The threads that wait for it, the latest first. -/
  waiting : List ThreadName := []
  threads : Table Thread := .empty
  registries : List Registry := [.empty]
  /-- What has happened, the latest first. -/
  history : List (Event ν) := []
  /-- Values that operations under way hold. -/
  pinned : List Value := []
  /-- Values whose own code runs when nobody holds them any more. -/
  watchers : List Value := []
  host : η

namespace Process

variable {η ν : Type}

/-- A thread; one that was not started is as a fresh one. -/
def thread (p : Process η ν) (n : ThreadName) : Thread := (p.threads.get? n).getD {}

def current (p : Process η ν) : Thread := p.thread p.here

def setCurrent (p : Process η ν) (t : Thread) : Process η ν :=
  { p with threads := p.threads.insert p.here t }

def modifyCurrent (p : Process η ν) (f : Thread → Thread) : Process η ν :=
  p.setCurrent (f p.current)

def slot? (p : Process η ν) (k : Key) : Option Value := p.current.storage.get? k

/-- The process with another content of the slot `k` of the running thread, if this one has slots. -/
def put (k : Key) (content : Option Value) (p : Process η ν) : Process η ν :=
  p.modifyCurrent fun t => { t with storage := t.storage.assign k content }

def registry (p : Process η ν) (r : RegistryId) : Registry := p.registries.getD r .empty

/-- The registry in force on the running thread: the innermost scoped one, or that of
the process. -/
def currentRegistry (p : Process η ν) : RegistryId := p.current.registries.headD processWide

/-- Whether a thread runs or waits for one that does. -/
def isBusy (p : Process η ν) (n : ThreadName) : Bool := n = p.here || p.waiting.contains n

def record (p : Process η ν) (e : Event ν) : Process η ν :=
  { p with history := e :: p.history }

@[simp] theorem thread_setCurrent_here (p : Process η ν) (t : Thread) :
    (p.setCurrent t).thread p.here = t := by simp [thread, setCurrent]

theorem thread_setCurrent_of_ne (p : Process η ν) (t : Thread) {n : ThreadName} (h : p.here ≠ n) :
    (p.setCurrent t).thread n = p.thread n := by
  simp [thread, setCurrent, Table.get?_insert, h]

@[simp] theorem current_setCurrent (p : Process η ν) (t : Thread) : (p.setCurrent t).current = t :=
  thread_setCurrent_here p t

@[simp] theorem setCurrent_setCurrent (p : Process η ν) (t u : Thread) :
    (p.setCurrent t).setCurrent u = p.setCurrent u := by
  simp only [setCurrent]
  congr 1
  ext k
  simp only [Table.get?_insert]
  split <;> rfl

theorem thread_modifyCurrent (p : Process η ν) (f : Thread → Thread) (n : ThreadName) :
    (p.modifyCurrent f).thread n = if n = p.here then f p.current else p.thread n := by
  by_cases h : n = p.here
  · rw [if_pos h, h, modifyCurrent, thread_setCurrent_here]
  · rw [if_neg h, modifyCurrent, thread_setCurrent_of_ne p _ (Ne.symm h)]

theorem modifyCurrent_modifyCurrent (f g : Thread → Thread) (p : Process η ν) :
    (p.modifyCurrent f).modifyCurrent g = p.modifyCurrent fun t => g (f t) := by
  unfold modifyCurrent
  rw [setCurrent_setCurrent, current_setCurrent]

@[simp] theorem current_record (p : Process η ν) (e : Event ν) : (p.record e).current = p.current :=
  rfl

end Process

end Ambient
