import Ambient.Bridge

/-! The operations of the library as data, and what they do. Programs, and whatever is said of all
operations at once, go by these. -/

namespace Ambient

variable {η ν α : Type}

/-- An operation of the library, on the running thread. -/
inductive Operation : Type → Type
  | readSlot (k : Key) : Operation (Option Value)
  | writeSlot (k : Key) (content : Option Value) : Operation (Except Failure Unit)
  | destroySlots : Operation Unit
  | read (a : Accessor) : Operation (Option Value)
  | write (a : Accessor) (content : Option Value) : Operation (Except Failure Unit)
  | install (s : Snapshot) : Operation (Except Failure Nat)
  | resume (b : Bridge) (site : CallSite) : Operation (Except Failure Nat)
  | close (i : Nat) : Operation (Except Failure Unit)
  | drop (i : Nat) : Operation Unit
  | suspend (site : CallSite) (i : Nat) : Operation (Except Failure Unit)
  | createRegistry : Operation RegistryId
  | register (r : RegistryId) (a : Accessor) : Operation Unit
  | unregister (r : RegistryId) (k : Key) : Operation Bool
  | readKey (r : RegistryId) (k : Key) : Operation (Option Value)
  | writeKey (r : RegistryId) (k : Key) (content : Option Value) : Operation (Except Failure Unit)
  | capture (r : RegistryId) (carrier : Option Carrier) (settings : Settings) : Operation Snapshot

namespace Operation

/-- Carries an operation out, whatever is being restored on the running thread. -/
def perform (H : Host η ν) : Operation α → Action η ν α
  | readSlot k => Slot.read k
  | writeSlot k content => Slot.write H k content
  | destroySlots => Slot.destroyAll H
  | read a => a.read H
  | write a content => a.write H content
  | install s => s.install H
  | resume b site => b.resume H site
  | close i => Window.close H i
  | drop i => Window.drop H i
  | suspend site i => Bridge.suspend H site i
  | createRegistry => Registry.create
  | register r a => Registry.add r a
  | unregister r k => Registry.remove r k
  | readKey r k => Registry.read H r k
  | writeKey r k content => Registry.write H r k content
  | capture r carrier settings => Snapshot.capture H r carrier settings

/-- Whether an operation makes, asks or changes a registry. -/
def asksRegistry : Operation α → Bool
  | createRegistry => true
  | register _ _ => true
  | unregister _ _ => true
  | readKey _ _ => true
  | writeKey _ _ _ => true
  | capture _ _ _ => true
  | _ => false

/-- The window that an operation ends, if it ends one. -/
def ends? : Operation α → Option Nat
  | close i => some i
  | drop i => some i
  | suspend _ i => some i
  | _ => none

end Operation

/-- Does something with a window, unless it is in the hands of its restoration. -/
def Window.unlessClosing (i : Nat) (m : Action η ν α) : Action η ν α := do
  match ← look i with
  | some win => if win.status = .closing then Action.panic "window is being restored" else m
  | none => m

/-- Carries an operation out as programs may call it: whoever ends a window gives it up, and so none
can be ended while it is being restored. -/
def Operation.run (H : Host η ν) (op : Operation α) : Action η ν α :=
  match op.ends? with
  | some i => Window.unlessClosing i (op.perform H)
  | none => op.perform H

end Ambient
