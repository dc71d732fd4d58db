import Ambient.Proofs.Lasting

/-! Programs that use the library. A routine puts the library's operations together in whatever
manner, on any threads, and so do the functions behind its accessors, which the library calls back;
they nest to any finite depth. Kinds of routines differ in what they do besides. Proved: a relation
between a state and a later one holds of wherever a routine leads, if what the routine does besides
does not break it, and what the library does cannot. -/

namespace Ambient

variable {η ν α ω : Type}

/-- How routines of a kind use the library. -/
structure Usage (η ν : Type) where
  /-- What they do besides. -/
  own : {α : Type} → Action η ν α → Prop
  /-- The embedding program as the library gets to see it. -/
  seen : Host η ν → Host η ν
  /-- Whether they cannot end a window that is being restored. -/
  careful : Bool

/-- An operation as such routines call it. -/
def Usage.call (U : Usage η ν) (H : Host η ν) (op : Operation α) : Action η ν α :=
  match U.careful with
  | true => op.run (U.seen H)
  | false => op.perform (U.seen H)

/-- Programs that use the library like this. The functions behind their accessors are such programs
too. -/
inductive Routine (U : Usage η ν) : {α : Type} → Action η ν α → Prop
  | own {α : Type} {m : Action η ν α} (h : U.own m) : Routine U m
  | bind {α β : Type} {m : Action η ν α} {f : α → Action η ν β} (hm : Routine U m)
      (hf : ∀ a, Routine U (f a)) : Routine U (m >>= f)
  | attempt {α : Type} {m : Action η ν α} (hm : Routine U m) : Routine U (Action.attempt m)
  | holding {α : Type} {m : Action η ν α} (values : List Value) (hm : Routine U m) :
      Routine U (Action.holding values m)
  | onThread {α : Type} {m : Action η ν α} (n : ThreadName) (hm : Routine U m) :
      Routine U (Action.onThread n m)
  | under {α : Type} {m : Action η ν α} (r : RegistryId) (hm : Routine U m) :
      Routine U (Registry.within r m)
  | operation {α : Type} {H : Host η ν} (hr : ∀ ref, Routine U (H.behaviour ref).read)
      (hw : ∀ ref v, Routine U ((H.behaviour ref).write v))
      (hc : ∀ ref, Routine U (H.behaviour ref).clear) (op : Operation α) : Routine U (U.call H op)
  | within {α : Type} {H : Host η ν} (hr : ∀ ref, Routine U (H.behaviour ref).read)
      (hw : ∀ ref v, Routine U ((H.behaviour ref).write v))
      (hc : ∀ ref, Routine U (H.behaviour ref).clear) (s : Snapshot) {body : Action η ν α}
      (hb : Routine U body) : Routine U (s.within (U.seen H) body)
  | poll {ω : Type} {H : Host η ν} (hr : ∀ ref, Routine U (H.behaviour ref).read)
      (hw : ∀ ref v, Routine U ((H.behaviour ref).write v))
      (hc : ∀ ref, Routine U (H.behaviour ref).clear) (t : Task)
      {inner : Action η ν (Progress ω)} (hb : Routine U inner) :
      Routine U (t.poll (U.seen H) inner).2

/-- The functions behind the accessors are routines of the kind. -/
def Host.Runs (U : Usage η ν) (H : Host η ν) : Prop :=
  ∀ ref, (H.behaviour ref).All (Routine U)

namespace Host.Runs

variable {U : Usage η ν} {H : Host η ν}

theorem operation (hH : H.Runs U) (op : Operation α) : Routine U (U.call H op) :=
  .operation (fun ref => (hH ref).read) (fun ref => (hH ref).write) (fun ref => (hH ref).clear) op

theorem within (hH : H.Runs U) (s : Snapshot) {body : Action η ν α} (hb : Routine U body) :
    Routine U (s.within (U.seen H) body) :=
  .within (fun ref => (hH ref).read) (fun ref => (hH ref).write) (fun ref => (hH ref).clear) s hb

theorem poll (hH : H.Runs U) (t : Task) {inner : Action η ν (Progress ω)} (hb : Routine U inner) :
    Routine U (t.poll (U.seen H) inner).2 :=
  .poll (fun ref => (hH ref).read) (fun ref => (hH ref).write) (fun ref => (hH ref).clear) t hb

end Host.Runs

/-- A relation between a state and a later one that such routines do not break. -/
structure Usage.Preserves (U : Usage η ν) (R : Process η ν → Process η ν → Prop) : Prop where
  own : ∀ {α : Type} {m : Action η ν α}, U.own m → m.Lasts R
  library : ∀ {H : Host η ν}, (∀ ref, (H.behaviour ref).Lasts R) → Enduring (U.seen H) R
  freeing : Freeing R
  aside : ∀ {p q}, p.Aside q → R p q
  task : ∀ p (e : LogEvent), e.ofTask = true → R p (p.record (.logged e))
  trans : ∀ {p q r}, R p q → R q r → R p r
  moved : ∀ {p q n}, R (p.entered n) q → R p (q.reentered p.here)
  stacked : ∀ p (f : List RegistryId → List RegistryId),
    R p (p.modifyCurrent fun t => { t with registries := f t.registries })

/-- The relation holds of wherever a routine leads that ends no window under restoration. -/
theorem Routine.lasts {U : Usage η ν} {R : Process η ν → Process η ν → Prop} (hU : U.Preserves R)
    (hcareful : U.careful = true) {m : Action η ν α} (hm : Routine U m) : m.Lasts R := by
  induction hm with
  | own h => exact hU.own h
  | bind _ _ hm hf => exact fun p => Action.bind_lasts (R := R) hU.trans (hm p) hf
  | attempt _ hm => exact hm
  | holding values _ hm =>
    intro p
    rw [Action.holding_apply]
    have hheld := hU.trans (hU.aside (p.aside_hold values)) (hm _)
    exact hU.trans hheld (hU.aside (Process.aside_unhold _ _))
  | onThread n _ hm =>
    intro p
    rw [Action.onThread_apply]
    exact hU.moved (hm _)
  | under r _ hm =>
    intro p
    rw [Registry.within_apply]
    exact hU.trans (hU.trans (hU.stacked p (r :: ·)) (hm _)) (hU.stacked _ (·.drop 1))
  | operation _ _ _ op hr hw hc =>
    rw [Usage.call, hcareful]
    exact (hU.library fun ref => ⟨hr ref, hw ref, hc ref⟩).operation hU.task op
  | within _ _ _ s _ hr hw hc hb =>
    exact (hU.library fun ref => ⟨hr ref, hw ref, hc ref⟩).within hU.freeing s hb
  | poll _ _ _ t _ hr hw hc hb =>
    exact (hU.library fun ref => ⟨hr ref, hw ref, hc ref⟩).poll hU.freeing hU.task t hb

/-- The library does not break it either, with accessors whose functions are such routines. -/
theorem Host.Runs.enduring {U : Usage η ν} {R : Process η ν → Process η ν → Prop}
    {H : Host η ν} (hH : H.Runs U) (hU : U.Preserves R) (hcareful : U.careful = true) :
    Enduring (U.seen H) R :=
  hU.library fun ref => ⟨(hH ref).read.lasts hU hcareful,
    fun v => ((hH ref).write v).lasts hU hcareful, (hH ref).clear.lasts hU hcareful⟩

end Ambient
