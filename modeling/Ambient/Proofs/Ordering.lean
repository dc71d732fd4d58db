import Ambient.Proofs.Padding
import Ambient.Proofs.Registering
import Ambient.Proofs.Routines
import Ambient.Proofs.Spelling

/-! Orders of registration. Accessors of different keys are registered in some order, and in between
other keys come and go; and however they are registered, a registry has its accessors lie in whatever
order. Proved: what orders these were does not matter. All that a registry is asked is answered by
its keys and accessors in the order of the keys, and no program that goes on from there can tell the
orders apart: it ends alike, leaves the same behind, and what happens meanwhile is the same, event
by event. -/

namespace Ambient

variable {η ν α β ω : Type}

/-! ### Registries made in some order -/

namespace Registry

/-- Of these accessors each is registered once, in whatever order; and of other keys none is
registered in the end, whatever was done to them in between. -/
structure Arrives (accessors : List Accessor) (changes : List Change) : Prop where
  own : (changes.filter fun c => c.key ∈ accessors.map Accessor.key).Perm
    (accessors.map Change.register)
  gone : ∀ k ∉ accessors.map Accessor.key, ¬ Registered changes k

variable {accessors : List Accessor} {changes : List Change}

theorem arrives_iff : Arrives accessors changes ↔
    (changes.filter fun c => c.key ∈ accessors.map Accessor.key).Perm
      (accessors.map Change.register) ∧
    ∀ k ∈ (empty.after changes).keys, k ∈ accessors.map Accessor.key := by
  have hgone : (∀ k ∈ (empty.after changes).keys, k ∈ accessors.map Accessor.key) ↔
      ∀ k ∉ accessors.map Accessor.key, ¬ Registered changes k := by
    refine forall_congr' fun k => ?_
    rw [mem_keys, not_imp_not, ← isRegistered_after]
  rw [hgone]
  exact ⟨fun h => ⟨h.own, h.gone⟩, fun h => ⟨h.1, h.2⟩⟩

instance : Decidable (Arrives accessors changes) := decidable_of_iff _ arrives_iff.symm

theorem Latest.registered {a : Accessor} (h : Latest changes a) : Registered changes a.key := by
  obtain ⟨before, after, rfl, hafter⟩ := h
  exact ⟨before, a, after, rfl, rfl, fun hm => hafter _ hm rfl⟩

theorem Arrives.nodup (h : Arrives accessors changes) (hkeys : (accessors.map Accessor.key).Nodup) :
    ((changes.filter fun c => c.key ∈ accessors.map Accessor.key).map Change.key).Nodup := by
  refine (h.own.map Change.key).nodup_iff.2 ?_
  rw [List.map_map]
  exact hkeys

/-- The latest accessors are those that arrived. -/
theorem Arrives.latest_iff (h : Arrives accessors changes)
    (hkeys : (accessors.map Accessor.key).Nodup) {a : Accessor} :
    Latest changes a ↔ a ∈ accessors := by
  constructor
  · intro ha
    have hk : a.key ∈ accessors.map Accessor.key := by
      by_contra hk
      exact h.gone _ hk ha.registered
    obtain ⟨before, after, rfl, -⟩ := ha
    have hmem : Change.register a ∈ (before ++ .register a :: after).filter
        fun c => c.key ∈ accessors.map Accessor.key :=
      List.mem_filter.2 ⟨by simp, decide_eq_true hk⟩
    obtain ⟨b, hb, heq⟩ := List.mem_map.1 (h.own.subset hmem)
    rwa [← Change.register.inj heq]
  · intro ha
    have hk : a.key ∈ accessors.map Accessor.key := List.mem_map_of_mem ha
    have hmem : Change.register a ∈ changes :=
      List.mem_of_mem_filter (h.own.symm.subset (List.mem_map_of_mem ha))
    obtain ⟨before, after, rfl⟩ := List.append_of_mem hmem
    refine ⟨before, after, rfl, fun c hc heq => ?_⟩
    -- changes of these keys are of different keys
    have hapart := List.pairwise_filter.1 (List.pairwise_map.1 (h.nodup hkeys))
    have hafter := (List.pairwise_cons.1 (List.pairwise_append.1 hapart).2.1).1 c hc
    exact hafter (decide_eq_true hk) (decide_eq_true (heq ▸ hk)) heq.symm

theorem Arrives.get? (h : Arrives accessors changes) (hkeys : (accessors.map Accessor.key).Nodup)
    {k : Key} {a : Accessor} : (empty.after changes).get? k = some a ↔ a ∈ accessors ∧ a.key = k := by
  rw [get?_after, h.latest_iff hkeys]

/-- The order makes no difference to what a registry answers. -/
theorem after_alike_of_arrives {first second : List Change} (h₁ : Arrives accessors first)
    (h₂ : Arrives accessors second) (hkeys : (accessors.map Accessor.key).Nodup) :
    (empty.after first).Alike (empty.after second) := by
  intro k
  ext1 a
  rw [h₁.get? hkeys, h₂.get? hkeys]

theorem nodup_accessors (t : Registry) : t.accessors.Nodup := by
  refine List.Nodup.of_map Accessor.key ?_
  rw [keys_accessors]
  exact t.nodup_keys

theorem Arrives.accessors_perm (h : Arrives accessors changes)
    (hkeys : (accessors.map Accessor.key).Nodup) : (empty.after changes).accessors.Perm accessors := by
  refine (List.perm_ext_iff_of_nodup (nodup_accessors _) hkeys.of_map).2 fun a => ?_
  rw [mem_accessors, h.get? hkeys]
  exact ⟨And.left, fun ha => ⟨ha, rfl⟩⟩

/-! ### Changes carried out -/

/-- Makes changes of a registry, one after another. -/
def carryOut (r : RegistryId) : List Change → Action η ν Unit
  | [] => pure ()
  | c :: rest => do
    c.perform r
    carryOut r rest

end Registry

/-- The process, had something else happened before. -/
def Process.withHistory (p : Process η ν) (history : List (Event ν)) : Process η ν :=
  { p with history }

namespace Registry

theorem perform_apply (r : RegistryId) (c : Change) (p : Process η ν) :
    ∃ events, c.perform r p = (.returned (),
      (p.supplied r (c.apply (p.registry r))).withHistory (events ++ p.history)) := by
  cases c with
  | register a =>
    rw [Change.perform, add_apply]
    split
    · exact ⟨[.logged (.replaced a.key)], rfl⟩
    · exact ⟨[], rfl⟩
  | unregister k => exact ⟨[], rfl⟩

/-- Changes leave all else as it is, and at most something is logged. -/
theorem carryOut_apply {r : RegistryId} {t : Registry} (changes : List Change) {p : Process η ν}
    (hp : p.registries[r]? = some t) : ∃ events, carryOut r changes p =
      (.returned (), (p.supplied r (t.after changes)).withHistory (events ++ p.history)) := by
  induction changes generalizing p t with
  | nil =>
    obtain ⟨hr, rfl⟩ := List.getElem?_eq_some_iff.1 hp
    have hset : p.supplied r p.registries[r] = p := by
      rw [Process.supplied, List.set_getElem_self]
    exact ⟨[], Prod.ext rfl hset.symm⟩
  | cons c rest ih =>
    obtain ⟨first, hfirst⟩ := perform_apply r c p
    rw [Process.registry_of_getElem? hp] at hfirst
    set q := (p.supplied r (c.apply t)).withHistory (first ++ p.history)
    have hq : q.registries[r]? = some (c.apply t) :=
      List.getElem?_set_self (List.getElem?_eq_some_iff.1 hp).1
    obtain ⟨later, hlater⟩ := ih hq
    refine ⟨later ++ first, ?_⟩
    rw [carryOut, Action.bind_of_returned hfirst, hlater]
    refine Prod.ext rfl ?_
    simp [q, Process.supplied, Process.withHistory, after]

end Registry

/-! ### Programs -/

/-- What a registry may be asked. -/
inductive Registry.Query : Type → Type
  | keys : Query (List Key)
  | size : Query Nat
  | isEmpty : Query Bool
  | isRegistered (k : Key) : Query Bool
  | valuesIn (c : Carrier) : Query Carrier

namespace Registry.Query

def answer (t : Registry) : Query α → α
  | keys => t.keys
  | size => t.size
  | isEmpty => t.isEmpty
  | isRegistered k => t.isRegistered k
  | valuesIn c => c.valuesIn t

/-- No answer tells in what order the accessors lie. -/
theorem answer_of_alike {t t' : Registry} (h : t.Alike t') (query : Query α) :
    query.answer t' = query.answer t := by
  cases query with
  | keys => exact h.keys
  | size => exact h.size
  | isEmpty => exact h.isEmpty
  | isRegistered k => exact h.isRegistered k
  | valuesIn c => exact Carrier.valuesIn_of_alike h c

end Registry.Query

/-- What clients do besides. Code of their own sees who runs, what belongs to the threads and what the
program keeps, but not what has happened. The accessors of a registry may come to lie in another
order at any time. -/
inductive Client.Own : {α : Type} → Action η ν α → Prop
  | own {α : Type} (f : ThreadName → Table Thread → η → Exit α × η) : Own (Action.own f)
  | note (n : ν) : Own (Action.record (.noted n))
  | ask {α : Type} (r : RegistryId) (query : Registry.Query α) :
      Own (Action.inspect fun p => query.answer (p.registry r))
  | rearrange (r : RegistryId) {f : Registry → Registry} (hf : ∀ t : Registry, t.Alike (f t)) :
      Own (Action.change fun p => p.supplied r (f (p.registry r)))

def Client.usage : Usage η ν where
  own := Own
  seen := id
  careful := false

/-- A program that uses the library in whatever manner, on any threads, with accessors whose functions
are such programs too. -/
abbrev Client (m : Action η ν α) : Prop := Routine Client.usage m

/-! ### Couplings that have the same registries -/

/-- A coupling under which registries have the same accessors, and may be changed together. -/
structure Coupling.Registering (H H' : Host η ν) (R : Process η ν → Process η ν → Prop) : Prop
    extends Coupling H H' (fun _ => True) R where
  alike : ∀ {p p'}, R p p' → ∀ r, (p.registry r).Alike (p'.registry r)
  count : ∀ {p p'}, R p p' → p'.registries.length = p.registries.length
  changed : ∀ {p p'}, R p p' → ∀ r (c : Registry.Change),
    R (p.supplied r (c.apply (p.registry r))) (p'.supplied r (c.apply (p'.registry r)))
  created : ∀ {p p'}, R p p' → R (Registry.create p).2 (Registry.create p').2

namespace Coupling.Registering

open Ambient.Action (Agree)

variable {H H' : Host η ν} {R : Process η ν → Process η ν → Prop}

theorem add (C : Coupling.Registering H H' R) (r : RegistryId) (a : Accessor) :
    Agree R (Registry.add r a) (Registry.add r a) := by
  intro p p' h
  have hchanged := C.changed h r (.register a)
  rw [Registry.add_apply, Registry.add_apply, (C.alike h r).isRegistered]
  split
  · exact ⟨rfl, C.logged hchanged _⟩
  · exact ⟨rfl, hchanged⟩

theorem remove (C : Coupling.Registering H H' R) (r : RegistryId) (k : Key) :
    Agree R (Registry.remove r k) (Registry.remove r k) := by
  intro p p' h
  rw [Registry.remove_apply, Registry.remove_apply, (C.alike h r).isRegistered]
  exact ⟨rfl, C.changed h r (.unregister k)⟩

theorem create (C : Coupling.Registering H H' R) : Agree R Registry.create Registry.create :=
  fun _ _ h => ⟨congrArg Exit.returned (C.count h), C.created h⟩

theorem readKey (C : Coupling.Registering H H' R) (r : RegistryId) (k : Key) :
    Agree R (Registry.read H r k) (Registry.read H' r k) := by
  intro p p' h
  have halike := C.alike h r k
  cases hk : (p.registry r).get? k with
  | none =>
    rw [Registry.read_of_get?_eq_none H hk, Registry.read_of_get?_eq_none H' (halike.trans hk)]
    exact ⟨rfl, h⟩
  | some a =>
    rw [Registry.read_of_get? H hk, Registry.read_of_get? H' (halike.trans hk)]
    exact C.readAccessor trivial p p' h

theorem writeKey (C : Coupling.Registering H H' R) (r : RegistryId) (k : Key)
    (content : Option Value) :
    Agree R (Registry.write H r k content) (Registry.write H' r k content) := by
  intro p p' h
  have halike := C.alike h r k
  cases hk : (p.registry r).get? k with
  | none =>
    rw [Registry.write_of_get?_eq_none H hk, Registry.write_of_get?_eq_none H' (halike.trans hk)]
    exact ⟨rfl, h⟩
  | some a =>
    rw [Registry.write_of_get? H hk, Registry.write_of_get? H' (halike.trans hk)]
    exact C.writeAccessor trivial content none p p' h

theorem readAll (C : Coupling.Registering H H' R) (l : List Accessor) :
    Agree R (Snapshot.readAll H l) (Snapshot.readAll H' l) := by
  induction l with
  | nil => exact .pure _
  | cons a rest ih =>
    refine (C.readAccessor trivial).bind fun value => ?_
    exact (C.holding _ ih).bind fun _ => .pure _

/-- Whatever orders the accessors lie in, a capture goes by the keys. -/
theorem capture (C : Coupling.Registering H H' R) (r : RegistryId) (carrier : Option Carrier)
    (settings : Settings) :
    Agree R (Snapshot.capture H r carrier settings) (Snapshot.capture H' r carrier settings) := by
  intro p p' h
  have halike := C.alike h r
  rw [Snapshot.capture, Snapshot.capture, Action.bind_of_returned (Registry.look_apply r p),
    Action.bind_of_returned (Registry.look_apply r p'), halike.accessors]
  cases settings.carrierInPlay carrier with
  | none => exact (C.readAll _).bind (fun _ => (C.log _).bind fun _ => .pure _) p p' h
  | some c =>
    simp only [Carrier.valuesIn_of_alike halike]
    exact (Agree.pure _).bind (fun _ => (C.log _).bind fun _ => .pure _) p p' h

theorem perform (C : Coupling.Registering H H' R) (op : Operation α) :
    Agree R (op.perform H) (op.perform H') := by
  cases op with
  | createRegistry => exact C.create
  | register r a => exact C.add r a
  | unregister r k => exact C.remove r k
  | readKey r k => exact C.readKey r k
  | writeKey r k content => exact C.writeKey r k content
  | capture r carrier settings => exact C.capture r carrier settings
  | _ => exact C.operation (Operation.over_of_forall (fun _ => trivial) _) rfl

end Coupling.Registering

/-! ### Histories side by side -/

/-- The states are the same but for the order in which the accessors of a registry lie, and for what
has happened. -/
abbrev Process.ButForOrder : Process η ν → Process η ν → Prop :=
  Process.Same (List.map Registry.accessors) fun _ => ()

/-- Besides, the same has happened since the two runs began, with `h` behind the one and `h'` behind
the other. -/
structure Process.Abreast (h h' : List (Event ν)) (p p' : Process η ν) : Prop
    extends p.ButForOrder p' where
  events : ∃ events, p.history = events ++ h ∧ p'.history = events ++ h'

namespace Process

theorem ButForOrder.accessors {p p' : Process η ν} (k : p.ButForOrder p') (r : RegistryId) :
    (p'.registry r).accessors = (p.registry r).accessors := by
  have hget : ∀ q : Process η ν,
      (q.registry r).accessors = (q.registries.map Registry.accessors).getD r [] := by
    intro q
    rw [registry, List.getD_eq_getElem?_getD, List.getD_eq_getElem?_getD, List.getElem?_map]
    cases q.registries[r]? <;> rfl
  rw [hget, hget, k.registries]

theorem ButForOrder.supplied {p p' : Process η ν} (k : p.ButForOrder p') (r : RegistryId)
    {t t' : Registry} (ht : t.Alike t') : (p.supplied r t).ButForOrder (p'.supplied r t') := by
  refine ⟨k.here, k.waiting, k.threads, k.pinned, k.watchers, k.host, ?_, rfl⟩
  rw [Process.supplied, Process.supplied, List.map_set, List.map_set, k.registries, ht.accessors]

namespace Abreast

variable {h h' : List (Event ν)} {p p' q q' : Process η ν}

theorem of_history_eq (k : p.Abreast h h' p') (hq : q.ButForOrder q')
    (hhistory : q.history = p.history) (hhistory' : q'.history = p'.history) :
    q.Abreast h h' q' := ⟨hq, by rw [hhistory, hhistory']; exact k.events⟩

theorem modifyCurrent (k : p.Abreast h h' p') (f : Thread → Thread) :
    (p.modifyCurrent f).Abreast h h' (p'.modifyCurrent f) :=
  k.of_history_eq (k.toSame.modifyCurrent f) rfl rfl

theorem hold (k : p.Abreast h h' p') (values : List Value) :
    (p.hold values).Abreast h h' (p'.hold values) :=
  k.of_history_eq (k.toSame.hold values) rfl rfl

theorem unhold (k : p.Abreast h h' p') (n : Nat) : (p.unhold n).Abreast h h' (p'.unhold n) :=
  k.of_history_eq (k.toSame.unhold n) rfl rfl

theorem supplied (k : p.Abreast h h' p') (r : RegistryId) {t t' : Registry} (ht : t.Alike t') :
    (p.supplied r t).Abreast h h' (p'.supplied r t') :=
  k.of_history_eq (ButForOrder.supplied k.toSame r ht) rfl rfl

theorem alike (k : p.Abreast h h' p') (r : RegistryId) : (p.registry r).Alike (p'.registry r) :=
  .of_accessors (ButForOrder.accessors k.toSame r)

/-- The same happens in both. -/
theorem happened (k : p.Abreast h h' p') (hq : q.ButForOrder q') (events : List (Event ν))
    (hhistory : q.history = events ++ p.history) (hhistory' : q'.history = events ++ p'.history) :
    q.Abreast h h' q' := by
  obtain ⟨earlier, hp, hp'⟩ := k.events
  refine ⟨hq, events ++ earlier, ?_, ?_⟩
  · rw [hhistory, hp, List.append_assoc]
  · rw [hhistory', hp', List.append_assoc]

theorem record (k : p.Abreast h h' p') (e : Event ν) :
    (p.record e).Abreast h h' (p'.record e) := by
  refine k.happened ?_ [e] rfl rfl
  exact ⟨k.here, k.waiting, k.threads, k.pinned, k.watchers, k.host, k.registries, rfl⟩

/-- The same values are released, and read the same. -/
theorem sweep (k : p.Abreast h h' p') (H : Host η ν) : (p.sweep H).Abreast h h' (p'.sweep H) := by
  refine k.happened (k.toSame.sweep rfl fun _ _ _ _ _ => rfl) (p.releases H) rfl ?_
  rw [history_sweep, k.toSame.releases rfl]

/-- Programs go the same way whatever happened before and in whatever orders accessors lie, if the
functions of accessors do. -/
theorem coupling {H : Host η ν}
    (hr : ∀ ref, Action.Agree (Abreast h h') (H.behaviour ref).read (H.behaviour ref).read)
    (hw : ∀ ref v, Action.Agree (Abreast h h') ((H.behaviour ref).write v) ((H.behaviour ref).write v))
    (hc : ∀ ref, Action.Agree (Abreast h h') (H.behaviour ref).clear (H.behaviour ref).clear) :
    Coupling.Registering H H (Abreast h h') where
  here k := k.here
  current k := k.toSame.current
  priors _ _ _ _ _ := trivial
  stored k _ := k.modifyCurrent _
  stacked k _ := k.modifyCurrent _
  opened k _ _ _ := k.modifyCurrent _
  marked k _ _ := k.modifyCurrent _
  held k := k.hold
  unheld k := k.unhold
  swept k := k.sweep H
  logged k _ := k.record _
  called k _ := k.record _
  read _ ref _ := hr ref
  write _ ref _ := hw ref
  clear _ ref _ := hc ref
  alike k := k.alike
  count k := by simpa using congrArg List.length k.registries
  changed k r c := k.supplied r ((k.alike r).after [c])
  created {p p'} k := by
    refine k.of_history_eq ?_ rfl rfl
    refine ⟨k.here, k.waiting, k.threads, k.pinned, k.watchers, k.host, ?_, rfl⟩
    rw [Registry.create, Registry.create, List.map_append, List.map_append, k.registries]

end Abreast

end Process

/-- A program goes the same way whatever happened before, in whatever orders accessors lie. -/
theorem Client.agree {m : Action η ν α} (hm : Client m) (h h' : List (Event ν)) :
    Action.Agree (Process.Abreast h h') m m := by
  induction hm with
  | own hown =>
    intro p p' k
    cases hown with
    | own f =>
      obtain ⟨hexit, hq⟩ := Action.Agree.own f p p' k.toSame
      exact ⟨hexit, k.of_history_eq hq rfl rfl⟩
    | note n => exact ⟨rfl, k.record _⟩
    | ask r query => exact ⟨congrArg Exit.returned (query.answer_of_alike (k.alike r)), k⟩
    | rearrange r hf => exact ⟨rfl, k.supplied r ((hf _).symm.trans ((k.alike r).trans (hf _)))⟩
  | bind _ _ hm hf => exact hm.bind hf
  | attempt _ hm => exact hm.attempt
  | holding values _ hm =>
    intro p p' k
    obtain ⟨hexit, hq⟩ := hm _ _ (k.hold values)
    rw [Action.holding_apply, Action.holding_apply]
    exact ⟨hexit, hq.unhold _⟩
  | onThread n _ hm =>
    intro p p' k
    obtain ⟨hexit, hq⟩ := hm _ _ (k.of_history_eq (k.toSame.entered n) rfl rfl)
    rw [Action.onThread_apply, Action.onThread_apply, k.here]
    exact ⟨hexit, hq.of_history_eq (hq.toSame.reentered p.here) rfl rfl⟩
  | under r _ hm => exact hm.under (fun k _ => k.modifyCurrent _) r
  | operation _ _ _ op hr hw hc => exact (Process.Abreast.coupling hr hw hc).perform op
  | within _ _ _ s _ hr hw hc hb =>
    exact (Process.Abreast.coupling hr hw hc).within (fun _ _ => trivial) hb
  | poll _ _ _ t _ hr hw hc hb =>
    exact (Process.Abreast.coupling hr hw hc).poll (fun _ _ => trivial) hb

namespace Registry

/-- The keys ascend as texts do, by their bytes and by their code points. -/
def Ascend (keys : List Key) : Prop :=
  keys.Pairwise fun j k => Text.bytes j < Text.bytes k ∧ Text.scalars j < Text.scalars k

theorem ascend_of_pairwise {keys : List Key} (h : keys.Pairwise (· < ·)) : Ascend keys :=
  h.imp fun hjk => ⟨Text.bytes_lt_bytes_iff.2 hjk, Text.scalars_lt_scalars_iff.2 hjk⟩

/-- Accessors of different keys are registered in one order and in another, while other keys come
and go; and whatever order they then lie in, in the one registry and in the other. Both have the
same accessors, in the order of their keys when they are asked, and so has whatever is captured; and
every program that goes on from there ends alike in both runs, in states that differ at most in such
orders and in what happened before, with the same events since then: calls of accessors, what they
answer, and what is logged. -/
theorem captures_and_runs_eq_of_arrives {accessors : List Accessor}
    (hkeys : (accessors.map Accessor.key).Nodup) {first second : List Change}
    (h₁ : Arrives accessors first) (h₂ : Arrives accessors second) {r : RegistryId}
    {p : Process η ν} (hfresh : p.registries[r]? = some .empty) :
    ∃ q₁ q₂, carryOut r first p = (.returned (), q₁) ∧ carryOut r second p = (.returned (), q₂) ∧
      ∀ t₁ t₂, (q₁.registry r).Alike t₁ → (q₂.registry r).Alike t₂ →
        t₂.accessors = t₁.accessors ∧ t₁.accessors.Perm accessors ∧
        t₂.keys = t₁.keys ∧ Ascend t₁.keys ∧
        (∀ (H : Host η ν) (s : Snapshot), s.CapturedFrom H t₁ → Ascend s.keys) ∧
        ∀ {α : Type} (m : Action η ν α), Client m →
          ∃ (exit : Exit α) (last₁ last₂ : Process η ν) (events : List (Event ν)),
            m (q₁.supplied r t₁) = (exit, last₁) ∧ m (q₂.supplied r t₂) = (exit, last₂) ∧
            last₁.ButForOrder last₂ ∧ last₁.history = events ++ q₁.history ∧
            last₂.history = events ++ q₂.history := by
  obtain ⟨logged₁, hq₁⟩ := carryOut_apply first hfresh
  obtain ⟨logged₂, hq₂⟩ := carryOut_apply second hfresh
  refine ⟨_, _, hq₁, hq₂, fun t₁ t₂ ht₁ ht₂ => ?_⟩
  set q₁ := (p.supplied r (empty.after first)).withHistory (logged₁ ++ p.history)
  set q₂ := (p.supplied r (empty.after second)).withHistory (logged₂ ++ p.history)
  have hregistry : ∀ t : Registry, (p.registries.set r t)[r]? = some t := fun t =>
    List.getElem?_set_self (List.getElem?_eq_some_iff.1 hfresh).1
  have hfirst : (empty.after first).Alike t₁ := by
    rwa [Process.registry_of_getElem? (hregistry _)] at ht₁
  have hsecond : (empty.after second).Alike t₂ := by
    rwa [Process.registry_of_getElem? (hregistry _)] at ht₂
  have halike : t₁.Alike t₂ :=
    hfirst.symm.trans ((after_alike_of_arrives h₁ h₂ hkeys).trans hsecond)
  refine ⟨halike.accessors, ?_, halike.keys, ascend_of_pairwise t₁.keys_sorted,
    fun H s hs => ascend_of_pairwise hs.keys_sorted, fun m hm => ?_⟩
  · rw [hfirst.accessors]
    exact h₁.accessors_perm hkeys
  have hbegun : (q₁.supplied r t₁).Abreast q₁.history q₂.history (q₂.supplied r t₂) := by
    refine ⟨⟨rfl, rfl, rfl, rfl, rfl, rfl, ?_, rfl⟩, [], rfl, rfl⟩
    simp only [q₁, q₂, Process.supplied, Process.withHistory, List.set_set, List.map_set,
      halike.accessors]
  obtain ⟨hexit, hsame, events, hevents₁, hevents₂⟩ := hm.agree _ _ _ _ hbegun
  exact ⟨_, _, (m (q₂.supplied r t₂)).2, events, rfl, Prod.ext hexit rfl, hsame, hevents₁, hevents₂⟩

/-- An embedding program whose cells take no values. -/
def refusing : Host (Table Value) Unit :=
  rack toString fun ref _ => .returned (.error (.accessor (toString ref) "full"))

/-- Captures what there is, and installs it. -/
def reinstall : Action (Table Value) Unit (Except Failure Nat) := do
  (Operation.install (← (Operation.capture processWide none {}).perform refusing)).perform refusing

theorem client_reinstall : Client reinstall := by
  have hput : ∀ (ref : Nat) (content : Option Value),
      Client (Action.own fun _ _ (cells : Table Value) =>
        (.returned (.error (.accessor (toString ref) "full")), cells.assign (toString ref) content) :
        Action (Table Value) Unit (Except Failure Unit)) := fun _ _ => .own (.own _)
  have hrefusing : refusing.Runs Client.usage := fun ref =>
    ⟨.own (.own fun _ _ (cells : Table Value) => (.returned (cells.get? (toString ref)), cells)),
      fun v => hput ref (some v), hput ref none⟩
  exact (hrefusing.operation (.capture processWide none {})).bind fun s =>
    hrefusing.operation (.install s)

/-- The failure of the key that comes first is the one to be told, though it was registered last
in the one order and first, before another key came and went, in the other. -/
theorem reinstall_fails_alike :
    ∃ q₁ q₂, carryOut processWide [.register (.custom "b" 1), .register (.custom "a" 0)]
        unregistered = (.returned (), q₁) ∧
      carryOut processWide [.register (.custom "a" 0), .register (.slot "c"),
        .register (.custom "b" 1), .unregister "c"] unregistered = (.returned (), q₂) ∧
      (reinstall (q₁.supplied processWide (q₁.registry processWide))).1 =
        .returned (.error (.accessor "0" "full")) ∧
      (reinstall (q₂.supplied processWide (q₂.registry processWide))).1 =
        .returned (.error (.accessor "0" "full")) := by
  have h₁ : Arrives [.custom "a" 0, .custom "b" 1]
      [.register (.custom "b" 1), .register (.custom "a" 0)] := by decide +kernel
  have h₂ : Arrives [.custom "a" 0, .custom "b" 1] [.register (.custom "a" 0),
      .register (.slot "c"), .register (.custom "b" 1), .unregister "c"] := by decide +kernel
  obtain ⟨q₁, q₂, hq₁, hq₂, hsame⟩ :=
    captures_and_runs_eq_of_arrives (by decide) h₁ h₂ (r := processWide) (p := unregistered) rfl
  obtain ⟨-, -, -, -, -, hruns⟩ := hsame _ _ (.refl _) (.refl _)
  obtain ⟨exit, last₁, last₂, events, hm₁, hm₂, -⟩ := hruns reinstall client_reinstall
  have hfailed : (reinstall (q₁.supplied processWide (q₁.registry processWide))).1 =
      .returned (.error (.accessor "0" "full")) := by
    obtain rfl := congrArg Prod.snd hq₁
    rfl
  exact ⟨q₁, q₂, hq₁, hq₂, hfailed, by rw [hm₂, ← hfailed, hm₁]⟩

end Registry

end Ambient
