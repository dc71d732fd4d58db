import Ambient.Proofs.Amending
import Ambient.Proofs.Lasting

/-! Registries and their histories. A registry begins without accessors; some are registered and
unregistered, accessors are read and written in between, and snapshots are captured. Proved: at any
point, whatever a registry is asked is answered by the accessors that were registered last and not
unregistered since, with one call of the accessor in question and of no other; and a history is
what the steps of a run make of the registry, besides what the functions of accessors do to it. -/

namespace Ambient

variable {η ν α β : Type}

/-! ### Functions behind accessors -/

namespace Accessor

variable (H : Host η ν)

/-- What is run when an accessor is read. -/
def getter : Accessor → Action η ν (Option Value)
  | slot k => Slot.read k
  | custom _ ref => (H.behaviour ref).read

/-- What is run when an accessor is written, or is to clear. -/
def setter : Accessor → Option Value → Action η ν (Except Failure Unit)
  | slot k, content => Slot.write H k content
  | custom _ ref, some v => (H.behaviour ref).write v
  | custom _ ref, none => (H.behaviour ref).clear

theorem read_eq_getter (a : Accessor) (p : Process η ν) :
    a.read H p = a.getter H (p.record (.called { accessor := a, request := .read })) := by
  cases a <;> rfl

/-- When a function has returned, what it gave up is released. -/
theorem write_eq_setter (a : Accessor) : ∃ done : Process η ν → Process η ν,
    (done = id ∨ done = Process.sweep H) ∧ ∀ content restoring p,
      a.write H content restoring p =
        ((a.setter H content
          (p.record (.called { accessor := a, request := .write content, restoring }))).1,
        done (a.setter H content
          (p.record (.called { accessor := a, request := .write content, restoring }))).2) := by
  cases a with
  | slot k => exact ⟨id, .inl rfl, fun _ _ _ => rfl⟩
  | custom k ref =>
    refine ⟨Process.sweep H, .inr rfl, fun content _ _ => ?_⟩
    cases content <;> rfl

end Accessor

/-! ### Replacements -/

/-- The key whose accessor another one took the place of. -/
def LogEvent.replaced? : LogEvent → Option Key
  | replaced k => some k
  | _ => none

namespace Process

/-- The keys of all replacements that were logged, first to last. -/
def replacements (p : Process η ν) : List Key := p.logs.filterMap LogEvent.replaced?

theorem replacements_logged (p : Process η ν) (e : LogEvent) :
    (p.record (.logged e)).replacements = p.replacements ++ e.replaced?.toList := by
  rw [replacements, logs_record, List.filterMap_append]
  cases h : e.replaced? <;> simp [Event.log?, replacements, h]

theorem replacements_called (p : Process η ν) (call : Call) :
    (p.record (.called call)).replacements = p.replacements := by
  simp [replacements, Event.log?]

theorem replacements_sweep (H : Host η ν) (p : Process η ν) :
    (p.sweep H).replacements = p.replacements := by simp [replacements]

end Process

namespace Registry

/-! ### Changes -/

/-- What is done to a registry. -/
inductive Change where
  | register (a : Accessor)
  | unregister (k : Key)
  deriving DecidableEq

namespace Change

def key : Change → Key
  | register a => a.key
  | unregister k => k

def apply (t : Registry) : Change → Registry
  | register a => t.register a
  | unregister k => t.unregister k

def edit : Change → Table.Edit Accessor
  | register a => (a.key, some a)
  | unregister k => (k, none)

def perform (r : RegistryId) : Change → Action η ν Unit
  | register a => Registry.add r a
  | unregister k => do let _ ← Registry.remove r k

end Change

/-- The accessor is the one of its key: it was registered, and nothing was done to its key since. -/
def Latest (changes : List Change) (a : Accessor) : Prop :=
  ∃ before after, changes = before ++ .register a :: after ∧ ∀ c ∈ after, c.key ≠ a.key

/-- Some accessor of the key was registered, and the key was not unregistered since. -/
def Registered (changes : List Change) (k : Key) : Prop :=
  ∃ before a after, changes = before ++ .register a :: after ∧ a.key = k ∧ .unregister k ∉ after

/-- The keys are those whose accessor was replaced, one by one, in a registry that began without
accessors. -/
inductive Replacing : List Change → List Key → Prop
  | nil : Replacing [] []
  | added {changes keys a} (h : Replacing changes keys) (ha : ¬ Registered changes a.key) :
    Replacing (changes ++ [.register a]) keys
  | replaced {changes keys a} (h : Replacing changes keys) (ha : Registered changes a.key) :
    Replacing (changes ++ [.register a]) (keys ++ [a.key])
  | unregistered {changes keys k} (h : Replacing changes keys) :
    Replacing (changes ++ [.unregister k]) keys

/-- The registry that changes make of another one. -/
def after (t : Registry) (changes : List Change) : Registry := changes.foldl Change.apply t

theorem after_append (t : Registry) (l m : List Change) :
    t.after (l ++ m) = (t.after l).after m := List.foldl_append

theorem Change.fst_edit (c : Change) : c.edit.1 = c.key := by cases c <;> rfl

theorem Change.get?_apply (t : Registry) (c : Change) (k : Key) :
    (c.apply t).get? k = if c.key = k then c.edit.2 else t.get? k := by
  cases c with
  | register a => exact get?_register t a k
  | unregister j => exact get?_unregister t j k

/-- Changes make of a registry what edits make of a table. -/
theorem get?_after_eq_amend {t : Registry} {m : Table Accessor} (h : ∀ k, t.get? k = m.get? k)
    (changes : List Change) (k : Key) :
    (t.after changes).get? k = (m.amend (changes.map Change.edit)).get? k := by
  induction changes generalizing t m with
  | nil => exact h k
  | cons c rest ih =>
    refine ih fun j => ?_
    rw [c.get?_apply, Table.get?_assign, c.fst_edit, h j]

theorem Alike.after {t t' : Registry} (h : t.Alike t') (changes : List Change) :
    (t.after changes).Alike (t'.after changes) := by
  induction changes generalizing t t' with
  | nil => exact h
  | cons c rest ih =>
    refine ih ?_
    cases c with
    | register a => exact h.register a
    | unregister k => exact h.unregister k

theorem Change.edit_eq_register {c : Change} {k : Key} {a : Accessor} (h : c.edit = (k, some a)) :
    c = .register a ∧ a.key = k := by
  cases c with
  | register b =>
    obtain ⟨rfl, rfl⟩ : b.key = k ∧ b = a := by simpa [edit] using h
    exact ⟨rfl, rfl⟩
  | unregister j => simp [edit] at h

theorem Change.edit_eq_unregister {c : Change} {k : Key} (h : c.edit = (k, none)) :
    c = .unregister k := by
  cases c with
  | register b => simp [edit] at h
  | unregister j => simpa [edit] using h

theorem remains_edit_iff {changes : List Change} {k : Key} :
    Table.Remains (changes.map Change.edit) k ↔ Registered changes k := by
  constructor
  · rintro ⟨before, a, after, hsplit, hafter⟩
    obtain ⟨l, rest, rfl, rfl, hrest⟩ := List.map_eq_append_iff.1 hsplit
    obtain ⟨c, m, rfl, hc, rfl⟩ := List.map_eq_cons_iff.1 hrest
    obtain ⟨rfl, hk⟩ := Change.edit_eq_register hc
    exact ⟨l, a, m, rfl, hk, fun hm => hafter (List.mem_map_of_mem hm)⟩
  · rintro ⟨before, a, after, rfl, rfl, hafter⟩
    refine ⟨before.map Change.edit, a, after.map Change.edit, by simp [Change.edit], fun hm => ?_⟩
    obtain ⟨c, hc, hedit⟩ := List.mem_map.1 hm
    rw [Change.edit_eq_unregister hedit] at hc
    exact hafter hc

theorem lastGiven_edit_iff {changes : List Change} {k : Key} {a : Accessor} :
    Table.LastGiven (changes.map Change.edit) k a ↔ Latest changes a ∧ a.key = k := by
  constructor
  · rintro ⟨before, after, hsplit, hafter⟩
    obtain ⟨l, rest, rfl, rfl, hrest⟩ := List.map_eq_append_iff.1 hsplit
    obtain ⟨c, m, rfl, hc, rfl⟩ := List.map_eq_cons_iff.1 hrest
    obtain ⟨rfl, rfl⟩ := Change.edit_eq_register hc
    exact ⟨⟨l, m, rfl, fun d hd => d.fst_edit ▸ hafter _ (List.mem_map_of_mem hd)⟩, rfl⟩
  · rintro ⟨⟨before, after, rfl, hafter⟩, rfl⟩
    refine ⟨before.map Change.edit, after.map Change.edit, by simp [Change.edit], fun e he => ?_⟩
    obtain ⟨c, hc, rfl⟩ := List.mem_map.1 he
    rw [c.fst_edit]
    exact hafter c hc

theorem isRegistered_after {changes : List Change} {k : Key} :
    (empty.after changes).isRegistered k = true ↔ Registered changes k := by
  rw [isRegistered, get?_after_eq_amend (m := .empty) fun _ => rfl, ← remains_edit_iff]
  exact Table.contains_amend_empty

theorem get?_after {changes : List Change} {k : Key} {a : Accessor} :
    (empty.after changes).get? k = some a ↔ Latest changes a ∧ a.key = k := by
  rw [get?_after_eq_amend (m := .empty) fun _ => rfl, ← lastGiven_edit_iff]
  exact Table.get?_amend_empty

/-- A registry has as many accessors as registered keys. -/
theorem size_eq_ncard (t : Registry) : t.size = {k | t.isRegistered k = true}.ncard := by
  have hkeys : {k | t.isRegistered k = true} = ((t.listed.map Accessor.key).toFinset : Set Key) := by
    ext k
    simp only [Set.mem_ofPred_eq, isRegistered_iff, Finset.mem_coe, List.mem_toFinset]
  rw [hkeys, Set.ncard_coe_finset, List.toFinset_card_of_nodup t.distinct, List.length_map, size]

end Registry

/-! ### What single operations do -/

/-- The process with another table for a registry. -/
def Process.supplied (p : Process η ν) (r : RegistryId) (t : Registry) : Process η ν :=
  { p with registries := p.registries.set r t }

theorem Process.registry_of_getElem? {p : Process η ν} {r : RegistryId} {t : Registry}
    (h : p.registries[r]? = some t) : p.registry r = t := by
  rw [registry, List.getD_eq_getElem?_getD, h]
  rfl

/-- The registry has the same accessors in both, if there is one of the number at all. -/
def Process.AlikeIn (r : RegistryId) (p q : Process η ν) : Prop :=
  Option.Rel Registry.Alike p.registries[r]? q.registries[r]?

namespace Process.AlikeIn

variable {r : RegistryId} {p q s : Process η ν}

theorem of_eq (h : q.registries[r]? = p.registries[r]?) : p.AlikeIn r q := by
  rw [AlikeIn, h]
  cases p.registries[r]? with
  | none => exact .none
  | some t => exact .some (.refl t)

theorem some {t : Registry} (h : p.AlikeIn r q) (ht : p.registries[r]? = .some t) :
    ∃ t', q.registries[r]? = .some t' ∧ t.Alike t' := by
  rw [AlikeIn, ht] at h
  generalize q.registries[r]? = found at h
  cases h with
  | @some _ t' h => exact ⟨t', rfl, h⟩

theorem trans (h : p.AlikeIn r q) (k : q.AlikeIn r s) : p.AlikeIn r s := by
  cases ht : p.registries[r]? with
  | none =>
    rw [AlikeIn, ht] at h
    rw [AlikeIn] at k
    generalize q.registries[r]? = found at h k
    cases h
    rwa [AlikeIn, ht]
  | some t =>
    obtain ⟨t', ht', h'⟩ := h.some ht
    obtain ⟨t'', ht'', k'⟩ := k.some ht'
    rw [AlikeIn, ht, ht'']
    exact .some (h'.trans k')

end Process.AlikeIn

namespace Registry

theorem add_apply (r : RegistryId) (a : Accessor) (p : Process η ν) :
    add r a p = (.returned (),
      if (p.registry r).isRegistered a.key
        then (p.supplied r ((p.registry r).register a)).record (.logged (.replaced a.key))
        else p.supplied r ((p.registry r).register a)) := by
  rw [add, Action.bind_of_returned (look_apply r p),
    Action.bind_of_returned (Action.change_apply ..)]
  split <;> rfl

theorem replacements_add (r : RegistryId) (a : Accessor) (p : Process η ν) :
    (add r a p).2.replacements =
      p.replacements ++ if (p.registry r).isRegistered a.key then [a.key] else [] := by
  rw [add_apply]
  split
  · exact Process.replacements_logged _ _
  · exact (List.append_nil _).symm

theorem remove_apply (r : RegistryId) (k : Key) (p : Process η ν) :
    remove r k p = (.returned ((p.registry r).isRegistered k),
      p.supplied r ((p.registry r).unregister k)) := rfl

theorem registries_perform (r : RegistryId) (c : Change) (p : Process η ν) :
    (c.perform r p).2.registries = p.registries.set r (c.apply (p.registry r)) := by
  cases c with
  | register a =>
    rw [Change.perform, add_apply]
    split <;> rfl
  | unregister k => rfl

variable (H : Host η ν)

theorem read_of_get? {r : RegistryId} {p : Process η ν} {k : Key} {a : Accessor}
    (h : (p.registry r).get? k = some a) : read H r k p = a.read H p := by
  rw [read, Action.bind_of_returned (look_apply r p), h]

theorem write_of_get? {r : RegistryId} {p : Process η ν} {k : Key} {a : Accessor}
    (h : (p.registry r).get? k = some a) (content : Option Value) :
    write H r k content p = a.write H content none p := by
  rw [write, Action.bind_of_returned (look_apply r p), h]

theorem read_of_get?_eq_none {r : RegistryId} {p : Process η ν} {k : Key}
    (h : (p.registry r).get? k = none) : read H r k p = (.returned none, p) := by
  rw [read, Action.bind_of_returned (look_apply r p), h]
  rfl

theorem write_of_get?_eq_none {r : RegistryId} {p : Process η ν} {k : Key}
    (h : (p.registry r).get? k = none) (content : Option Value) :
    write H r k content p = (.returned (.error (.unknownKey k)), p) := by
  rw [write, Action.bind_of_returned (look_apply r p), h]
  rfl

/-! ### Courses of a registry -/

/-- How a process came from `p` to a state, as far as the registry goes: by these changes of it, one
after another. Whatever else happened meanwhile, it left the registry its accessors. -/
inductive Course (r : RegistryId) (p : Process η ν) : List Change → Process η ν → Prop
  | begins : Course r p [] p
  | changed {changes q} (h : Course r p changes q) (c : Change) :
    Course r p (changes ++ [c]) (c.perform r q).2
  | meanwhile {changes q q'} (h : Course r p changes q) (hr : q.AlikeIn r q') : Course r p changes q'

variable {H} {r : RegistryId} {p q : Process η ν} {changes : List Change}

theorem Course.trans {s : Process η ν} {l m : List Change} (h : Course r p l q)
    (k : Course r q m s) : Course r p (l ++ m) s := by
  induction k with
  | begins => rwa [List.append_nil]
  | changed _ c ih =>
    rw [← List.append_assoc]
    exact .changed ih c
  | meanwhile _ hr ih => exact .meanwhile ih hr

theorem Course.alike {t : Registry} (h : Course r p changes q) (hp : p.registries[r]? = some t) :
    ∃ t', q.registries[r]? = some t' ∧ (t.after changes).Alike t' := by
  induction h with
  | begins => exact ⟨t, hp, .refl t⟩
  | @changed changes q _ c ih =>
    obtain ⟨t', ht', halike⟩ := ih
    refine ⟨c.apply t', ?_, ?_⟩
    · rw [registries_perform, Process.registry_of_getElem? ht', List.getElem?_set_self', ht']
      rfl
    · rw [after_append]
      exact halike.after [c]
  | meanwhile _ hr ih =>
    obtain ⟨t', ht', halike⟩ := ih
    obtain ⟨t'', ht'', hrest⟩ := hr.some ht'
    exact ⟨t'', ht'', halike.trans hrest⟩

/-- At a state that the changes have led to, the registry answers what they tell. -/
structure Reflects (H : Host η ν) (r : RegistryId) (changes : List Change) (q : Process η ν) :
    Prop where
  isRegistered : ∀ k, (q.registry r).isRegistered k = true ↔ Registered changes k
  size : (q.registry r).size = {k | Registered changes k}.ncard
  isEmpty : (q.registry r).isEmpty = true ↔ (q.registry r).size = 0
  keys : (q.registry r).keys.Pairwise (· < ·) ∧
    ∀ k, k ∈ (q.registry r).keys ↔ Registered changes k
  /-- A registration that replaces an accessor is logged. -/
  replaced : ∀ a, Registered changes a.key → (add r a q).1 = .returned () ∧
    (add r a q).2.history = .logged (.replaced a.key) :: q.history
  /-- One that replaces none is not. -/
  added : ∀ a, ¬ Registered changes a.key → (add r a q).1 = .returned () ∧
    (add r a q).2.history = q.history
  /-- A key that is unregistered is told to have been registered just if it was. -/
  unregister : ∀ k, (remove r k q).2.history = q.history ∧
    ∃ removed, (remove r k q).1 = .returned removed ∧ (removed = true ↔ Registered changes k)
  /-- What is asked of a registered key is asked of its latest accessor, in one call, and the
  answer is handed on as it is. -/
  known : ∀ k, Registered changes k → ∃ a, Latest changes a ∧ a.key = k ∧
    read H r k q = a.getter H (q.record (.called { accessor := a, request := .read })) ∧
    ∀ content, ∃ done, (done = id ∨ done = Process.sweep H) ∧
      write H r k content q =
        ((a.setter H content
          (q.record (.called { accessor := a, request := .write content }))).1,
        done (a.setter H content
          (q.record (.called { accessor := a, request := .write content }))).2)
  /-- Nothing comes of what is asked of any other key. -/
  unknown : ∀ k, ¬ Registered changes k → read H r k q = (.returned none, q) ∧
    ∀ content, write H r k content q = (.returned (.error (.unknownKey k)), q)

/-- A registry that began without accessors. -/
theorem reflects_of_course (H : Host η ν) (h : Course r p changes q)
    (hfresh : p.registries[r]? = some .empty) : Reflects H r changes q := by
  obtain ⟨t, ht, halike⟩ := h.alike hfresh
  rw [← Process.registry_of_getElem? ht] at halike
  have hregistered : ∀ k, (q.registry r).isRegistered k = true ↔ Registered changes k := fun k => by
    rw [halike.isRegistered, isRegistered_after]
  refine ⟨hregistered, ?_, List.isEmpty_iff_length_eq_zero,
    ⟨(q.registry r).keys_sorted, fun k => mem_keys.trans (hregistered k)⟩,
    fun a ha => ?_, fun a ha => ?_, fun k => ?_, fun k hk => ?_, fun k hk => ?_⟩
  · have hsize := (q.registry r).size_eq_ncard
    simp only [← hregistered]
    exact hsize
  · rw [add_apply, if_pos ((hregistered _).2 ha)]
    exact ⟨rfl, rfl⟩
  · rw [add_apply, if_neg fun hr => ha ((hregistered _).1 hr)]
    exact ⟨rfl, rfl⟩
  · rw [remove_apply]
    exact ⟨rfl, _, rfl, hregistered k⟩
  · obtain ⟨a, ha⟩ : ∃ a, (q.registry r).get? k = some a :=
      Option.isSome_iff_exists.1 ((hregistered k).2 hk)
    obtain ⟨hlatest, rfl⟩ := get?_after.1 ((halike k).symm.trans ha)
    refine ⟨a, hlatest, rfl, ?_, fun content => ?_⟩
    · rw [read_of_get? H ha, a.read_eq_getter]
    · obtain ⟨done, hdone, hwrite⟩ := a.write_eq_setter H
      rw [write_of_get? H ha, hwrite]
      exact ⟨done, hdone, rfl⟩
  · have hnone : (q.registry r).get? k = none := by
      by_contra hsome
      exact hk ((hregistered k).1 (Option.isSome_iff_ne_none.2 hsome))
    exact ⟨read_of_get?_eq_none H hnone, write_of_get?_eq_none H hnone⟩

/-! ### Runs -/

/-- A relation that cannot be broken but by what changes registries or logs replacements. -/
theorem persisting_of_untouched {R : Process η ν → Process η ν → Prop}
    (h : ∀ {p q}, q.registries = p.registries → q.replacements = p.replacements → R p q)
    (htrans : ∀ {p q s}, R p q → R q s → R p s) (hfunctions : ∀ ref, (H.behaviour ref).Lasts R) :
    Persisting H R where
  refl _ := h rfl rfl
  trans := htrans
  held _ _ := h rfl rfl
  unheld _ _ := h rfl rfl
  stored _ _ := h rfl rfl
  swept p := h rfl (p.replacements_sweep H)
  called p call _ := h rfl (p.replacements_called call)
  captured p _ _ := h rfl ((p.replacements_logged _).trans (List.append_nil _))
  functions := hfunctions

/-- What may be done while a registry is in use. -/
inductive Step where
  | change (c : Change)
  | read (s : RegistryId) (k : Key)
  | write (s : RegistryId) (k : Key) (content : Option Value)
  | capture (s : RegistryId) (carrier : Option Carrier) (settings : Settings)

/-- The change of the registry that a step makes, if it makes one. -/
def Step.change? : Step → Option Change
  | change c => some c
  | _ => none

/-- Takes a step; one that panics goes no further. -/
def Step.take (H : Host η ν) (r : RegistryId) : Step → Action η ν Unit
  | change c => c.perform r
  | read s k => do let _ ← Action.attempt (Registry.read H s k)
  | write s k content => do let _ ← Action.attempt (Registry.write H s k content)
  | capture s carrier settings => do
    let _ ← Action.attempt (Snapshot.capture H s carrier settings)

/-- The process when the steps have been taken, one after another. -/
def stepped (H : Host η ν) (r : RegistryId) (p : Process η ν) (steps : List Step) : Process η ν :=
  steps.foldl (fun q step => (step.take H r q).2) p

/-- The changes that steps make of the registry. -/
def changesOf (steps : List Step) : List Change := steps.filterMap Step.change?

theorem stepped_concat (steps : List Step) (step : Step) :
    stepped H r p (steps ++ [step]) = (step.take H r (stepped H r p steps)).2 := by
  simp [stepped]

theorem changesOf_concat (steps : List Step) (step : Step) :
    changesOf (steps ++ [step]) = changesOf steps ++ step.change?.toList := by
  simp only [changesOf, List.filterMap_append]
  cases h : step.change? <;> simp [h]

/-- A step either is a change or leads where the relation holds. -/
theorem persisting_take {R : Process η ν → Process η ν → Prop} (P : Persisting H R) (r : RegistryId)
    (step : Step) (h : step.change? = none) (p : Process η ν) : R p (step.take H r p).2 := by
  cases step with
  | change c => exact absurd h (by simp [Step.change?])
  | read s k => exact P.readKey s k p
  | write s k content => exact P.writeKey s k content p
  | capture s carrier settings => exact P.capture s carrier settings p

/-- The registry came to be as it is by changes alone, whatever they were. -/
def Led (r : RegistryId) (p q : Process η ν) : Prop := ∃ changes, Course r p changes q

/-- The registry has the accessors that it had, and no replacement was logged. -/
def Undisturbed (r : RegistryId) (p q : Process η ν) : Prop :=
  p.AlikeIn r q ∧ q.replacements = p.replacements

theorem persisting_led (h : ∀ ref, (H.behaviour ref).Lasts (Led r)) : Persisting H (Led r) :=
  persisting_of_untouched (fun hregistries _ => ⟨[], .meanwhile .begins (.of_eq (by rw [hregistries]))⟩)
    (fun ⟨l, hl⟩ ⟨m, hm⟩ => ⟨l ++ m, hl.trans hm⟩) h

theorem persisting_undisturbed (h : ∀ ref, (H.behaviour ref).Lasts (Undisturbed r)) :
    Persisting H (Undisturbed r) :=
  persisting_of_untouched (fun hregistries hlog => ⟨.of_eq (by rw [hregistries]), hlog⟩)
    (fun ⟨hr, hl⟩ ⟨hr', hl'⟩ => ⟨hr.trans hr', hl'.trans hl⟩) h

/-- Functions of accessors may change the registry too, between the changes that the steps make. -/
theorem course_of_led (h : ∀ ref, (H.behaviour ref).Lasts (Led r)) (p : Process η ν)
    (steps : List Step) :
    ∃ changes, (changesOf steps).Sublist changes ∧ Course r p changes (stepped H r p steps) := by
  induction steps using List.reverseRecOn with
  | nil => exact ⟨[], .slnil, .begins⟩
  | append_singleton steps step ih =>
    obtain ⟨changes, hsub, hcourse⟩ := ih
    rw [stepped_concat, changesOf_concat]
    cases hstep : step.change? with
    | none =>
      obtain ⟨more, hmore⟩ := persisting_take (persisting_led h) r step hstep (stepped H r p steps)
      refine ⟨changes ++ more, ?_, hcourse.trans hmore⟩
      simpa using hsub.trans (List.sublist_append_left ..)
    | some c =>
      obtain rfl : step = .change c := by cases step <;> simp_all [Step.change?]
      exact ⟨changes ++ [c], hsub.append_right _, hcourse.changed c⟩

/-- Functions of accessors that leave the registry alone. -/
theorem course_of_undisturbed (h : ∀ ref, (H.behaviour ref).Lasts (Undisturbed r))
    (hfresh : p.registries[r]? = some .empty) (steps : List Step) :
    Course r p (changesOf steps) (stepped H r p steps) ∧
      ∃ keys, Replacing (changesOf steps) keys ∧
        (stepped H r p steps).replacements = p.replacements ++ keys := by
  induction steps using List.reverseRecOn with
  | nil => exact ⟨.begins, [], .nil, (List.append_nil _).symm⟩
  | append_singleton steps step ih =>
    obtain ⟨hcourse, keys, hkeys, hlog⟩ := ih
    rw [stepped_concat, changesOf_concat]
    set q := stepped H r p steps
    cases hstep : step.change? with
    | none =>
      obtain ⟨hr, hl⟩ := persisting_take (persisting_undisturbed h) r step hstep q
      rw [Option.toList_none, List.append_nil]
      exact ⟨hcourse.meanwhile hr, keys, hkeys, hl.trans hlog⟩
    | some c =>
      obtain rfl : step = .change c := by cases step <;> simp_all [Step.change?]
      refine ⟨hcourse.changed c, ?_⟩
      cases c with
      | register a =>
        have hregistered := (reflects_of_course H hcourse hfresh).isRegistered a.key
        by_cases ha : Registered (changesOf steps) a.key
        · refine ⟨keys ++ [a.key], hkeys.replaced ha, (replacements_add r a q).trans ?_⟩
          rw [if_pos (hregistered.2 ha), hlog, List.append_assoc]
        · refine ⟨keys, hkeys.added ha, (replacements_add r a q).trans ?_⟩
          rw [if_neg fun h => ha (hregistered.1 h), hlog, List.append_nil]
      | unregister k => exact ⟨keys, hkeys.unregistered, hlog⟩

/-- A registry that begins without accessors answers at any point what its history tells; and its
history is what is done to it, be it by the steps of a run or by functions of accessors that run
meanwhile. If functions leave it alone, there is nothing in it but the steps of the run, and
replacements are logged just where an accessor is registered for a registered key. -/
theorem last_writer_wins (H : Host η ν) (hfresh : p.registries[r]? = some .empty) :
    (∀ changes q, Course r p changes q → Reflects H r changes q) ∧
      ((∀ ref, (H.behaviour ref).Lasts (Led r)) → ∀ steps, ∃ changes,
        (changesOf steps).Sublist changes ∧ Course r p changes (stepped H r p steps)) ∧
      ((∀ ref, (H.behaviour ref).Lasts (Undisturbed r)) → ∀ steps,
        Course r p (changesOf steps) (stepped H r p steps) ∧
          ∃ keys, Replacing (changesOf steps) keys ∧
            (stepped H r p steps).replacements = p.replacements ++ keys) :=
  ⟨fun _ _ h => reflects_of_course H h hfresh, fun h => course_of_led h p,
    fun h => course_of_undisturbed h hfresh⟩

theorem undisturbed_rack (r : RegistryId) (place : Nat → Key)
    (answer : Nat → Option Value → Exit (Except Failure Unit)) (ref : Nat) :
    ((rack (ν := ν) place answer).behaviour ref).Lasts (Undisturbed r) :=
  ⟨fun _ => ⟨.of_eq rfl, rfl⟩, fun _ _ => ⟨.of_eq rfl, rfl⟩, fun _ => ⟨.of_eq rfl, rfl⟩⟩

/-- A process with a registry that has no accessors yet. -/
def unregistered : Process (Table Value) Unit where
  here := "main"
  host := .empty

/-- A slot makes way for the functions of the same key, and another key comes and goes. -/
def replacingSteps : List Step :=
  [.change (.register (.slot "b")), .change (.register (.slot "a")),
    .write processWide "a" (some ⟨.numbered 0, .unit⟩), .change (.register (.custom "a" 0)),
    .change (.unregister "b"), .read processWide "a", .capture processWide none {}]

/-- The functions are what is left, and do not have what the slot was given. -/
theorem last_writer_wins_replacing :
    let H := rack (fun _ => "cell") fun _ _ => .returned (.ok ())
    let q := stepped H processWide unregistered replacingSteps
    Reflects H processWide [.register (.slot "b"), .register (.slot "a"),
      .register (.custom "a" 0), .unregister "b"] q ∧ q.replacements = ["a"] ∧
      (q.registry processWide).keys = ["a"] ∧ (read H processWide "a" q).1 = .returned none := by
  intro H q
  obtain ⟨hreflects, -, hquiet⟩ := last_writer_wins (r := processWide) (p := unregistered) H rfl
  obtain ⟨hcourse, -⟩ := hquiet (undisturbed_rack _ _ _) replacingSteps
  exact ⟨hreflects _ _ hcourse, by decide +kernel, by decide +kernel, by decide +kernel⟩

end Registry

end Ambient
