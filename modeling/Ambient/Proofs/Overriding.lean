import Ambient.Settings
import Mathlib.Data.List.DropRight
import Mathlib.Data.List.Forall2

/-! Overriding settings by the environment. The words a variable may hold are written down as
tables, and bytes say a word if they write a text that is the word up to blanks around it and the
case of ASCII letters; nothing of this mentions how a text is read. Proved: the bytes accepted are
exactly those that say a word of the table, and for every environment which fields are overridden
and what the failure tells. How bytes write a text is left to the theory of UTF-8. -/

namespace Ambient

namespace Text

/-! ### Blanks at the ends -/

/-- `core` is `text` without the blanks at its ends. -/
structure Stripped (text core : List Char) : Prop where
  split : ∃ before after, text = before ++ core ++ after ∧ ∀ c ∈ before ++ after, isBlank c = true
  first : ∀ c ∈ core.head?, isBlank c = false
  last : ∀ c ∈ core.getLast?, isBlank c = false

theorem not_blank_of_head?_dropWhile {text : List Char} :
    ∀ c ∈ (text.dropWhile isBlank).head?, isBlank c = false := by
  intro c hc
  have hnot := List.head?_dropWhile_not isBlank text
  rwa [hc] at hnot

theorem dropWhile_of_head? {text : List Char} (h : ∀ c ∈ text.head?, isBlank c = false) :
    text.dropWhile isBlank = text := by
  cases text with
  | nil => rfl
  | cons c rest => exact List.dropWhile_cons_of_neg (by simp [h c rfl])

theorem stripped_stripChars (text : List Char) : Stripped text (stripChars text) := by
  have hstrip : stripChars text = (text.dropWhile isBlank).rdropWhile isBlank := rfl
  refine ⟨⟨text.takeWhile isBlank, (text.dropWhile isBlank).rtakeWhile isBlank, ?_, ?_⟩, ?_, ?_⟩
  · rw [hstrip, List.append_assoc, List.rdropWhile_append_rtakeWhile,
      List.takeWhile_append_dropWhile]
  · intro c hc
    rcases List.mem_append.1 hc with hc | hc
    · exact List.mem_takeWhile_imp hc
    · exact List.mem_rtakeWhile_imp hc
  · -- what is left begins with what the text begins with past its leading blanks
    intro c hc
    obtain ⟨rest, hrest⟩ := List.head?_eq_some_iff.1 hc
    obtain ⟨tail, htail⟩ := List.rdropWhile_prefix isBlank (text.dropWhile isBlank)
    have hhead : (text.dropWhile isBlank).head? = some c := by
      rw [← htail, ← hstrip, hrest]
      rfl
    exact not_blank_of_head?_dropWhile c hhead
  · intro c hc
    rw [stripChars, List.getLast?_reverse] at hc
    exact not_blank_of_head?_dropWhile c hc

/-- Only one list of characters is a text without the blanks at its ends. -/
theorem Stripped.stripChars_eq {text core : List Char} (h : Stripped text core) :
    stripChars text = core := by
  obtain ⟨⟨before, after, rfl, hblank⟩, hfirst, hlast⟩ := h
  have hbefore : ∀ c ∈ before, isBlank c = true := fun c hc => hblank c (List.mem_append_left _ hc)
  have hafter : ∀ c ∈ after, isBlank c = true := fun c hc => hblank c (List.mem_append_right _ hc)
  rw [stripChars, List.append_assoc, List.dropWhile_append_of_pos hbefore]
  cases core with
  | nil => rw [List.nil_append, List.dropWhile_eq_nil_iff.2 hafter]; rfl
  | cons c rest =>
    have hlead : (c :: rest ++ after).dropWhile isBlank = c :: rest ++ after :=
      dropWhile_of_head? hfirst
    have htrail : (c :: rest).reverse.dropWhile isBlank = (c :: rest).reverse :=
      dropWhile_of_head? (by rwa [List.head?_reverse])
    rw [hlead, List.reverse_append,
      List.dropWhile_append_of_pos fun d hd => hafter d (List.mem_reverse.1 hd), htrail,
      List.reverse_reverse]

theorem stripChars_eq_iff {text core : List Char} : stripChars text = core ↔ Stripped text core :=
  ⟨fun h => h ▸ stripped_stripChars text, Stripped.stripChars_eq⟩

/-! ### Letters in lower case -/

/-- `d` is `c` with an ASCII letter put in lower case; the lower case of a letter is 32 places
behind it. -/
def Lowered (c d : Char) : Prop :=
  if 'A' ≤ c ∧ c ≤ 'Z' then d.toNat = c.toNat + 32 else d = c

theorem toLower_eq_iff {c d : Char} : c.toLower = d ↔ Lowered c d := by
  have hupper : c.val ≥ 'A'.val ∧ c.val ≤ 'Z'.val ↔ 'A' ≤ c ∧ c ≤ 'Z' := Iff.rfl
  by_cases hc : 'A' ≤ c ∧ c ≤ 'Z'
  · have hrange : 65 ≤ c.val.toNat ∧ c.val.toNat ≤ 90 := hc
    have hplaces : (c.val + ('a'.val - 'A'.val)).toNat = c.val.toNat + 32 := by
      rw [UInt32.toNat_add]
      exact Nat.mod_eq_of_lt (by change c.val.toNat + 32 < 2 ^ 32; omega)
    have hlow : c.toLower.toNat = c.toNat + 32 :=
      (congrArg Char.toNat (dif_pos (hupper.2 hc))).trans hplaces
    rw [Lowered, if_pos hc, ← hlow]
    exact ⟨fun h => h ▸ rfl, fun h => (Char.toNat_inj.1 h).symm⟩
  · have hsame : c.toLower = c := dif_neg (mt hupper.1 hc)
    rw [Lowered, if_neg hc, hsame]
    exact eq_comm

theorem map_toLower_eq_iff {text word : List Char} :
    text.map Char.toLower = word ↔ List.Forall₂ Lowered text word := by
  rw [← List.forall₂_eq_eq_eq, List.forall₂_map_left_iff]
  simp only [toLower_eq_iff]

/-! ### Saying a word -/

/-- The bytes write a text that is `word` once blanks at its ends are gone and its ASCII letters
are in lower case. -/
def Says (word : String) (bytes : List UInt8) : Prop :=
  ∃ text core, bytes = Utf8.encode text ∧ Stripped text.toList core ∧
    List.Forall₂ Lowered core word.toList

theorem lowerAscii_strip_eq_iff {text word : String} :
    lowerAscii (strip text) = word ↔
      ∃ core, Stripped text.toList core ∧ List.Forall₂ Lowered core word.toList := by
  rw [lowerAscii, strip, String.toList_ofList, ← String.toList_inj, String.toList_ofList,
    map_toLower_eq_iff]
  simp only [← stripChars_eq_iff, exists_eq_left']

theorem says_iff {word : String} {bytes : List UInt8} :
    Says word bytes ↔ ∃ text, Utf8.decode? bytes = some text ∧ lowerAscii (strip text) = word := by
  simp only [Says, Utf8.decode?_eq_some_iff, lowerAscii_strip_eq_iff, exists_and_left]

end Text

/-! ### Tables of words -/

/-- The words for a policy. -/
def CapturePolicy.words : CapturePolicy → List String
  | carrierFirst => ["carrier-first", "carrier_first"]
  | threadLocalOnly => ["thread-local-only", "thread_local_only"]

/-- The words for a truth value. -/
def truthWords : Bool → List String
  | true => ["true", "1", "yes", "on"]
  | false => ["false", "0", "no", "off"]

section Tables

variable {α : Type} {words : α → List String} {read? : String → Option α} {name expected : String}
  {bytes : List UInt8} {x y : α}

/-- The bytes say one of the words for `x`. -/
def Names (words : α → List String) (bytes : List UInt8) (x : α) : Prop :=
  ∃ word ∈ words x, Text.Says word bytes

/-- The bytes say a word of the table. -/
def Accepted (words : α → List String) (bytes : List UInt8) : Prop := ∃ x, Names words bytes x

/-- Texts are read by the table: as `x` just those that, stripped and in lower case, are words for
`x`. -/
def Reads (read? : String → Option α) (words : α → List String) : Prop :=
  ∀ text x, read? text = some x ↔ Text.lowerAscii (Text.strip text) ∈ words x

/-- What is told of bytes that a variable must not hold: their text, and what was wanted of it; or
as much text as they write, if they do not write one. -/
inductive Refusal (name expected : String) : List UInt8 → Failure → Prop
  | unexpected (text : String) :
    Refusal name expected (Text.Utf8.encode text) (.setting name text expected)
  | unreadable {bytes : List UInt8} (h : ∀ text, bytes ≠ Text.Utf8.encode text) :
    Refusal name expected bytes (.setting name (Text.Utf8.decodeLossy bytes) "not valid unicode")

/-- A field that held `before` holds `now`: what the variable names, and nothing else does it
name, if it is set, and `before` if it is not. -/
def Overwritten (words : α → List String) (content : Option (List UInt8)) (before now : α) : Prop :=
  match content with
  | none => now = before
  | some bytes => ∀ x, Names words bytes x ↔ x = now

/-- What overriding one field comes to: settings with the field overwritten, or a refusal. -/
inductive Outcome (words : α → List String) (name expected : String) (put : α → Settings)
    (before : α) : Option (List UInt8) → Except Failure Settings → Prop
  | overwritten {content : Option (List UInt8)} {now : α}
    (h : Overwritten words content before now) :
    Outcome words name expected put before content (.ok (put now))
  | refused {bytes : List UInt8} {f : Failure} (h : ¬ Accepted words bytes)
    (hf : Refusal name expected bytes f) :
    Outcome words name expected put before (some bytes) (.error f)

theorem Overwritten.accepted {content : Option (List UInt8)} {before now : α}
    (h : Overwritten words content before now) : ∀ bytes ∈ content, Accepted words bytes := by
  rintro bytes rfl
  exact ⟨now, (h now).2 rfl⟩

/-- Overwriting a field a second time leaves it as it is. -/
theorem Overwritten.eq_of_again {content : Option (List UInt8)} {before now again : α}
    (h : Overwritten words content before now) (h' : Overwritten words content now again) :
    again = now := by
  cases content with
  | none => exact h'
  | some bytes => exact (h again).1 ((h' again).2 rfl)

theorem Reads.names_iff (hread : Reads read? words) :
    Names words bytes x ↔ ∃ text, Text.Utf8.decode? bytes = some text ∧ read? text = some x := by
  constructor
  · rintro ⟨word, hword, hsays⟩
    obtain ⟨text, htext, rfl⟩ := Text.says_iff.1 hsays
    exact ⟨text, htext, (hread text x).2 hword⟩
  · rintro ⟨text, htext, hx⟩
    exact ⟨_, (hread text x).1 hx, Text.says_iff.2 ⟨text, htext, rfl⟩⟩

/-- A variable is read as `x` exactly if it names `x`. -/
theorem Reads.fromVariable_eq_ok_iff (hread : Reads read? words) :
    Settings.fromVariable name expected read? bytes = .ok x ↔ Names words bytes x := by
  rw [hread.names_iff, Settings.fromVariable]
  cases Text.Utf8.decode? bytes with
  | none => simp
  | some text => cases hx : read? text <;> simp [hx]

/-- A variable that is not read is refused for what its bytes write. -/
theorem refusal_of_fromVariable {f : Failure}
    (h : Settings.fromVariable name expected read? bytes = .error f) :
    Refusal name expected bytes f := by
  rw [Settings.fromVariable] at h
  cases htext : Text.Utf8.decode? bytes with
  | none =>
    rw [htext] at h
    cases h
    refine .unreadable fun text hbytes => ?_
    rw [Text.Utf8.decode?_eq_some_iff.2 hbytes] at htext
    cases htext
  | some text =>
    rw [htext] at h
    rw [Text.Utf8.decode?_eq_some_iff.1 htext]
    cases hx : read? text <;> simp only [hx, reduceCtorEq, Except.error.injEq] at h
    exact h ▸ .unexpected text

/-- Overriding a field by its variable, if that is set. -/
theorem Reads.outcome (hread : Reads read? words) (put : α → Settings) (before : α) :
    Outcome words name expected put before (some bytes)
      ((Settings.fromVariable name expected read? bytes).map put) := by
  cases h : Settings.fromVariable name expected read? bytes with
  | ok x =>
    refine .overwritten fun y => ?_
    have hread : Settings.fromVariable name expected read? bytes = .ok y ↔ Names words bytes y :=
      hread.fromVariable_eq_ok_iff
    rw [← hread, h]
    exact ⟨fun hx => (Except.ok.inj hx).symm, fun hx => hx ▸ rfl⟩
  | error f =>
    refine .refused ?_ (refusal_of_fromVariable h)
    rintro ⟨x, hx⟩
    rw [hread.fromVariable_eq_ok_iff.2 hx] at h
    cases h

/-- A field that was overwritten is not refused again, and stays as it is. -/
theorem Outcome.eq_of_again {put : α → Settings} {content : Option (List UInt8)} {before now : α}
    {r : Except Failure Settings} (h : Outcome words name expected put now content r)
    (ho : Overwritten words content before now) : r = .ok (put now) := by
  cases h with
  | overwritten h => rw [ho.eq_of_again h]
  | refused h => exact absurd (ho.accepted _ rfl) h

end Tables

theorem CapturePolicy.ofText?_reads : Reads ofText? words := by
  intro text x
  rw [ofText?]
  generalize Text.lowerAscii (Text.strip text) = word
  cases x <;> grind [words]

theorem truth?_reads : Reads truth? truthWords := by
  intro text x
  rw [truth?]
  generalize Text.lowerAscii (Text.strip text) = word
  cases x <;> grind [truthWords]

namespace Settings

/-! ### The two variables -/

theorem overridePolicy_outcome (s : Settings) (content : Option (List UInt8)) :
    Outcome CapturePolicy.words policyVariable CapturePolicy.expected
      (fun policy => { s with policy := policy }) s.policy content (s.overridePolicy content) := by
  cases content with
  | none => exact .overwritten rfl
  | some bytes => exact CapturePolicy.ofText?_reads.outcome _ _

theorem overrideClear_outcome (s : Settings) (content : Option (List UInt8)) :
    Outcome truthWords clearVariable "expected a boolean"
      (fun clear => { s with clearMissing := clear }) s.clearMissing content
      (s.overrideClear content) := by
  cases content with
  | none => exact .overwritten rfl
  | some bytes => exact truth?_reads.outcome _ _

/-- What becomes of the settings `s` under an environment: the settings `u`, with the failure that
is told if there is one. -/
structure Overridden (s : Settings) (env : Environment) (u : Settings) (told : Option Failure) :
    Prop where
  succeeds : told = none ↔ (∀ bytes ∈ env.policy, Accepted CapturePolicy.words bytes) ∧
    ∀ bytes ∈ env.clearMissing, Accepted truthWords bytes
  overwritten : told = none → Overwritten CapturePolicy.words env.policy s.policy u.policy ∧
    Overwritten truthWords env.clearMissing s.clearMissing u.clearMissing
  /-- Overriding again changes nothing and tells the same. -/
  again : u.override env = (u, told)
  /-- A refused policy ends the matter, whatever the other variable holds. -/
  policyRefused : ∀ bytes ∈ env.policy, ¬ Accepted CapturePolicy.words bytes → u = s ∧
    ∃ f ∈ told, Refusal policyVariable CapturePolicy.expected bytes f
  /-- Where only the other variable is refused, the policy is overwritten already. -/
  clearRefused : (∀ bytes ∈ env.policy, Accepted CapturePolicy.words bytes) →
    ∀ bytes ∈ env.clearMissing, ¬ Accepted truthWords bytes →
      Overwritten CapturePolicy.words env.policy s.policy u.policy ∧
      u.clearMissing = s.clearMissing ∧
      ∃ f ∈ told, Refusal clearVariable "expected a boolean" bytes f

/-- For every environment: overriding succeeds exactly if all variables that are set are accepted,
overwrites then just their fields, and else tells of the first that is refused. -/
theorem override_exact (s : Settings) (env : Environment) :
    s.Overridden env (s.override env).1 (s.override env).2 := by
  have hpolicy := overridePolicy_outcome s env.policy
  generalize hp : s.overridePolicy env.policy = r at hpolicy
  obtain ⟨policy, clear⟩ := env
  cases hpolicy with
  | @refused bytes f h hf =>
    have hu : s.override ⟨some bytes, clear⟩ = (s, some f) := by simp only [override, hp]
    rw [hu]
    exact {
      succeeds := ⟨nofun, fun hall => absurd (hall.1 _ rfl) h⟩
      overwritten := nofun
      again := hu
      policyRefused := fun _ hb _ => ⟨rfl, f, rfl, Option.some.inj hb ▸ hf⟩
      clearRefused := fun hall => absurd (hall _ rfl) h }
  | @overwritten _ now h =>
    have hclear := overrideClear_outcome { s with policy := now } clear
    generalize hc : Settings.overrideClear { s with policy := now } clear = r at hclear
    cases hclear with
    | @refused bytes f h' hf =>
      have hu : s.override ⟨policy, some bytes⟩ = ({ s with policy := now }, some f) := by
        simp only [override, hp, hc]
      have hagain := (overridePolicy_outcome { s with policy := now } policy).eq_of_again h
      rw [hu]
      exact {
        succeeds := ⟨nofun, fun hall => absurd (hall.2 _ rfl) h'⟩
        overwritten := nofun
        again := by simp only [override, hagain, hc]
        policyRefused := fun b hb hb' => absurd (h.accepted b hb) hb'
        clearRefused := fun _ _ hb _ => ⟨h, rfl, f, rfl, Option.some.inj hb ▸ hf⟩ }
    | @overwritten _ now' h' =>
      have hu : s.override ⟨policy, clear⟩ = (⟨now, now'⟩, none) := by
        simp only [override, hp, hc]
      have hagain := (overridePolicy_outcome ⟨now, now'⟩ policy).eq_of_again h
      have hagain' := (overrideClear_outcome ⟨now, now'⟩ clear).eq_of_again h'
      rw [hu]
      exact {
        succeeds := ⟨fun _ => ⟨h.accepted, h'.accepted⟩, fun _ => rfl⟩
        overwritten := fun _ => ⟨h, h'⟩
        again := by simp only [override, hagain, hagain']
        policyRefused := fun b hb hb' => absurd (h.accepted b hb) hb'
        clearRefused := fun _ b hb hb' => absurd (h'.accepted b hb) hb' }

/-- An ideographic space is a blank, but a long s is no letter s; the policy is overwritten. -/
example : ({} : Settings).override ⟨some (Text.Utf8.encode "\u3000Thread_Local_ONLY\n"),
      some (Text.Utf8.encode "ye\u017F")⟩ =
    ({ policy := .threadLocalOnly },
      some (.setting clearVariable "ye\u017F" "expected a boolean")) := by
  decide +kernel

end Settings

end Ambient
