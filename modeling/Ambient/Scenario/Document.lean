/-! Documents, the form in which scenarios and their records are written down: nothing,
truth values, decimal numbers, texts, lists, and objects of named fields. A field that
holds nothing is there all the same, and of the wrong kind for a reader that wants
something. -/

namespace Ambient.Scenario

/-- What reading a field gave; `none` where the field is missing though it is needed, or is
of the wrong kind. Whoever wants the field decides when to refuse that. -/
abbrev Field (α : Type) : Type := Option α

inductive Document where
  | null
  | bool (b : Bool)
  /-- The number `mantissa · 10 ^ -places`. -/
  | number (mantissa : Int) (places : Nat)
  | text (s : String)
  | list (items : List Document)
  | object (fields : List (String × Document))
  deriving Inhabited

namespace Document

/-! ### Writing -/

def nat (n : Nat) : Document := number n 0

/-- A text that may be missing. -/
def ofText? : Option String → Document
  | none => null
  | some s => text s

/-- What a step answers that has nothing else to say. -/
def ok : Document := text "ok"

/-! ### Reading -/

def find (name : String) : List (String × Document) → Option Document
  | [] => none
  | (n, d) :: rest => if n = name then some d else find name rest

theorem sizeOf_find {name : String} {fields : List (String × Document)} {d : Document}
    (h : find name fields = some d) : sizeOf d < sizeOf fields := by
  induction fields with
  | nil => simp [find] at h
  | cons b rest ih =>
    obtain ⟨n, e⟩ := b
    rw [find] at h
    split at h
    · obtain rfl := Option.some.inj h
      simp only [List.cons.sizeOf_spec, Prod.mk.sizeOf_spec]
      omega
    · have := ih h
      simp only [List.cons.sizeOf_spec]
      omega

/-- The content of a field, unless it is missing. -/
def field? (d : Document) (name : String) : Option Document :=
  match d with
  | object fields => find name fields
  | _ => none

def asText? : Document → Option String
  | text s => some s
  | _ => none

def asBool? : Document → Option Bool
  | bool b => some b
  | _ => none

def asList? : Document → Option (List Document)
  | list items => some items
  | _ => none

def asObject? : Document → Option Document
  | object fields => some (object fields)
  | _ => none

def asNat? : Document → Option Nat
  | number (.ofNat n) 0 => some n
  | _ => none

def need {α : Type} (d : Document) (name : String) (read : Document → Option α) : Field α :=
  (d.field? name).bind read

def may {α : Type} (d : Document) (name : String) (read : Document → Option α) :
    Field (Option α) :=
  match d.field? name with
  | none => some none
  | some content => (read content).map some

def string (d : Document) (name : String) : Field String := d.need name asText?

/-- A text that may be missing. -/
def string? (d : Document) (name : String) : Field (Option String) := d.may name asText?

/-- A text that may be missing, with what it is then. -/
def stringOr (d : Document) (name default : String) : Field String :=
  (d.string? name).map (·.getD default)

/-- A truth value, false where it is missing. -/
def flag (d : Document) (name : String) : Field Bool := (d.may name asBool?).map (·.getD false)

def items (d : Document) (name : String) : Field (List Document) := d.need name asList?

def asTexts? (d : Document) : Option (List String) := d.asList?.bind (·.mapM asText?)

def asNats? (d : Document) : Option (List Nat) := d.asList?.bind (·.mapM asNat?)

def asBytes? (d : Document) : Option (List UInt8) :=
  d.asNats?.bind (·.mapM fun n => if n < 256 then some n.toUInt8 else none)

end Document

end Ambient.Scenario
