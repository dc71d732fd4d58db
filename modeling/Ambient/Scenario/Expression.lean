import Ambient.Scenario.Document
import Ambient.Value

/-! Expressions for values, as steps write them: literals, which make a value, and
references to values that are already somewhere. What does not read as either is an
expression too, and is refused when its turn comes. -/

namespace Ambient.Scenario

inductive Expression where
  | fresh (payload : Payload)
  /-- A new value that carries another one. -/
  | wrapping (inner : Expression)
  | named (name : String)
  | slot (key : Key)
  /-- What a snapshot captured for a key, which is looked at after the snapshot. -/
  | captured (snapshot : String) (key : Field Key)
  /-- What a carrier holds for a key, which is looked at after the carrier. -/
  | carried (carrier : String) (key : Field Key)
  /-- What a window displaced for a key, which is looked at after the window. -/
  | prior (scope : String) (key : Field Key)
  | absent
  /-- Something that is no expression. -/
  | unreadable
  deriving DecidableEq, Repr

/-! ### Literals -/

/-- The digits of a number in the decimal system, at least one. -/
def digits? (s : List Char) : Option Nat :=
  if s.isEmpty then none
  else s.foldlM (fun n c => if c.isDigit then some (10 * n + (c.toNat - '0'.toNat)) else none) 0

/-- An integer with an optional sign; a minus counts only where `signed` allows it. -/
def integer? (signed : Bool) (s : String) : Option Int :=
  match s.toList with
  | '+' :: rest => (digits? rest).map Int.ofNat
  | '-' :: rest => if signed then (digits? rest).map fun n => -Int.ofNat n else none
  | cs => (digits? cs).map Int.ofNat

def IntegerKind.read? (kind : IntegerKind) (s : String) : Option Int :=
  (integer? (decide (kind.least < 0)) s).filter kind.admits

def count? (s : String) : Option Nat := (IntegerKind.read? .u64 s).map Int.toNat

def integerKinds : List IntegerKind := [.u8, .u32, .u64, .i32, .i64, .i128]

def literalTypes : List String :=
  ["string", "str"] ++ integerKinds.map IntegerKind.name ++
    ["bool", "char", "unit", "list", "bytes", "opt", "value"]

/-- A payload of a type, from the document that tells its content; values that carry
values are not among them. -/
def payload? (type : String) (v : Option Document) : Option Payload :=
  let text := v.bind Document.asText?
  match type with
  | "string" => text.map .string
  | "str" => text.map .str
  | "bool" =>
    match text with
    | some "true" => some (.bool true)
    | some "false" => some (.bool false)
    | _ => none
  | "char" =>
    match text.map String.toList with
    | some [c] => some (.char c)
    | _ => none
  | "unit" => some .unit
  | "list" => (v.bind Document.asTexts?).map .list
  | "bytes" => (v.bind Document.asBytes?).map .bytes
  | "opt" => some (.opt text)
  | type => do
    let kind ← integerKinds.find? fun k => k.name = type
    return .integer kind (← IntegerKind.read? kind (← text))

namespace Expression

/-- The reference that the fields of a document make. The first of the fields that say what
it refers to decides. -/
def reference (d : Document) : Expression :=
  let starting (content : Document) (make : String → Expression) : Expression :=
    (content.asText?.map make).getD unreadable
  match d.field? "ref", d.field? "slot", d.field? "snap", d.field? "carrier",
    d.field? "prior" with
  | some name, _, _, _, _ => starting name named
  | none, some key, _, _, _ => starting key slot
  | none, none, some snapshot, _, _ => starting snapshot (captured · (d.string "key"))
  | none, none, none, some carrier, _ => starting carrier (carried · (d.string "key"))
  | none, none, none, none, some scope => starting scope (prior · (d.string "key"))
  | none, none, none, none, none => unreadable

def read : Document → Expression
  | .null => absent
  | .object fields =>
    match Document.find "type" fields with
    | some (.text "value") =>
      match _h : Document.find "v" fields with
      | some inner => wrapping (read inner)
      | none => wrapping absent
    | some (.text type) =>
      match payload? type (Document.find "v" fields) with
      | some payload => fresh payload
      | none => unreadable
    | none => reference (.object fields)
    | some _ => unreadable
  | _ => unreadable
termination_by d => d
decreasing_by
  have := Document.sizeOf_find _h
  simp only [Document.object.sizeOf_spec]
  omega

/-- Reads the expression in a field, which has to be there, be it to say that there is no
value. -/
def ofField (d : Document) (name : String) : Expression :=
  ((d.field? name).map read).getD unreadable

def literal (d : Document) : Expression :=
  if (d.field? "type").isSome then read d else unreadable

end Expression

end Ambient.Scenario
