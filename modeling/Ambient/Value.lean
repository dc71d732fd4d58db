import Ambient.Table
import Ambient.Text.Quoted

/-! Ambient values. A value is shared and never changes; what makes two values the
same is their identity and not what they carry. Most values are numbered in the order
of their making. A value that came from elsewhere has an identity but no number, and
shows no more than that it is there. -/

namespace Ambient

/-! ### Payloads -/

inductive IntegerKind where
  | u8 | u32 | u64 | i32 | i64 | i128
  deriving DecidableEq, Repr

namespace IntegerKind

def name : IntegerKind → String
  | u8 => "u8"
  | u32 => "u32"
  | u64 => "u64"
  | i32 => "i32"
  | i64 => "i64"
  | i128 => "i128"

def least : IntegerKind → Int
  | u8 | u32 | u64 => 0
  | i32 => -Int.pow 2 31
  | i64 => -Int.pow 2 63
  | i128 => -Int.pow 2 127

def greatest : IntegerKind → Int
  | u8 => Int.pow 2 8 - 1
  | u32 => Int.pow 2 32 - 1
  | u64 => Int.pow 2 64 - 1
  | i32 => Int.pow 2 31 - 1
  | i64 => Int.pow 2 63 - 1
  | i128 => Int.pow 2 127 - 1

def admits (k : IntegerKind) (n : Int) : Bool := decide (k.least ≤ n) && decide (n ≤ k.greatest)

end IntegerKind

/-- What tells values apart. -/
inductive Identity where
  /-- The value made as the `n`-th. -/
  | numbered (n : Nat)
  /-- A value that was made elsewhere. -/
  | foreign (n : Nat)
  deriving DecidableEq, Repr

inductive Payload where
  | string (s : String)
  /-- A text that is part of the program. -/
  | str (s : String)
  | integer (kind : IntegerKind) (n : Int)
  | bool (b : Bool)
  | char (c : Char)
  | unit
  | list (items : List String)
  | bytes (data : List UInt8)
  | opt (text : Option String)
  | value (id : Identity) (inner : Payload)
  /-- Nothing to be read, but code that reads these slots when the value is released. -/
  | watcher (slots : List Key)
  deriving DecidableEq, Repr

structure Value where
  id : Identity
  payload : Payload
  deriving DecidableEq, Repr

/-! ### Texts -/

def hexPair (b : UInt8) : String :=
  if b.toNat < 16 then "0" ++ Text.hex b.toNat else Text.hex b.toNat

namespace Payload

def typeName : Payload → String
  | string _ => "string"
  | str _ => "str"
  | integer kind _ => kind.name
  | bool _ => "bool"
  | char _ => "char"
  | unit => "unit"
  | list _ => "list"
  | bytes _ => "bytes"
  | opt _ => "opt"
  | value _ _ => "value"
  | watcher _ => "other"

/-- How a value shows: number, type and text, or only that it is there. -/
def label (id : Identity) (type text : String) : String :=
  match id with
  | .numbered n => s!"#{n} {type} {text}"
  | .foreign _ => "#? other"

def text : Payload → String
  | string s => s
  | str s => s
  | integer _ n => toString n
  | bool b => if b then "true" else "false"
  | char c => c.toString
  | unit => "()"
  | list items => String.intercalate "," items
  | bytes data => String.join (data.map hexPair)
  | opt none => "None"
  | opt (some s) => "Some " ++ s
  | value id inner => "<" ++ label id inner.typeName inner.text ++ ">"
  | watcher _ => ""

/-- The payload as readers of its type get it; a foreign payload has no such readers. -/
def reading? : Payload → Option (String × String)
  | watcher _ => none
  | p => some (p.typeName, p.text)

/-- Whether the value of identity `i` is inside the payload. -/
def mentions (i : Identity) : Payload → Bool
  | value id inner => decide (id = i) || inner.mentions i
  | _ => false

end Payload

namespace Value

def render (v : Value) : String := Payload.label v.id v.payload.typeName v.payload.text

def same (v w : Value) : Bool := decide (v.id = w.id)

/-- Whether holding `v` keeps the value of identity `i` alive. -/
def mentions (i : Identity) (v : Value) : Bool := decide (v.id = i) || v.payload.mentions i

/-- The slots that the value's code reads when it is released. -/
def watches (v : Value) : List Key :=
  match v.payload with
  | .watcher slots => slots
  | _ => []

end Value

end Ambient
