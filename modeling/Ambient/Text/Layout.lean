/-! The two layouts of a described value: on one line, or spread over lines with one
entry a line and four blanks for each level. A description is a tree of names,
entries and finished texts; finished texts are never broken. -/

namespace Ambient.Text

inductive Layout where
  | atom (text : String)
  | tagged (name : String) (inner : Layout)
  /-- A named record; where it is not `complete`, its end says that fields are left out. -/
  | record (name : String) (fields : List (String × Layout)) (complete : Bool)
  | list (items : List Layout)
  | map (bindings : List (Layout × Layout))

namespace Layout

def commas (parts : List String) : String := String.intercalate ", " parts

def compact : Layout → String
  | atom text => text
  | tagged name inner => name ++ "(" ++ inner.compact ++ ")"
  | record name fields complete =>
    let shown := compactFields fields
    name ++ " \x7b " ++ commas (if complete then shown else shown ++ [".."]) ++ " \x7d"
  | list items => "[" ++ commas (compactItems items) ++ "]"
  | map bindings => "\x7b" ++ commas (compactBindings bindings) ++ "\x7d"
where
  compactFields : List (String × Layout) → List String
    | [] => []
    | (name, value) :: rest => (name ++ ": " ++ value.compact) :: compactFields rest
  compactItems : List Layout → List String
    | [] => []
    | item :: rest => item.compact :: compactItems rest
  compactBindings : List (Layout × Layout) → List String
    | [] => []
    | (key, value) :: rest => (key.compact ++ ": " ++ value.compact) :: compactBindings rest

/-- The blanks before a line at a level. -/
def indent (level : Nat) : String := String.ofList (List.replicate (4 * level) ' ')

/-- Entries between brackets, one a line. -/
def block (level : Nat) (opening closing : String) (entries : List String) : String :=
  opening ++ "\n" ++ String.join (entries.map fun e => indent (level + 1) ++ e ++ "\n")
    ++ indent level ++ closing

/-- The text spread over lines, its first line continuing a line of the given level. -/
def spread (level : Nat) : Layout → String
  | atom text => text
  | tagged name inner => block level (name ++ "(") ")" [inner.spread (level + 1) ++ ","]
  | record name fields complete =>
    let shown := spreadFields level fields
    block level (name ++ " \x7b") "\x7d" (if complete then shown else shown ++ [".."])
  | list [] => "[]"
  | list items => block level "[" "]" (spreadItems level items)
  | map [] => "\x7b\x7d"
  | map bindings => block level "\x7b" "\x7d" (spreadBindings level bindings)
where
  spreadFields (level : Nat) : List (String × Layout) → List String
    | [] => []
    | (name, value) :: rest =>
      (name ++ ": " ++ value.spread (level + 1) ++ ",") :: spreadFields level rest
  spreadItems (level : Nat) : List Layout → List String
    | [] => []
    | item :: rest => (item.spread (level + 1) ++ ",") :: spreadItems level rest
  spreadBindings (level : Nat) : List (Layout × Layout) → List String
    | [] => []
    | (key, value) :: rest =>
      (key.spread (level + 1) ++ ": " ++ value.spread (level + 1) ++ ",")
        :: spreadBindings level rest

def text (pretty : Bool) (l : Layout) : String := if pretty then l.spread 0 else l.compact

end Layout

end Ambient.Text
