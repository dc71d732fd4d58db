import Ambient.Text.Combining
import Ambient.Text.Printable

/-! Quoted text, as messages show a text that may hold anything. A text is put in
double quotes; quotes, backslashes and the commonest controls are escaped by name,
all else that would not show, or would change the character before it, by number. -/

namespace Ambient.Text

/-- The hexadecimal digits of a number, in lower case. -/
def hex (n : Nat) : String := String.ofList (Nat.toDigits 16 n)

/-- A character as it stands inside quotes. -/
def escape (c : Char) : String :=
  match c with
  | '\x00' => "\\0"
  | '\t' => "\\t"
  | '\n' => "\\n"
  | '\r' => "\\r"
  | '"' => "\\\""
  | '\\' => "\\\\"
  | c =>
    if isCombining c || !isPrintable c then "\\u\x7b" ++ hex c.toNat ++ "\x7d"
    else c.toString

def quote (s : String) : String := "\"" ++ String.join (s.toList.map escape) ++ "\""

end Ambient.Text
