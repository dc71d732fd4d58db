import Ambient.Table
import Ambient.Text.Quoted

/-! Failures. Capturing never fails; a failure comes from an accessor that could not
write, from a write to a key without an accessor, or from an environment variable that
does not read. -/

namespace Ambient

inductive Failure where
  | accessor (key : Key) (message : String)
  /-- A write was addressed to a key that has no accessor. -/
  | unknownKey (key : Key)
  /-- An environment variable does not hold what it has to. -/
  | setting (name value reason : String)
  deriving DecidableEq, Repr

namespace Failure

def key? : Failure → Option Key
  | accessor key _ => some key
  | unknownKey key => some key
  | setting _ _ _ => none

def message : Failure → String
  | accessor key message => s!"accessor for `{key}` failed: {message}"
  | unknownKey key => s!"no accessor registered for `{key}`"
  | setting name value reason =>
    "invalid value for " ++ name ++ ": " ++ reason ++ " (got " ++ Text.quote value ++ ")"

end Failure

end Ambient
