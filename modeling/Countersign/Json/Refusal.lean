import Countersign.Json.Numeral

namespace Countersign.Scan

variable {α : Type}

-- Refuses the value that comes next. The refusal tells what stands there instead, so the value is
-- read as far as that takes: atoms are read whole, lists and objects are left where they are.
def refuse (expected : String) : Scan α := do
  match ← peek with
  | some (.char 'n') => do skip; word ['u', 'l', 'l']; wrong .null
  | some (.char 't') => do skip; word ['r', 'u', 'e']; wrong (.bool true)
  | some (.char 'f') => do skip; word ['a', 'l', 's', 'e']; wrong (.bool false)
  | some (.char '-') => do skip; wrong (.num (← Numeral.magnitude true))
  | some (.char '"') => do skip; wrong (.str (← string))
  | some (.char '[') => wrong .sequence
  | some (.char '\x7b') => wrong .map
  | some s =>
    if s.isDigit then do wrong (.num (← Numeral.magnitude false)) else failNext .expectedValue
  | none => failNext .expectedValue
where
  wrong (found : Found) : Scan α := reject (.wrongType found expected)

def text (expected : String) : Scan String := do
  match ← token .endInValue with
  | .char '"' => do skip; string
  | _ => refuse expected

end Countersign.Scan
