import Countersign.Text.Digit
import Countersign.Wording

namespace Countersign

-- An identifier by its hexadecimal digits.
structure Uuid where
  digits : List (Fin 16)
  length_eq : digits.length = 32
  deriving DecidableEq, Repr

namespace Uuid

def ofDigits? (digits : List (Fin 16)) : Option Uuid :=
  if h : digits.length = 32 then some ⟨digits, h⟩ else none

-- The digit of a value, which is taken modulo 16.
def digitOf (n : Nat) : Fin 16 :=
  Fin.ofNat 16 n

def zero : Uuid :=
  ⟨List.replicate 32 (digitOf 0), rfl⟩

-- The digits, grouped by hyphens.
def text (u : Uuid) : String :=
  let digits := u.digits.map fun d => Nat.digitChar d.val
  String.ofList (digits.take 8 ++ '-' :: (digits.drop 8).take 4 ++ '-' :: (digits.drop 12).take 4 ++
    '-' :: (digits.drop 16).take 4 ++ '-' :: digits.drop 20)

def digit? (c : Char) : Option (Fin 16) :=
  (Text.hexDigit? c).map digitOf

def ofPlain? (cs : List Char) : Option Uuid := do
  ofDigits? (← cs.mapM digit?)

-- Removes the four hyphens from a grouped text.
def ungroup? (cs : List Char) : Option (List Char) :=
  if cs.length = 36 ∧ cs[8]? = some '-' ∧ cs[13]? = some '-' ∧ cs[18]? = some '-' ∧
      cs[23]? = some '-' then
    some (cs.take 8 ++ (cs.drop 9).take 4 ++ (cs.drop 14).take 4 ++ (cs.drop 19).take 4 ++
      cs.drop 24)
  else none

-- The grouped text inside braces or behind the name of its namespace.
def unwrap (cs : List Char) : List Char :=
  if cs.length = 38 ∧ cs.head? = some '\x7b' ∧ cs.getLast? = some '\x7d' then (cs.drop 1).take 36
  else if cs.length = 45 ∧ (cs.take 9).map Char.toLower = "urn:uuid:".toList then cs.drop 9
  else cs

-- Reads 32 plain digits, or grouped ones that may stand in braces or behind `urn:uuid:`, in any
-- letter case.
def read [Wording] (s : String) : Except String Uuid :=
  let cs := s.toList
  let found :=
    if cs.length = 32 then ofPlain? cs
    else (ungroup? (unwrap cs)).bind ofPlain?
  match found with
  | some u => .ok u
  | none => .error ("UUID parsing failed: " ++ Wording.uuid s)

end Uuid
end Countersign
