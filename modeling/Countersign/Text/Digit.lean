namespace Countersign.Text

def digit? (c : Char) : Option Nat :=
  if '0' ≤ c ∧ c ≤ '9' then some (c.toNat - '0'.toNat) else none

def hexDigit? (c : Char) : Option Nat :=
  if 'a' ≤ c ∧ c ≤ 'f' then some (c.toNat - 'a'.toNat + 10)
  else if 'A' ≤ c ∧ c ≤ 'F' then some (c.toNat - 'A'.toNat + 10)
  else digit? c

-- The number whose digits have the given values, the highest digit first.
def number (base : Nat) (values : List Nat) : Nat :=
  values.foldl (fun n d => n * base + d) 0

-- The number that decimal digits stand for; other characters are passed over.
def decimal (cs : List Char) : Nat :=
  number 10 (cs.filterMap digit?)

end Countersign.Text
