import Countersign.Json.Scan

namespace Countersign.Numeral

-- Digits from the front of the text as long as the number they make stays below `limit`: the
-- number, their count and the rest.
def accumulate (limit : Nat) (value count : Nat) : Symbols → Nat × Nat × Symbols
  | [] => (value, count, [])
  | s :: rest =>
    match s.digit? with
    | some d =>
      if value * 10 + d < limit then accumulate limit (value * 10 + d) (count + 1) rest
      else (value, count, s :: rest)
    | none => (value, count, s :: rest)

def skipDigits (count : Nat) : Symbols → Nat × Symbols
  | [] => (count, [])
  | s :: rest => if s.isDigit then skipDigits (count + 1) rest else (count, s :: rest)

def startsWithDigit : Symbols → Bool
  | s :: _ => s.isDigit
  | [] => false

-- The first significand that does not fit.
def significandLimit : Nat := UInt64.size

def exponentLimit : Nat := 0x80000000

-- The greatest power of ten that a floating point number holds.
def greatestPower : Nat := 308

-- Scales a number by a power of ten, going down in steps of the greatest power.
def scale (d : Double) (exponent : Int) : Option Double :=
  if 0 ≤ exponent then
    if exponent.toNat ≤ greatestPower then d.timesTenTo? exponent.toNat
    else if d.isZero then some d else none
  else down d exponent.natAbs exponent.natAbs
where
  down (d : Double) (power : Nat) : (fuel : Nat) → Option Double
    | 0 => some d
    | fuel + 1 =>
      if power ≤ greatestPower then d.overTenTo? power
      else if d.isZero then some d
      else (d.overTenTo? greatestPower).bind fun d => down d (power - greatestPower) fuel

def signed (negative : Bool) (d : Double) : Double :=
  if negative then d.neg else d

-- The floating point number of a significand and a power of ten.
def float (negative : Bool) (significand : Nat) (exponent : Int) : Scan Number := fun s =>
  match (Double.ofNat? significand).bind (scale · exponent) with
  | some d => .ok (.double (signed negative d), s)
  | none => Scan.fail .numberOutOfRange s

-- The part from the letter `e` on.
def exponent (negative : Bool) (significand : Nat) (before : Int) : Scan Number := do
  Scan.skip
  let below ← do
    match ← Scan.peek with
    | some (.char '+') => do Scan.skip; pure false
    | some (.char '-') => do Scan.skip; pure true
    | _ => pure false
  match ← Scan.peek with
  | none => Scan.fail .endInValue
  | some s =>
    if !s.isDigit then Scan.failNext .invalidNumber else do
      let (power, _, rest) := accumulate exponentLimit 0 0 (← get)
      set rest
      if startsWithDigit rest then
        if significand ≠ 0 ∧ !below then do
          Scan.skip
          Scan.fail .numberOutOfRange
        else do
          set (skipDigits 0 rest).2
          return .double (.zero negative)
      else
        float negative significand (if below then before - power else before + power)

-- The end of a floating point numeral: an exponent or nothing.
def floatEnd (negative : Bool) (significand : Nat) (before : Int) : Scan Number := do
  match ← Scan.peek with
  | some (.char 'e') | some (.char 'E') => exponent negative significand before
  | _ => float negative significand before

-- The part from the point on; `before` is the power of ten of the significand so far. Digits that
-- do not fit the significand any more change nothing.
def fraction (negative : Bool) (significand : Nat) (before : Int) : Scan Number := do
  Scan.skip
  let (significand, count, rest) := accumulate significandLimit significand 0 (← get)
  if startsWithDigit rest then do
    set (skipDigits 0 rest).2
    floatEnd negative significand (before - count)
  else if count = 0 then do
    match rest with
    | [] => Scan.fail .endInValue
    | _ => Scan.failNext .invalidNumber
  else do
    set rest
    floatEnd negative significand (before - count)

def leastInteger : Nat := 0x8000000000000000

-- The number of an integer numeral; there is no negative zero among the integers.
def integer (negative : Bool) (n : Nat) : Scan Number :=
  if !negative then return .int n
  else if n = 0 ∨ leastInteger < n then float true n 0
  else return .int (-n)

-- A numeral behind its sign. An integer within 64 bits is kept exactly. Of any other numeral the
-- leading digits that fit 64 bits are scaled by one power of ten, so the last bit of the number may
-- differ from the nearest one.
def magnitude (negative : Bool) : Scan Number := do
  match ← Scan.peek with
  | none => Scan.fail .endInValue
  | some (.char '0') => do
    Scan.skip
    if startsWithDigit (← get) then Scan.failNext .invalidNumber else tail 0 0
  | some s =>
    if !s.isDigit then Scan.failNext .invalidNumber else do
      let (n, _, rest) := accumulate significandLimit 0 0 (← get)
      let (extra, rest) := skipDigits 0 rest
      set rest
      tail n extra
where
  -- What follows the integer digits, `extra` of which did not fit.
  tail (n extra : Nat) : Scan Number := do
    match ← Scan.peek with
    | some (.char '.') => fraction negative n extra
    | some (.char 'e') | some (.char 'E') => exponent negative n extra
    | _ => if extra = 0 then integer negative n else float negative n extra

end Countersign.Numeral
