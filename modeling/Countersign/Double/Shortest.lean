import Countersign.Double

namespace Countersign.Double

-- The decimal `0.d₁d₂… · 10 ^ point`.
structure Decimal where
  digits : List Char
  point : Int
  deriving DecidableEq, Repr

-- The open or closed interval of reals that round to a number, over a common denominator.
structure Basin where
  lower : Nat
  value : Nat
  upper : Nat
  den : Nat
  closed : Bool

def basin (d : Double) : Basin :=
  -- Below a power of two the numbers lie twice as dense.
  let below := if d.mantissa = mantissaLimit / 2 ∧ leastExponent < d.exponent then 1 else 2
  let (num, den) := ratio { d with mantissa := 1 }
  { lower := (4 * d.mantissa - below) * num
    value := 4 * d.mantissa * num
    upper := (4 * d.mantissa + 2) * num
    den := 4 * den
    closed := d.mantissa % 2 == 0 }

def Basin.contains (b : Basin) (num den : Nat) : Bool :=
  if b.closed then b.lower * den ≤ num * b.den ∧ num * b.den ≤ b.upper * den
  else b.lower * den < num * b.den ∧ num * b.den < b.upper * den

-- The count of digits before the point; zero or less when the first one stands behind it.
def Basin.magnitude (b : Basin) : Int :=
  if b.den ≤ b.value then (Nat.toDigits 10 (b.value / b.den)).length
  else 1 - ((Nat.toDigits 10 ((b.den + b.value - 1) / b.value - 1)).length : Int)

-- A multiple `count · 10 ^ power`, as a ratio.
def tens (count : Nat) (power : Int) : Nat × Nat :=
  if 0 ≤ power then (count * tenTo power.toNat, 1) else (count, tenTo (-power).toNat)

-- The better of the value's two neighbours among the multiples of `10 ^ power` that read back.
def Basin.neighbour? (b : Basin) (power : Int) : Option Nat :=
  let (unit, unitDen) := tens 1 power
  let low := b.value * unitDen / (b.den * unit)
  let reads (count : Nat) : Bool := b.contains (count * unit) unitDen
  -- twice the distance from the lower neighbour against one step of the grid
  let twice := 2 * (b.value * unitDen - low * (b.den * unit))
  let nearer :=
    if twice < b.den * unit then low
    else if b.den * unit < twice then low + 1
    else low + low % 2
  if reads low && reads (low + 1) then some nearer
  else if reads low then some low
  else if reads (low + 1) then some (low + 1)
  else none

def dropTrailingZeros (digits : List Char) : List Char :=
  (digits.reverse.dropWhile (· == '0')).reverse

-- Tries grids of ever more digits; seventeen digits always suffice.
def Basin.shortest (b : Basin) : (tries digits : Nat) → Decimal
  | 0, _ => ⟨['0'], 1⟩
  | tries + 1, digits =>
    let power := b.magnitude - digits
    match b.neighbour? power with
    | some count =>
      let written := Nat.toDigits 10 count
      ⟨dropTrailingZeros written, written.length + power⟩
    | none => b.shortest tries (digits + 1)

-- The fewest digits that read back as the number, and of those the ones nearest to it.
def decimal (d : Double) : Decimal :=
  if d.isZero then ⟨['0'], 1⟩ else d.basin.shortest 17 1

-- From which and up to which decimal exponent a number is written without an exponent.
structure Positional where
  least : Int
  greatest : Int

-- Numbers are written out from `0.00001` on and below `10 ^ 16`.
def positional : Positional := ⟨-5, 15⟩

def Decimal.write (d : Decimal) : List Char :=
  let exponent := d.point - 1
  let count := d.digits.length
  if exponent < positional.least ∨ positional.greatest < exponent then
    let fraction := if count = 1 then [] else '.' :: d.digits.drop 1
    let sign := if exponent < 0 then '-' else '+'
    d.digits.take 1 ++ fraction ++ 'e' :: sign :: Nat.toDigits 10 exponent.natAbs
  else if exponent < 0 then
    '0' :: '.' :: List.replicate (-d.point).toNat '0' ++ d.digits
  else if count ≤ d.point.toNat then
    d.digits ++ List.replicate (d.point.toNat - count) '0' ++ ['.', '0']
  else
    d.digits.take d.point.toNat ++ '.' :: d.digits.drop d.point.toNat

-- The number's shortest text; it always shows a point or an exponent.
def write (d : Double) : List Char :=
  (if d.negative then ['-'] else []) ++ d.decimal.write

end Countersign.Double
