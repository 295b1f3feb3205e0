namespace Countersign

-- The number `± mantissa · 2 ^ exponent`. Every operation computes exactly and then rounds, so
-- nothing here depends on the machine's floating point unit.
structure Double where
  negative : Bool
  mantissa : Nat
  exponent : Int
  deriving DecidableEq, Repr

namespace Double

-- Exponent of the smallest positive number, and of zero.
def leastExponent : Int := -1074

-- Exponent of the largest numbers.
def greatestExponent : Int := 971

-- Mantissas lie below this, and at least at half of it unless the exponent is the least one.
def mantissaLimit : Nat := 0x20000000000000

def zero (negative : Bool) : Double :=
  ⟨negative, 0, leastExponent⟩

def isZero (d : Double) : Bool :=
  d.mantissa == 0

def neg (d : Double) : Double :=
  { d with negative := !d.negative }

-- The absolute value as a ratio of natural numbers.
def ratio (d : Double) : Nat × Nat :=
  if 0 ≤ d.exponent then (d.mantissa <<< d.exponent.toNat, 1)
  else (d.mantissa, 1 <<< (-d.exponent).toNat)

-- The quotient to the nearest natural number, a half going to the even neighbour.
def divideToEven (num den : Nat) : Nat :=
  let q := num / den
  let r := num % den
  if 2 * r < den then q
  else if den < 2 * r then q + 1
  else q + q % 2

-- The quotient `num / den / 2 ^ e`, as a ratio.
def shift (num den : Nat) (e : Int) : Nat × Nat :=
  if 0 ≤ e then (num, den <<< e.toNat) else (num <<< (-e).toNat, den)

-- The exponent under which the ratio's integer part has 53 bits, if the format reaches that far
-- down.
def exponentFor (num den : Nat) : Int :=
  let e : Int := (num.log2 : Int) - (den.log2 : Int) - 53
  let (n, d) := shift num den e
  max leastExponent (if n / d < mantissaLimit then e else e + 1)

-- The number nearest to a positive ratio; none when that lies beyond the largest one.
def round? (negative : Bool) (num den : Nat) : Option Double :=
  if num = 0 then some (zero negative) else
    let e := exponentFor num den
    let (n, d) := shift num den e
    let m := divideToEven n d
    let (m, e) := if m = mantissaLimit then (mantissaLimit / 2, e + 1) else (m, e)
    if e ≤ greatestExponent then some ⟨negative, m, e⟩ else none

def ofNat? (n : Nat) : Option Double :=
  round? false n 1

def tenTo (k : Nat) : Nat :=
  Nat.pow 10 k

-- The product with the number nearest to `10 ^ k`.
def timesTenTo? (d : Double) (k : Nat) : Option Double := do
  let power ← ofNat? (tenTo k)
  let (n₁, d₁) := d.ratio
  let (n₂, d₂) := power.ratio
  round? d.negative (n₁ * n₂) (d₁ * d₂)

-- The quotient by the number nearest to `10 ^ k`.
def overTenTo? (d : Double) (k : Nat) : Option Double := do
  let power ← ofNat? (tenTo k)
  let (n₁, d₁) := d.ratio
  let (n₂, d₂) := power.ratio
  round? d.negative (n₁ * d₂) (d₁ * n₂)

def isInteger (d : Double) : Bool :=
  let (n, den) := d.ratio
  n % den == 0

end Double
end Countersign
