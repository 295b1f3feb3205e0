import Countersign.Timestamp.Calendar

namespace Countersign

-- A point in time to the nanosecond. In a leap second the nanoseconds go beyond one second.
structure Timestamp where
  -- Days since the first of January of 1970.
  days : Int
  -- Seconds since midnight.
  seconds : Nat
  nanos : Nat
  deriving DecidableEq, Repr

namespace Timestamp

def ofUnix (seconds : Int) : Timestamp :=
  ⟨seconds / 86400, (seconds % 86400).toNat, 0⟩

-- The number in decimal, filled up to a width by zeros.
def padded (width n : Nat) : List Char :=
  let digits := Nat.toDigits 10 n
  List.replicate (width - digits.length) '0' ++ digits

-- Years of other than four digits carry a sign.
def yearText (year : Int) : List Char :=
  if year < 0 then '-' :: padded 4 year.natAbs
  else if 9999 < year then '+' :: padded 4 year.natAbs
  else padded 4 year.natAbs

-- The fraction of a second by three, six or nine digits, as few as are exact.
def fractionText (nanos : Nat) : List Char :=
  if nanos = 0 then []
  else if nanos % 1000000 = 0 then '.' :: padded 3 (nanos / 1000000)
  else if nanos % 1000 = 0 then '.' :: padded 6 (nanos / 1000)
  else '.' :: padded 9 nanos

-- Always in universal time.
def text (t : Timestamp) : String :=
  let date := Calendar.ofDays t.days
  let leap := t.nanos / 1000000000
  String.ofList (yearText date.year ++ '-' :: padded 2 date.month ++ '-' :: padded 2 date.day ++
    'T' :: padded 2 (t.seconds / 3600) ++ ':' :: padded 2 (t.seconds / 60 % 60) ++
    ':' :: padded 2 (t.seconds % 60 + leap) ++ fractionText (t.nanos % 1000000000) ++ ['Z'])

end Timestamp
end Countersign
