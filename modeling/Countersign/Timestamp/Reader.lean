import Countersign.Text.Blank
import Countersign.Text.Digit
import Countersign.Timestamp.Basic

namespace Countersign.Timestamp

inductive Fault
  | outOfRange
  | impossible
  | invalid
  | tooShort
  | tooLong
  deriving DecidableEq, Repr

def Fault.message : Fault → String
  | outOfRange => "input is out of range"
  | impossible => "no possible date and time matching input"
  | invalid => "input contains invalid characters"
  | tooShort => "premature end of input"
  | tooLong => "trailing input"

abbrev Reader (α : Type) := StateT (List Char) (Except Fault) α

def blanks : Reader Unit :=
  modify (·.dropWhile Text.isBlank)

-- The first number that does not fit.
def numberLimit : Nat := 0x8000000000000000

-- Digits from the front of the text, at least one and at most `width`, if that is given.
def number (width : Option Nat) : Reader Nat := fun cs =>
  let digits := (cs.take (width.getD cs.length)).takeWhile Char.isDigit
  if cs.isEmpty then .error .tooShort
  else if digits.isEmpty then .error .invalid
  else
    let n := Text.decimal digits
    if n < numberLimit then .ok (n, cs.drop digits.length) else .error .outOfRange

-- A number of at most two digits between two bounds.
def field (least greatest : Nat) : Reader Nat := do
  blanks
  let n ← number (some 2)
  if least ≤ n ∧ n ≤ greatest then return n else throw .outOfRange

def literal (c : Char) : Reader Unit := do
  match ← get with
  | [] => throw .tooShort
  | d :: rest => if d = c then set rest else throw .invalid

-- The first year that does not fit.
def yearLimit : Int := 0x80000000

def year : Reader Int := do
  blanks
  let year : Int ← match ← get with
    | '-' :: rest => do set rest; pure (-((← number none) : Int))
    | '+' :: rest => do set rest; pure ((← number none) : Int)
    | _ => pure ((← number (some 4)) : Int)
  if -yearLimit ≤ year ∧ year < yearLimit then return year else throw .outOfRange

def date : Reader Calendar.Date := do
  let y ← year
  blanks
  literal '-'
  let m ← field 1 12
  blanks
  literal '-'
  return ⟨y, m, ← field 1 31⟩

def separator : Reader Unit := do
  match ← get with
  | 'T' :: rest | 't' :: rest | ' ' :: rest => set rest
  | _ :: _ => throw .invalid
  | [] => throw .tooShort

-- Nanoseconds of a fraction; digits beyond the ninth are dropped.
def fraction : Reader Nat := do
  match ← get with
  | '.' :: rest => do
    set rest
    let n ← number (some 9)
    let count := rest.length - (← get).length
    modify (·.dropWhile Char.isDigit)
    return n * Nat.pow 10 (9 - count)
  | _ => return 0

-- Seconds since midnight and nanoseconds, with a leap second counted into the latter.
def timeOfDay : Reader (Nat × Nat) := do
  let h ← field 0 23
  blanks
  literal ':'
  let m ← field 0 59
  blanks
  literal ':'
  let s ← field 0 60
  let nanos ← fraction
  blanks
  if s = 60 then return (h * 3600 + m * 60 + 59, nanos + 1000000000)
  else return (h * 3600 + m * 60 + s, nanos)

def digitPair : Reader (Nat × Nat) := do
  match ← get with
  | a :: b :: rest =>
    if a.isDigit ∧ b.isDigit then do
      set rest
      return (Text.decimal [a], Text.decimal [b])
    else throw .invalid
  | [a] => throw (if a.utf8Size < 2 then .tooShort else .invalid)
  | [] => throw .tooShort

-- Seconds east of universal time.
def offset : Reader Int := do
  match ← get with
  | 'Z' :: rest | 'z' :: rest => do set rest; return 0
  | '+' :: rest => do set rest; return (← distance : Nat)
  | '-' :: rest | '\u2212' :: rest => do set rest; return -(← distance : Nat)
  | _ :: _ => throw .invalid
  | [] => throw .tooShort
where
  distance : Reader Nat := do
    let (h₁, h₂) ← digitPair
    modify (·.dropWhile fun c => c == ':' || Text.isBlank c)
    let (m₁, m₂) ← digitPair
    if m₁ < 6 then return (h₁ * 10 + h₂) * 3600 + (m₁ * 10 + m₂) * 60 else throw .outOfRange

def zone : Reader Int := do
  match ← get with
  | u :: t :: c :: rest =>
    if u.toUpper = 'U' ∧ t.toUpper = 'T' ∧ c.toUpper = 'C' then do set rest; return 0
    else offset
  | _ => offset

-- The first and the last year of the calendar.
def years : Int × Int := (-262143, 262142)

def inCalendar (year : Int) : Bool :=
  years.1 ≤ year && year ≤ years.2

-- The point in time of a local date and time.
def ofLocal (date : Calendar.Date) (seconds nanos : Nat) (offset : Int) : Except Fault Timestamp :=
  if !date.isValid || !inCalendar date.year || 86400 ≤ offset.natAbs then .error .outOfRange
  else
    let seconds : Int := seconds - offset
    let days := date.toDays + seconds / 86400
    if inCalendar (Calendar.ofDays days).year then .ok ⟨days, (seconds % 86400).toNat, nanos⟩
    else .error .impossible

-- Blanks may stand before every number and before the offset, numbers need no leading zeros, and
-- years may have a sign and then any number of digits. A second numbered 60 is a leap second.
def reader : Reader Timestamp := do
  let date ← date
  separator
  let (seconds, nanos) ← timeOfDay
  let offset ← zone
  blanks
  if (← get).isEmpty then ofLocal date seconds nanos offset else throw .tooLong

def read (s : String) : Except String Timestamp :=
  (reader.run' s.toList).mapError Fault.message

end Countersign.Timestamp
