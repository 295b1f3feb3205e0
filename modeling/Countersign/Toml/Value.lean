import Countersign.Double
import Countersign.Timestamp.Calendar
import Countersign.Toml.Scan
import Countersign.Toml.Table

namespace Countersign.Toml.Scan

section Moments

def twoDigits (least greatest : Nat) : Scan Nat := do
  let digits := (← get).take 2
  skip 2
  let n := Text.decimal digits
  if digits.length = 2 ∧ digits.all Char.isDigit ∧ least ≤ n ∧ n ≤ greatest then return n
  else failure

def startsTime : List Char → Bool
  | a :: b :: ':' :: _ => a.isDigit && b.isDigit && Text.decimal [a, b] ≤ 23
  | _ => false

def startsDate : List Char → Bool
  | a :: b :: c :: d :: '-' :: _ => [a, b, c, d].all Char.isDigit
  | _ => false

def time : Scan Unit := do
  let _ ← twoDigits 0 23
  expect [':']
  let _ ← twoDigits 0 59
  expect [':']
  let _ ← twoDigits 0 60
  if ← take? ['.'] then
    let digits ← takeWhile Char.isDigit
    if digits.isEmpty then failure

def offset : Scan Unit := do
  match ← peek with
  | some 'Z' | some 'z' => skip 1
  | some '+' | some '-' => do
    skip 1
    let _ ← twoDigits 0 23
    expect [':']
    let _ ← twoDigits 0 59
  | _ => pure ()

def dateTime : Scan Unit := do
  let year := Text.decimal ((← get).take 4)
  skip 5
  let month ← twoDigits 1 12
  expect ['-']
  let _ ← twoDigits 1 (Calendar.monthLength year month)
  match ← get with
  | 'T' :: rest | 't' :: rest | ' ' :: rest =>
    if startsTime rest then do skip 1; time; offset
  | _ => pure ()

end Moments

section Numbers

-- Digits that single underscores may separate.
def spacedDigits (isDigit : Char → Bool) : Scan (List Char) := do
  let first ← takeWhile isDigit
  if first.isEmpty then failure
  exhaust (fun digits => do
    if ← take? ['_'] then
      let more ← takeWhile isDigit
      if more.isEmpty then failure else return some (digits ++ more)
    else return none) first

-- The first integer that does not fit.
def integerLimit : Nat := 0x8000000000000000

def inBase (base : Nat) : Scan Item := do
  let digits ← spacedDigits fun c => (Text.hexDigit? c).any (· < base)
  let n := Text.number base (digits.filterMap Text.hexDigit?)
  if n < integerLimit then return .integer n else failure

-- Whether `digits · 10 ^ exponent` is too large for a floating point number.
def overflows (digits : List Char) (exponent : Int) : Bool :=
  let digits := digits.dropWhile (· == '0')
  let magnitude : Int := digits.length + exponent
  if digits.isEmpty ∨ magnitude < -400 then false
  else if 400 < magnitude then true
  else if 0 ≤ exponent then (Double.ofNat? (Text.decimal digits * Double.tenTo exponent.toNat)).isNone
  else (Double.round? false (Text.decimal digits) (Double.tenTo (-exponent).toNat)).isNone

-- The end of a floating point number, from the digits of its integer part on.
def floatTail (negative : Bool) (whole : List Char) : Scan Item := do
  let fraction ← if ← take? ['.'] then spacedDigits Char.isDigit else pure []
  let exponent : Int ← do
    match ← peek with
    | some 'e' | some 'E' => do
      skip 1
      let below ← take? ['-']
      let _ ← if below then pure false else take? ['+']
      let n := Text.decimal (← spacedDigits Char.isDigit)
      pure (if below then -(n : Int) else n)
    | _ => pure 0
  if !negative ∧ overflows (whole ++ fraction) (exponent - fraction.length) then failure
  else return .float

-- The digits of a decimal integer; only zero begins with a zero.
def decimalDigits : Scan (List Char) := do
  if ← take? ['0'] then return ['0'] else spacedDigits Char.isDigit

def decimal (negative : Bool) : Scan Item := do
  let digits ← decimalDigits
  match ← peek with
  | some '.' | some 'e' | some 'E' => floatTail negative digits
  | _ =>
    let n := Text.decimal digits
    if negative ∧ n ≤ integerLimit then return .integer (-n)
    else if n < integerLimit then return .integer n
    else failure

def signed (negative : Bool) : Scan Item := do
  if ← take? ['i', 'n', 'f'] then return .float
  else if ← take? ['n', 'a', 'n'] then return .float
  else decimal negative

def numeral : Scan Item := do
  let cs ← get
  if startsDate cs then do dateTime; return .moment
  else if startsTime cs then do time; return .moment
  else if ← take? ['+'] then signed false
  else if ← take? ['-'] then signed true
  else if ← take? ['0', 'x'] then inBase 16
  else if ← take? ['0', 'o'] then inBase 8
  else if ← take? ['0', 'b'] then inBase 2
  else decimal false

end Numbers

-- The items of an array whose bracket has been read; a comma may stand behind the last one.
def arrayItems (item : Scan Item) : Scan (List Item) := do
  let reversed ← exhaust (fun items => do
    gap
    if [']'].isPrefixOf (← get) then return none
    let i ← item
    gap
    if ← take? [','] then return some (i :: items)
    else if [']'].isPrefixOf (← get) then return some (i :: items)
    else failure) []
  expect [']']
  return reversed.reverse

-- The entries of an inline table whose bracket has been read.
def inlineEntries (item : Scan Item) : Scan Entries := do
  blanks
  if ← take? ['\x7d'] then return []
  let entry (entries : Entries) : Scan Entries := do
    let (path, last) ← key
    expect ['=']
    blanks
    let i ← item
    blanks
    assign path last i .inlined entries
  let entries ← exhaust (fun entries => do
    if ← take? [','] then return some (← entry entries) else return none) (← entry [])
  expect ['\x7d']
  return entries

-- How deep arrays and inline tables may be nested.
def depthLimit : Nat := 79

-- A value, with `depth` more brackets allowed.
def value (depth : Nat) : Scan Item := do
  match ← peek with
  | some '"' => return .text (← basicString)
  | some '\'' => return .text (← literalString)
  | some '[' =>
    match depth with
    | 0 => failure
    | depth + 1 => do skip 1; return .array (← arrayItems (value depth))
  | some '\x7b' =>
    match depth with
    | 0 => failure
    | depth + 1 => do skip 1; return .table .inlined (← inlineEntries (value depth))
  | some 't' => do expect ['t', 'r', 'u', 'e']; return .flag true
  | some 'f' => do expect ['f', 'a', 'l', 's', 'e']; return .flag false
  | some 'i' => do expect ['i', 'n', 'f']; return .float
  | some 'n' => do expect ['n', 'a', 'n']; return .float
  | some c => if c.isDigit ∨ c = '+' ∨ c = '-' then numeral else failure
  | none => failure

end Countersign.Toml.Scan
