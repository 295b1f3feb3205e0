import Countersign.Json.Scan

namespace Countersign.Extent

inductive Bracket
  | list
  | object
  deriving DecidableEq, Repr

namespace Bracket

def closing : Bracket → Char
  | list => ']'
  | object => '\x7d'

def atEnd : Bracket → Malformation
  | list => .endInList
  | object => .endInObject

def noSeparator : Bracket → Malformation
  | list => .expectedListSeparator
  | object => .expectedObjectSeparator

end Bracket

def escape : Scan Unit := do
  match ← Scan.peek with
  | none => Scan.fail .endInString
  | some (.char 'u') => do
    Scan.skip
    let _ ← Scan.hexQuad
  | some (.char c) =>
    match Scan.escaped? c with
    | some _ => Scan.skip
    | none => Scan.failNext .invalidEscape
  | some (.stray _) => Scan.failNext .invalidEscape

-- Passes one character of a string; none at its closing quote, which is taken as well.
def character : Scan (Option Unit) := do
  match ← Scan.peek with
  | none => Scan.fail .endInString
  | some (.char '"') => do Scan.skip; return none
  | some (.char '\\') => do Scan.skip; escape; return some ()
  | some (.char c) => if c.toNat < 0x20 then Scan.fail .controlCharacter else do Scan.skip; return some ()
  | some (.stray _) => do Scan.skip; return some ()

-- The rest of a string, up to and with its closing quote.
def string : Scan Unit :=
  exhaust (fun _ => character) ()

def digits : Scan Unit :=
  modify (·.dropWhile Symbol.isDigit)

def someDigits : Scan Unit := do
  match ← Scan.peek with
  | some s => if s.isDigit then digits else Scan.failNext .invalidNumber
  | none => Scan.fail .invalidNumber

def exponent : Scan Unit := do
  match ← Scan.peek with
  | some (.char 'e') | some (.char 'E') => do
    Scan.skip
    match ← Scan.peek with
    | some (.char '+') | some (.char '-') => Scan.skip
    | _ => pure ()
    someDigits
  | _ => pure ()

def magnitude : Scan Unit := do
  match ← Scan.peek with
  | some (.char '0') => do
    Scan.skip
    match ← Scan.peek with
    | some s => if s.isDigit then Scan.failNext .invalidNumber else pure ()
    | none => pure ()
  | _ => someDigits
  match ← Scan.peek with
  | some (.char '.') => do Scan.skip; someDigits
  | _ => pure ()
  exponent

-- Passes a value without parts, or enters a bracket.
def enter : Scan (Option Bracket) := do
  match ← Scan.token .endInValue with
  | .char 'n' => do Scan.skip; Scan.word ['u', 'l', 'l']; return none
  | .char 't' => do Scan.skip; Scan.word ['r', 'u', 'e']; return none
  | .char 'f' => do Scan.skip; Scan.word ['a', 'l', 's', 'e']; return none
  | .char '"' => do Scan.skip; string; return none
  | .char '-' => do Scan.skip; magnitude; return none
  | .char '[' => do Scan.skip; return some .list
  | .char '\x7b' => do Scan.skip; return some .object
  | s => if s.isDigit then do magnitude; return none else Scan.failNext .expectedValue

-- Passes what stands before the next value inside a bracket: nothing in a list, a key and its colon
-- in an object.
def key : Bracket → Scan Unit
  | .list => pure ()
  | .object => do
    match ← Scan.token .endInObject with
    | .char '"' => do Scan.skip; string; Scan.colon
    | _ => Scan.failNext .keyNotString

-- Closes brackets as long as they close, `afterItem` saying whether a value stands before this
-- point. The brackets left are those in which another value follows; none when all are closed.
def close (afterItem : Bool) : List Bracket → Scan (Option (List Bracket))
  | [] => return none
  | b :: outer => do
    let s ← Scan.token b.atEnd
    if s = .char b.closing then do Scan.skip; close true outer
    else if !afterItem then do key b; return some (b :: outer)
    else if s = .char ',' then do Scan.skip; key b; return some (b :: outer)
    else Scan.failNext b.noSeparator

-- Passes a value of the innermost bracket and whatever closes behind it.
def step (brackets : List Bracket) : Scan (Option (List Bracket)) := do
  match ← enter with
  | some b => close false (b :: brackets)
  | none => close true brackets

-- Passes the next value without building it. The text is checked for its form only: brackets may be
-- nested without limit, numerals may be of any size and surrogates may stand alone.
def value : Scan Unit := do
  let _ ← exhaust step []

-- The text of the next value, without the blanks around it.
def raw : Scan String := do
  modify Symbols.dropBlanks
  let start ← get
  value
  let rest ← get
  return String.ofList (Symbols.chars (start.take (start.length - rest.length)))

end Countersign.Extent
