import Countersign.Json.Fault
import Countersign.Text.Exhaust

namespace Countersign

-- Takes what it needs from the front of a text and leaves the rest.
abbrev Scan (α : Type) := StateT Symbols (Except Fault) α

namespace Scan

variable {α σ : Type}

def fail (m : Malformation) : Scan α :=
  fun s => .error ⟨.malformed m, .left s.byteCount⟩

-- Stops behind the next byte.
def failNext (m : Malformation) : Scan α :=
  fun s => .error ⟨.malformed m, .left (s.byteCount - 1)⟩

-- The value just read does not fit.
def reject (m : Mismatch) : Scan α :=
  fun s => .error ⟨.mismatched m, .left s.byteCount⟩

-- What the record around this point holds does not fit.
def rejectRecord (m : Mismatch) : Scan α :=
  fun s => .error ⟨.mismatched m, .reached s⟩

-- Places a fault that is still without one where `close` leaves the text.
def placedBy (close : Symbols → Symbols) (p : Scan α) : Scan α := fun s =>
  match p s with
  | .error ⟨cause, .reached rest⟩ => .error ⟨cause, .left (close rest).byteCount⟩
  | r => r

def skip : Scan Unit :=
  modify (·.drop 1)

def peek : Scan (Option Symbol) :=
  return (← get).head?

-- The next symbol that is no blank, left where it is.
def token (atEnd : Malformation) : Scan Symbol := do
  modify Symbols.dropBlanks
  match ← peek with
  | some s => return s
  | none => fail atEnd

-- Reads the given characters, the rest of a word whose first letter told it apart.
def word : List Char → Scan Unit
  | [] => pure ()
  | c :: cs => do
    match ← peek with
    | none => fail .endInValue
    | some s => if s = .char c then do skip; word cs else failNext .expectedWord

-- Enters a bracket, if `depth` allows one more.
def nested (depth : Nat) (inner : Nat → Scan α) : Scan α :=
  match depth with
  | 0 => failNext .nestedTooDeep
  | depth + 1 => do skip; inner depth

section Strings

def hexQuad : Scan Nat := fun s =>
  match s with
  | a :: b :: c :: d :: rest =>
    match a.hexDigit?, b.hexDigit?, c.hexDigit?, d.hexDigit? with
    | some a, some b, some c, some d => .ok (((a * 16 + b) * 16 + c) * 16 + d, rest)
    | _, _, _, _ => .error ⟨.malformed .invalidEscape, .left (s.byteCount - 4)⟩
  | _ =>
    if s.byteCount < 4 then .error ⟨.malformed .endInString, .left 0⟩
    else .error ⟨.malformed .invalidEscape, .left (s.byteCount - 4)⟩

-- Reads a character that must come next inside an escape.
def expectInEscape (c : Char) : Scan Unit := do
  match ← peek with
  | none => fail .endInString
  | some s => if s = .char c then skip else failNext .unfinishedSurrogates

def isHighSurrogate (n : Nat) : Bool := 0xD800 ≤ n && n ≤ 0xDBFF

def isLowSurrogate (n : Nat) : Bool := 0xDC00 ≤ n && n ≤ 0xDFFF

-- The code point of an escape whose letter `u` has been read; two surrogates make one.
def codePoint : Scan Char := do
  let n ← hexQuad
  if isLowSurrogate n then fail .loneSurrogate
  else if isHighSurrogate n then do
    expectInEscape '\\'
    expectInEscape 'u'
    let m ← hexQuad
    if isLowSurrogate m then return Char.ofNat (0x10000 + (n - 0xD800) * 0x400 + (m - 0xDC00))
    else fail .loneSurrogate
  else return Char.ofNat n

def escaped? : Char → Option Char
  | '"' => some '"'
  | '\\' => some '\\'
  | '/' => some '/'
  | 'b' => some '\x08'
  | 'f' => some '\x0c'
  | 'n' => some '\n'
  | 'r' => some '\r'
  | 't' => some '\t'
  | _ => none

def escape : Scan Char := do
  match ← peek with
  | none => fail .endInString
  | some (.char 'u') => do skip; codePoint
  | some (.char c) =>
    match escaped? c with
    | some c => do skip; return c
    | none => failNext .invalidEscape
  | some (.stray _) => failNext .invalidEscape

-- The next character of a string, or a stray byte in it; none at its closing quote, which is taken
-- as well.
def character : Scan (Option Symbol) := do
  match ← peek with
  | none => fail .endInString
  | some (.char '"') => do skip; return none
  | some (.char '\\') => do skip; return some (.char (← escape))
  | some (.char c) =>
    if c.toNat < 0x20 then failNext .controlCharacter else do skip; return some (.char c)
  | some (.stray b) => do skip; return some (.stray b)

-- The rest of a string, up to and with its closing quote. A stray byte is refused only when nothing
-- else is wrong with the string; its place is counted back from the closing quote over the string's
-- own characters, with every escape counted as the character it stands for.
def string : Scan String := do
  let reversed ← exhaust (fun symbols => do return (← character).map (· :: symbols)) []
  let symbols := reversed.reverse
  if symbols.all Symbol.isChar then return String.ofList (Symbols.chars symbols)
  else fun s =>
    .error ⟨.malformed .invalidCodePoint,
      .left (s.byteCount + Symbols.byteCount (symbols.dropWhile Symbol.isChar))⟩

end Strings

section Lists

-- Whether a list goes on; its bracket is left where it is.
def another (first : Bool) : Scan Bool := do
  match ← token .endInList with
  | .char ']' => return false
  | .char ',' =>
    if first then return true else do
      skip
      match ← token .endInValue with
      | .char ']' => failNext .trailingComma
      | _ => return true
  | _ => if first then return true else failNext .expectedListSeparator

-- Leaves a list; of items that nobody asked for the first comma is taken.
def endList : Scan Unit := do
  match ← token .endInList with
  | .char ']' => skip
  | .char ',' => do
    skip
    modify Symbols.dropBlanks
    match ← peek with
    | some (.char ']') => failNext .trailingComma
    | _ => failNext .trailingCharacters
  | _ => failNext .trailingCharacters

-- The text behind a list, however it ends.
def afterList (s : Symbols) : Symbols :=
  match s.dropBlanks with
  | .char ']' :: rest => rest
  | .char ',' :: rest => Symbols.dropBlanks rest
  | rest => rest

def list (item : Scan α) : Scan (List α) := do
  let (_, reversed) ← exhaust (fun (first, items) => do
    if ← another first then return some (false, (← item) :: items) else return none) (true, [])
  endList
  return reversed.reverse

end Lists

section Objects

-- The next key of an object, if there is one; the closing bracket is left where it is.
def nextKey (first : Bool) : Scan (Option String) := do
  match ← token .endInObject with
  | .char '\x7d' => return none
  | .char '"' => if first then do skip; return some (← string) else failNext .expectedObjectSeparator
  | .char ',' =>
    if first then failNext .keyNotString else do
      skip
      match ← token .endInValue with
      | .char '"' => do skip; return some (← string)
      | .char '\x7d' => failNext .trailingComma
      | _ => failNext .keyNotString
  | _ => failNext (if first then .keyNotString else .expectedObjectSeparator)

def colon : Scan Unit := do
  match ← token .endInObject with
  | .char ':' => skip
  | _ => failNext .expectedColon

def endObject : Scan Unit := do
  match ← token .endInObject with
  | .char '\x7d' => skip
  | .char ',' => failNext .trailingComma
  | _ => failNext .trailingCharacters

-- The text behind an object, however it ends.
def afterObject (s : Symbols) : Symbols :=
  match s.dropBlanks with
  | .char '\x7d' :: rest => rest
  | rest => rest

-- The key of an object that may have no other.
def onlyKey : Scan String := do
  match ← token .endInObject with
  | .char '"' => do skip; string
  | .char '\x7d' => failNext .expectedValue
  | _ => failNext .keyNotString

-- The members of an object from some point on, each taken in by `member`; `first` says whether none
-- has been read so far.
def membersFrom (first : Bool) (member : σ → String → Scan σ) (start : σ) : Scan σ := do
  let (_, st) ← exhaust (fun (first, st) => do
    match ← nextKey first with
    | some key => return some (false, ← member st key)
    | none => return none) (first, start)
  return st

def members (member : σ → String → Scan σ) (start : σ) : Scan σ :=
  membersFrom true member start

end Objects

def finish : Scan Unit := do
  modify Symbols.dropBlanks
  match ← peek with
  | none => return ()
  | some _ => failNext .trailingCharacters

def all (p : Scan α) (text : Symbols) : Except Fault α :=
  (do let a ← p; finish; return a : Scan α).run' text

end Scan
end Countersign
