import Countersign.Text.Alphanumeric
import Countersign.Text.Digit
import Countersign.Text.Exhaust

namespace Countersign.Pattern

abbrev Reader (α : Type) := StateT (List Char) Option α

-- What an escape or a member of a bracket stands for.
inductive Item
  | literal (c : Char)
  | several
  | place
  deriving DecidableEq, Repr

def skip : Reader Unit :=
  modify (·.drop 1)

-- The character with the given code point, in exactly `width` hexadecimal digits.
def codePoint (width : Nat) : Reader Item := do
  let digits := ((← get).take width).filterMap Text.hexDigit?
  let n := Text.number 16 digits
  if digits.length = width ∧ n.isValidChar then do
    modify (·.drop width)
    return .literal (Char.ofNat n)
  else failure

-- A class of characters named by one letter.
def category : Reader Item := do
  match ← get with
  | c :: rest =>
    if "clmnpsz".toList.contains c.toLower then do set rest; return .several else failure
  | [] => failure

-- What follows a backslash. Signs may be escaped, but letters and digits only if they mean
-- something.
def escape : Reader Item := do
  match ← get with
  | [] => failure
  | c :: rest => do
    set rest
    match c with
    | 'x' => codePoint 2
    | 'u' => codePoint 4
    | 'U' => codePoint 8
    | 'p' | 'P' => category
    | 'd' | 'D' | 's' | 'S' | 'w' | 'W' => return .several
    | 'a' => return .literal '\x07'
    | 'f' => return .literal '\x0c'
    | 'v' => return .literal '\x0b'
    | 't' => return .literal '\t'
    | 'n' => return .literal '\n'
    | 'r' => return .literal '\r'
    | 'A' | 'z' => return .place
    | '<' | '>' => failure
    | c => if c.toNat < 0x80 ∧ !c.isAlphanum then return .literal c else failure

section Brackets

-- One end of a range in brackets, or a member by itself.
def member : Reader Item := do
  match ← get with
  | [] => failure
  | '\\' :: rest => do
    set rest
    match ← escape with
    | .place => failure
    | item => return item
  | c :: rest => do set rest; return .literal c

-- A member of a bracket or a range, which must not run backwards.
def range : Reader Unit := do
  let first ← member
  match ← get with
  | [] => failure
  | '-' :: rest =>
    match rest with
    | ']' :: _ | '-' :: _ => return ()
    | _ => do
      set rest
      match first, ← member with
      | .literal a, .literal b => if a ≤ b then return () else failure
      | _, _ => failure
  | _ => return ()

-- The signs behind an opening bracket that mean something else there: a negation, hyphens, and a
-- closing bracket that is a member.
def opening : Reader Unit := do
  if (← get).head? = some '^' then skip
  match ← get with
  | ']' :: rest => set rest
  | rest => set (rest.dropWhile (· == '-'))

-- The rest of a bracket with the brackets inside it.
def bracket : Reader Unit := do
  opening
  let _ ← exhaust (fun depth => do
    match ← get with
    | [] => failure
    | '[' :: rest => do set rest; opening; return some (depth + 1)
    | ']' :: rest => do set rest; return if depth = 0 then none else some (depth - 1)
    | '&' :: '&' :: rest | '-' :: '-' :: rest | '~' :: '~' :: rest => do set rest; return some depth
    | _ => do range; return some depth) 0

end Brackets

section Groups

-- Flags, each at most once, where one hyphen may stand before the ones to be cleared.
def areFlags (flags : List Char) : Bool :=
  flags.all ("imsUuRx-".toList.contains ·) && flags.Nodup && flags.getLast? ≠ some '-'

def isName : List Char → Bool
  | [] => false
  | c :: rest =>
    (c == '_' || (Text.isAlphanumeric c && !c.isDigit)) &&
      rest.all fun c => "_.[]".toList.contains c || Text.isAlphanumeric c

-- What stands between the opening of a group and its content; false if this only sets flags.
def group : Reader Bool := do
  match ← get with
  | '?' :: 'P' :: '<' :: rest | '?' :: '<' :: rest =>
    if isName (rest.takeWhile (· != '>')) ∧ rest.contains '>' then do
      set ((rest.dropWhile (· != '>')).drop 1)
      return true
    else failure
  | '?' :: rest =>
    let flags := rest.takeWhile fun c => c != ':' && c != ')'
    match rest.drop flags.length with
    | ':' :: rest => if areFlags flags then do set rest; return true else failure
    | ')' :: rest => if areFlags flags ∧ flags ≠ [] then do set rest; return false else failure
    | _ => failure
  | _ => return true

end Groups

-- How far a pattern has been read: the groups that stand open, and whether something stands before
-- this point that can be repeated.
structure Progress where
  groups : Nat
  repeatable : Bool

def step (p : Progress) : Reader (Option Progress) := do
  match ← get with
  | [] => return none
  | c :: rest => do
    set rest
    match c with
    | '(' => return some (if ← group then ⟨p.groups + 1, false⟩ else ⟨p.groups, false⟩)
    | ')' => if p.groups = 0 then failure else return some ⟨p.groups - 1, true⟩
    | '|' => return some ⟨p.groups, false⟩
    | '*' | '+' | '?' => if p.repeatable then return some p else failure
    | '\x7b' => failure
    | '[' => do bracket; return some ⟨p.groups, true⟩
    | '\\' => do let _ ← escape; return some ⟨p.groups, true⟩
    | _ => return some ⟨p.groups, true⟩

-- Whether the text is a regular expression without counted repetition, look-around and word
-- boundaries. Only its form is checked, nothing is matched.
def isWellFormed (text : List Char) : Bool :=
  match (exhaust step ⟨0, false⟩).run' text with
  | some p => p.groups == 0
  | none => false

end Countersign.Pattern
