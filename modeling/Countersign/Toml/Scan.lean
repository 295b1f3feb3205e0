import Countersign.Text.Digit
import Countersign.Text.Exhaust

namespace Countersign.Toml

-- Reads from the front of a text and leaves the rest. A text that breaks a rule is refused without
-- further description.
abbrev Scan (α : Type) := StateT (List Char) Option α

namespace Scan

def skip (count : Nat) : Scan Unit :=
  modify (·.drop count)

def peek : Scan (Option Char) :=
  return (← get).head?

-- Takes the given characters if they come next.
def take? (cs : List Char) : Scan Bool := do
  if cs.isPrefixOf (← get) then do skip cs.length; return true else return false

def expect (cs : List Char) : Scan Unit := do
  if ← take? cs then return () else failure

-- Takes all characters of a kind.
def takeWhile (p : Char → Bool) : Scan (List Char) := do
  let taken := (← get).takeWhile p
  skip taken.length
  return taken

section Blanks

def isBlank (c : Char) : Bool :=
  c == ' ' || c == '\t'

-- Characters that may stand in comments, and in strings if they have no meaning there.
def isPlain (c : Char) : Bool :=
  c == '\t' || (0x20 ≤ c.toNat && c.toNat ≠ 0x7F)

def blanks : Scan Unit := do
  let _ ← takeWhile isBlank

def newline? : Scan Bool := do
  if ← take? ['\n'] then return true else take? ['\r', '\n']

def comment : Scan Unit := do
  if ← take? ['#'] then
    let _ ← takeWhile isPlain

-- The end of a line: blanks, perhaps a comment, and a break or the end of the text.
def lineEnd : Scan Unit := do
  blanks
  comment
  if ← newline? then return ()
  else if (← get).isEmpty then return ()
  else failure

-- Blanks, comments and line breaks between the items of an array.
def gap : Scan Unit := do
  exhaust (fun () => do
    blanks
    match ← peek with
    | some '#' => do lineEnd; return some ()
    | _ => return if ← newline? then some () else none) ()

end Blanks

section Strings

-- The character of the code point with so many hexadecimal digits.
def codePoint (count : Nat) : Scan Char := do
  let digits := (← get).take count
  skip count
  let some values := digits.mapM Text.hexDigit? | failure
  let n := Text.number 16 values
  if h : values.length = count ∧ n.isValidChar then return Char.ofNatAux n h.2 else failure

def escape : Scan Char := do
  let c ← peek
  skip 1
  match c with
  | some 'b' => return '\x08'
  | some 't' => return '\t'
  | some 'n' => return '\n'
  | some 'f' => return '\x0c'
  | some 'r' => return '\r'
  | some '"' => return '"'
  | some '\\' => return '\\'
  | some 'u' => codePoint 4
  | some 'U' => codePoint 8
  | _ => failure

def ofReversed (cs : List Char) : String :=
  String.ofList cs.reverse

-- The rest of a string on one line.
def lineString (quote : Char) (escapes : Bool) : Scan String := do
  let reversed ← exhaust (fun cs => do
    match ← peek with
    | none => failure
    | some c =>
      if c = quote then return none
      else if c = '\\' ∧ escapes then do skip 1; return some ((← escape) :: cs)
      else if isPlain c then do skip 1; return some (c :: cs)
      else failure) []
  skip 1
  return ofReversed reversed

-- Passes the line breaks and blanks that a backslash at the end of a line hides.
def hiddenBreak? : Scan Bool := do
  let start ← get
  blanks
  if ← newline? then do
    exhaust (fun () => do blanks; return if ← newline? then some () else none) ()
    return true
  else do
    set start
    return false

-- The rest of a string over several lines. Up to two quotes may stand before the closing ones.
def blockString (quote : Char) (escapes : Bool) : Scan String := do
  let _ ← newline?
  let reversed ← exhaust (fun cs => do
    if [quote, quote, quote].isPrefixOf (← get) then return none
    else if ← newline? then return some ('\n' :: cs)
    else
      match ← peek with
      | none => failure
      | some c =>
        if c = '\\' ∧ escapes then do
          skip 1
          if ← hiddenBreak? then return some cs else return some ((← escape) :: cs)
        else if isPlain c then do skip 1; return some (c :: cs)
        else failure) []
  let quotes := (← get).takeWhile (· == quote)
  let inner := min 2 (quotes.length - 3)
  skip (3 + inner)
  return ofReversed (List.replicate inner quote ++ reversed)

def basicString : Scan String := do
  if ← take? ['"', '"', '"'] then blockString '"' true
  else do expect ['"']; lineString '"' true

def literalString : Scan String := do
  if ← take? ['\'', '\'', '\''] then blockString '\'' false
  else do expect ['\'']; lineString '\'' false

end Strings

section Keys

def isBare (c : Char) : Bool :=
  c.isAlphanum || c == '-' || c == '_'

def simpleKey : Scan String := do
  match ← peek with
  | some '"' => do expect ['"']; lineString '"' true
  | some '\'' => do expect ['\'']; lineString '\'' false
  | _ => do
    let cs ← takeWhile isBare
    if cs.isEmpty then failure else return String.ofList cs

-- Keys may have fewer parts than this.
def keyLimit : Nat := 80

-- A key, split into the parts before the last one and the last one.
def key : Scan (List String × String) := do
  let part : Scan String := do
    blanks
    let s ← simpleKey
    blanks
    return s
  let first ← part
  let (before, last) ← exhaust (fun (before, last) => do
    if ← take? ['.'] then return some (before ++ [last], ← part) else return none) ([], first)
  if before.length + 1 < keyLimit then return (before, last) else failure

end Keys

end Scan
end Countersign.Toml
