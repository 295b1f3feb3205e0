import Countersign.Json.Refusal

namespace Countersign.Json

-- How many brackets may stand open at once.
def depthLimit : Nat := 127

-- What is embedded in a text, from behind its key to the end of the object; `inner` reads it. An
-- embedded text is read by itself, with brackets counted anew, and its value takes the place of the
-- object that holds it.
def embedded (inner : Symbols → Except Fault Json) : Scan Json := do
  Scan.colon
  let text := Symbols.ofString (← Scan.text "raw value")
  match inner text with
  | .ok j => do Scan.endObject; return j
  | .error fault => throw (fault.outward text)

-- A value from the front of the text, with `depth` more brackets allowed; `inner` reads the texts
-- embedded in it.
def scanWith (inner : Symbols → Except Fault Json) (depth : Nat) : Scan Json := do
  match ← Scan.token .endInValue with
  | .char 'n' => do Scan.skip; Scan.word ['u', 'l', 'l']; return null
  | .char 't' => do Scan.skip; Scan.word ['r', 'u', 'e']; return bool true
  | .char 'f' => do Scan.skip; Scan.word ['a', 'l', 's', 'e']; return bool false
  | .char '"' => do Scan.skip; return str (← Scan.string)
  | .char '-' => do Scan.skip; return num (← Numeral.magnitude true)
  | .char '[' =>
    match depth with
    | 0 => Scan.failNext .nestedTooDeep
    | depth + 1 => do Scan.skip; return arr (← Scan.list (scanWith inner depth))
  | .char '\x7b' =>
    match depth with
    | 0 => Scan.failNext .nestedTooDeep
    | depth + 1 => do
      let member := fun members key => do
        Scan.colon
        return set key (← scanWith inner depth) members
      Scan.skip
      match ← Scan.nextKey true with
      | none => do Scan.endObject; return obj []
      | some key =>
        if key = embeddingKey then embedded inner
        else do
          let members ← Scan.membersFrom false member (← member [] key)
          Scan.endObject
          return obj members
  | s => if s.isDigit then return num (← Numeral.magnitude false) else Scan.failNext .expectedValue

-- The value of a whole text, in which texts are embedded in each other less than `levels` deep.
def readWithin : (levels : Nat) → Symbols → Except Fault Json
  | 0, text => .error ⟨.malformed .nestedTooDeep, .left text.byteCount⟩
  | levels + 1, text => (scanWith (readWithin levels) depthLimit).all text

-- A value from the front of the text, with `depth` more brackets allowed. An embedded text is
-- shorter than the one around it, so no more levels are needed than there are characters.
def scan (depth : Nat) : Scan Json := fun s =>
  scanWith (readWithin s.length) depth s

def read (text : Symbols) : Except Fault Json :=
  (scan depthLimit).all text

end Countersign.Json
