import Countersign.Toml.Value

namespace Countersign.Toml

-- What has been read so far, and the path of the table that is open.
structure Document where
  root : Entries
  path : List String

namespace Document

def empty : Document :=
  ⟨[], []⟩

-- Opens a table by a change to the table around it.
def openBy (d : Document) (change : String → Change) (before : List String) (last : String) :
    Option Document := do
  return ⟨← descend false (change last) before .header d.root, before ++ [last]⟩

-- Sets a key in the open table.
def set (d : Document) (path : List String) (key : String) (item : Item) : Option Document := do
  return { d with root := ← descend false (assign path key item) d.path .header d.root }

end Document

namespace Scan

-- Takes in a header line.
def header (d : Document) : Scan Document := do
  if ← take? ['[', '['] then
    let (before, last) ← key
    expect [']', ']']
    lineEnd
    d.openBy openElement before last
  else
    expect ['[']
    let (before, last) ← key
    expect [']']
    lineEnd
    d.openBy openTable before last

def assignment (d : Document) : Scan Document := do
  let (path, last) ← key
  expect ['=']
  blanks
  let item ← value depthLimit
  lineEnd
  d.set path last item

-- Takes in the next line; none at the end of the text.
def line (d : Document) : Scan (Option Document) := do
  blanks
  match ← peek with
  | none => return none
  | some '#' | some '\n' | some '\r' => do lineEnd; return some d
  | some '[' => return some (← header d)
  | some _ => return some (← assignment d)

def document : Scan Entries := do
  let _ ← take? ['\ufeff']
  return (← exhaust line .empty).root

end Scan

def read? (s : String) : Option Entries :=
  Scan.document.run' s.toList

end Countersign.Toml
