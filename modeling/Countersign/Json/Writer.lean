import Countersign.Double.Shortest
import Countersign.Json.Value

namespace Countersign

-- On one line, or indented by two spaces a level.
inductive Layout
  | compact
  | pretty
  deriving DecidableEq, Repr

namespace Layout

-- The break before an item at the given depth.
def lineBreak (depth : Nat) : Layout → List Char
  | compact => []
  | pretty => '\n' :: List.replicate (2 * depth) ' '

def colon : Layout → List Char
  | compact => [':']
  | pretty => [':', ' ']

-- The items after the first one, each behind a comma.
def following (l : Layout) (depth : Nat) : List (List Char) → List Char
  | [] => []
  | item :: rest => ',' :: l.lineBreak depth ++ item ++ following l depth rest

-- Items between brackets; none at all leave the brackets side by side.
def bracket (l : Layout) (depth : Nat) (opening closing : Char) : List (List Char) → List Char
  | [] => [opening, closing]
  | item :: rest =>
    opening :: l.lineBreak (depth + 1) ++ item ++ l.following (depth + 1) rest
      ++ l.lineBreak depth ++ [closing]

def array (l : Layout) (depth : Nat) (items : List (List Char)) : List Char :=
  l.bracket depth '[' ']' items

end Layout

namespace Json

def hexDigit (n : Nat) : Char :=
  Nat.digitChar n

def escape (c : Char) : List Char :=
  match c with
  | '"' => ['\\', '"']
  | '\\' => ['\\', '\\']
  | '\x08' => ['\\', 'b']
  | '\x0c' => ['\\', 'f']
  | '\n' => ['\\', 'n']
  | '\r' => ['\\', 'r']
  | '\t' => ['\\', 't']
  | c =>
    if c.toNat < 0x20 then ['\\', 'u', '0', '0', hexDigit (c.toNat / 16), hexDigit (c.toNat % 16)]
    else [c]

def quote (s : String) : List Char :=
  '"' :: s.toList.flatMap escape ++ ['"']

end Json

namespace Layout

def entry (l : Layout) (key : String) (value : List Char) : List Char :=
  Json.quote key ++ l.colon ++ value

def object (l : Layout) (depth : Nat) (entries : List (String × List Char)) : List Char :=
  l.bracket depth '\x7b' '\x7d' (entries.map fun (key, value) => l.entry key value)

end Layout

def writeInt (i : Int) : List Char :=
  (if i < 0 then ['-'] else []) ++ Nat.toDigits 10 i.natAbs

def Number.write : Number → List Char
  | int i => writeInt i
  | double d => d.write

namespace Json

mutual

def write (l : Layout) (depth : Nat) : Json → List Char
  | null => ['n', 'u', 'l', 'l']
  | bool true => ['t', 'r', 'u', 'e']
  | bool false => ['f', 'a', 'l', 's', 'e']
  | num n => n.write
  | str s => quote s
  | arr items => l.array depth (writeItems l (depth + 1) items)
  | obj members => l.object depth (writeMembers l (depth + 1) members)

def writeItems (l : Layout) (depth : Nat) : List Json → List (List Char)
  | [] => []
  | item :: rest => write l depth item :: writeItems l depth rest

def writeMembers (l : Layout) (depth : Nat) : List (String × Json) → List (String × List Char)
  | [] => []
  | (key, value) :: rest => (key, write l depth value) :: writeMembers l depth rest

end

def compact (j : Json) : String :=
  String.ofList (j.write .compact 0)

def pretty (j : Json) : String :=
  String.ofList (j.write .pretty 0)

end Json
end Countersign
