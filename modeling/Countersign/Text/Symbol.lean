import Countersign.Text.Digit

namespace Countersign

-- A character of a text, or a byte of it that belongs to no character.
inductive Symbol
  | char (c : Char)
  | stray (b : UInt8)
  deriving DecidableEq, Repr

-- A text as the readers see it. A byte that takes part in no character is kept as it is, so that a
-- reader can say where in the bytes it stopped. Readers name a place by how many bytes are left
-- behind it; `Position.before` turns that into a line and a column.
abbrev Symbols := List Symbol

namespace Symbol

def size : Symbol → Nat
  | char c => c.utf8Size
  | stray _ => 1

def isChar : Symbol → Bool
  | char _ => true
  | stray _ => false

def isBlank : Symbol → Bool
  | char ' ' | char '\t' | char '\n' | char '\r' => true
  | _ => false

def digit? : Symbol → Option Nat
  | char c => Text.digit? c
  | stray _ => none

def isDigit (s : Symbol) : Bool :=
  s.digit?.isSome

def hexDigit? : Symbol → Option Nat
  | char c => Text.hexDigit? c
  | stray _ => none

end Symbol

namespace Symbols

def ofString (s : String) : Symbols :=
  s.toList.map .char

-- The characters of the text; bytes that belong to none are left out.
def chars : Symbols → List Char
  | [] => []
  | .char c :: rest => c :: chars rest
  | .stray _ :: rest => chars rest

def byteCount : Symbols → Nat
  | [] => 0
  | s :: rest => s.size + byteCount rest

def dropBlanks (s : Symbols) : Symbols :=
  s.dropWhile Symbol.isBlank

-- The symbols of the bytes from `start` on.
def ofBytesFrom (bytes : ByteArray) (start : Nat) : Symbols :=
  if h : start < bytes.size then
    match bytes.utf8DecodeChar? start with
    | some c => .char c :: ofBytesFrom bytes (start + c.utf8Size)
    | none => .stray bytes[start] :: ofBytesFrom bytes (start + 1)
  else []
termination_by bytes.size - start
decreasing_by
  · have := c.utf8Size_pos
    omega
  · omega

def ofBytes (bytes : ByteArray) : Symbols :=
  ofBytesFrom bytes 0

end Symbols

-- A place in a text: lines count from one, columns count the bytes of the line before it.
structure Position where
  line : Nat
  column : Nat
  deriving DecidableEq, Repr

namespace Position

-- The place reached from `p` after `count` more bytes of the text.
def advance (p : Position) : Symbols → (count : Nat) → Position
  | [], _ => p
  | s :: rest, count =>
    if count < s.size then { p with column := p.column + count }
    else if s = .char '\n' then advance ⟨p.line + 1, 0⟩ rest (count - 1)
    else advance { p with column := p.column + s.size } rest (count - s.size)

-- The place in `text` that has `left` bytes behind it.
def before (text : Symbols) (left : Nat) : Position :=
  advance ⟨1, 0⟩ text (text.byteCount - left)

end Position
end Countersign
