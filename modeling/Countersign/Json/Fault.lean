import Countersign.Double.Shortest
import Countersign.Json.Value
import Countersign.Text.Quoted
import Countersign.Text.Symbol

namespace Countersign

-- The text is not JSON.
inductive Malformation
  | endInValue
  | endInString
  | endInList
  | endInObject
  | expectedValue
  | expectedWord
  | expectedColon
  | expectedListSeparator
  | expectedObjectSeparator
  | keyNotString
  | trailingComma
  | trailingCharacters
  | invalidNumber
  | numberOutOfRange
  | invalidEscape
  | loneSurrogate
  | unfinishedSurrogates
  | controlCharacter
  | invalidCodePoint
  | nestedTooDeep
  deriving DecidableEq, Repr

namespace Malformation

def message : Malformation → String
  | endInValue => "EOF while parsing a value"
  | endInString => "EOF while parsing a string"
  | endInList => "EOF while parsing a list"
  | endInObject => "EOF while parsing an object"
  | expectedValue => "expected value"
  | expectedWord => "expected ident"
  | expectedColon => "expected `:`"
  | expectedListSeparator => "expected `,` or `]`"
  | expectedObjectSeparator => "expected `,` or `\x7d`"
  | keyNotString => "key must be a string"
  | trailingComma => "trailing comma"
  | trailingCharacters => "trailing characters"
  | invalidNumber => "invalid number"
  | numberOutOfRange => "number out of range"
  | invalidEscape => "invalid escape"
  | loneSurrogate => "lone leading surrogate in hex escape"
  | unfinishedSurrogates => "unexpected end of hex escape"
  | controlCharacter => "control character (\\u0000-\\u001F) found while parsing a string"
  | invalidCodePoint => "invalid unicode code point"
  | nestedTooDeep => "recursion limit exceeded"

end Malformation

-- What stands where something else was wanted.
inductive Found
  | null
  | bool (b : Bool)
  | num (n : Number)
  | str (s : String)
  | sequence
  | map
  | bareVariant
  deriving DecidableEq, Repr

namespace Found

def ofJson : Json → Found
  | .null => null
  | .bool b => bool b
  | .num n => num n
  | .str s => str s
  | .arr _ => sequence
  | .obj _ => map

def describe : Found → String
  | null => "null"
  | bool b => "boolean `" ++ toString b ++ "`"
  | num (.int i) => "integer `" ++ toString i ++ "`"
  | num (.double d) => "floating point `" ++ String.ofList d.write ++ "`"
  | str s => "string " ++ Text.quoted s
  | sequence => "sequence"
  | map => "map"
  | bareVariant => "unit variant"

end Found

-- The document is JSON, but not of the wanted form.
inductive Mismatch
  | wrongType (found : Found) (expected : String)
  | wrongValue (found : Found) (expected : String)
  | wrongLength (length : Nat) (expected : String)
  | missingField (name : String)
  | duplicateField (name : String)
  | unknownVariant (name : String) (known : List String)
  | rejected (reason : String)
  deriving DecidableEq, Repr

namespace Mismatch

def ticked (name : String) : String :=
  "`" ++ name ++ "`"

-- The choice between known names: two are joined by "or".
def choice : List String → String
  | [] => "there are no variants"
  | [a] => "expected " ++ ticked a
  | [a, b] => "expected " ++ ticked a ++ " or " ++ ticked b
  | names => "expected one of " ++ ", ".intercalate (names.map ticked)

def message : Mismatch → String
  | wrongType found expected => "invalid type: " ++ found.describe ++ ", expected " ++ expected
  | wrongValue found expected => "invalid value: " ++ found.describe ++ ", expected " ++ expected
  | wrongLength n expected => "invalid length " ++ toString n ++ ", expected " ++ expected
  | missingField name => "missing field " ++ ticked name
  | duplicateField name => "duplicate field " ++ ticked name
  | unknownVariant name known => "unknown variant " ++ ticked name ++ ", " ++ choice known
  | rejected reason => reason

end Mismatch

inductive Cause
  | malformed (m : Malformation)
  | mismatched (m : Mismatch)
  deriving DecidableEq, Repr

def Cause.message : Cause → String
  | malformed m => m.message
  | mismatched m => m.message

-- Where a reader stopped: with a number of bytes left, at a place in a text that was embedded in
-- this one, or at the point it had reached when a value turned out not to fit. The latter is placed
-- behind the closing bracket of the record around it.
inductive Place
  | left (bytes : Nat)
  | embedded (p : Position)
  | reached (rest : Symbols)
  deriving DecidableEq, Repr

def Place.positionIn (text : Symbols) : Place → Option Position
  | left bytes => some (.before text bytes)
  | embedded p => some p
  | reached _ => none

structure Fault where
  cause : Cause
  place : Place
  deriving DecidableEq, Repr

namespace Fault

def message (f : Fault) : String :=
  f.cause.message

def messageIn (text : Symbols) (f : Fault) : String :=
  match f.place.positionIn text with
  | none => f.message
  | some p =>
    f.message ++ " at line " ++ toString p.line ++ " column " ++ toString p.column

-- The fault as one of the text in which `text` is embedded.
def outward (text : Symbols) (f : Fault) : Fault :=
  match f.place.positionIn text with
  | none => f
  | some p => { f with place := .embedded p }

end Fault
end Countersign
