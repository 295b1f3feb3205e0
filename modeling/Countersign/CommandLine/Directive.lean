import Countersign.Event
import Countersign.Text.Blank
import Countersign.Text.Pattern

namespace Countersign

-- What a directive asks of a field: that it is there, or that its value matches a pattern.
structure FieldTest where
  name : String
  pattern : Option String
  deriving DecidableEq, Repr

-- The least grave level that a directive lets through, and for which events; without a level it
-- lets nothing through. A directive may also be about the events within a span, or about the values
-- of a span's fields. The gate opens no spans, so such a directive can be read but selects nothing.
structure Directive where
  path : String
  span : Option String
  field : Option FieldTest
  least : Option Level
  deriving DecidableEq, Repr

namespace Directive

def lower (s : String) : String :=
  String.ofList (s.toList.map Char.toLower)

-- The number that a text of digits is; a plus sign may stand before them.
def number? (cs : List Char) : Option Nat :=
  let digits := if cs.head? = some '+' then cs.drop 1 else cs
  if digits.isEmpty || !digits.all Char.isDigit then none else some (Text.decimal digits)

-- A level by its name, in any letter case, or by its number.
def level? (cs : List Char) : Option (Option Level) :=
  match number? cs, lower (String.ofList cs) with
  | some 0, _ | none, "off" => some none
  | some 1, _ | none, "error" => some (some .error)
  | some 2, _ | none, "warn" => some (some .warn)
  | some 3, _ | none, "info" => some (some .info)
  | some 4, _ | none, "debug" => some (some .debug)
  | some 5, _ | none, "trace" => some (some .trace)
  | _, _ => none

-- The parts of a directive as they are written: `path[span{field}]=level`.
structure Parts where
  path : List Char
  span : Option (List Char)
  field : Option (List Char)
  level : Option (List Char)

-- Whether a path can begin with the character.
def canStart (c : Char) : Bool :=
  c == '-' || c == ':' || c == '_' || Text.isAlphanumeric c

-- What follows the path and the brackets: nothing but blanks, or a level.
def Parts.close? (p : Parts) : List Char → Option Parts
  | '=' :: level => some { p with level }
  | rest => if rest.all Text.isBlank then some p else none

-- What follows the opening bracket behind a path.
def bracket? (path inside : List Char) : Option Parts :=
  let span := inside.takeWhile fun c => c != ']' && c != '\x7b'
  match inside.drop span.length with
  | ']' :: rest => Parts.close? ⟨path, some span, none, none⟩ rest
  | '\x7b' :: inside =>
    let field := inside.takeWhile (· != '\x7d')
    match inside.drop field.length with
    | '\x7d' :: ']' :: rest =>
      if field.isEmpty then none
      else Parts.close? ⟨path, if span.isEmpty then none else some span, some field, none⟩ rest
    | _ => none
  | _ => none

def parts? : List Char → Option Parts
  | [] => none
  | '[' :: inside => bracket? [] inside
  | c :: cs =>
    if !canStart c then none
    else
      let path := (c :: cs).takeWhile fun c => c != '=' && c != '['
      match (c :: cs).drop path.length with
      | '[' :: inside => bracket? path inside
      | '=' :: level => some ⟨path, none, none, some level⟩
      | _ => some ⟨path, none, none, none⟩

-- Whether a text is a number with a plus sign before it, which is no pattern.
def isPositive : List Char → Bool
  | '+' :: cs =>
    let mantissa := cs.takeWhile fun c => c != 'e' && c != 'E'
    let whole := mantissa.takeWhile Char.isDigit
    let digits := whole ++ (mantissa.drop whole.length).drop 1
    let exponent := (cs.drop mantissa.length).drop 1
    let power := match exponent with
      | '+' :: rest | '-' :: rest => rest
      | rest => rest
    ["inf", "infinity", "nan"].contains (lower (String.ofList cs)) ||
      ((mantissa.drop whole.length).head?.all (· == '.') && !digits.isEmpty &&
        digits.all Char.isDigit && (mantissa.length == cs.length || !power.isEmpty) &&
        power.all Char.isDigit)
  | _ => false

-- The test of a field: a name, or a name with a pattern.
def fieldTest? (cs : List Char) : Option FieldTest :=
  let name := cs.takeWhile (· != '=')
  match cs.drop name.length with
  | '=' :: rest =>
    let pattern := rest.takeWhile (· != '=')
    if isPositive pattern || Pattern.isWellFormed pattern then
      some ⟨String.ofList name, some (String.ofList pattern)⟩
    else none
  | _ => some ⟨String.ofList name, none⟩

-- The directive of its parts. A level alone applies to all events, and a directive without a level
-- lets everything through.
def Parts.directive? (p : Parts) : Option Directive := do
  let field ← p.field.mapM fieldTest?
  let named (least : Option Level) : Directive :=
    ⟨String.ofList p.path, p.span.map String.ofList, field, least⟩
  match p.level with
  | some [] => return named (some .trace)
  | some level => return named (← level? level)
  | none =>
    match if p.span.isNone && field.isNone then level? p.path else none with
    | some least => return ⟨"", none, none, least⟩
    | none => return named (some .trace)

-- Reads a directive. One that begins with a blank is the name of a path with that blank, and cannot
-- have a level.
def read? (s : String) : Option Directive := do
  let p ← parts? (s.toList.dropWhile Text.isBlank)
  if s.toList.head?.any Text.isBlank then
    if p.level.isSome then none else return ⟨s, none, none, some .trace⟩
  else p.directive?

end Directive

-- Every event has its message as a field.
def Event.hasField (e : Event) (name : String) : Bool :=
  name == "message" || e.fields.any (·.1 == name)

namespace Directive

-- Whether the directive is about an event.
def concerns (d : Directive) (e : Event) : Bool :=
  d.span.isNone && d.path.toList.isPrefixOf e.origin.path.toList &&
    d.field.all fun t => t.pattern.isNone && e.hasField t.name

-- Whether `d` is at least as specific as `b`: by the length of the path, then by the field.
def overrides (d b : Directive) : Bool :=
  if b.path.length = d.path.length then
    match b.field, d.field with
    | none, _ => true
    | some _, none => false
    | some s, some t => s.name ≤ t.name
  else b.path.length < d.path.length

end Directive
end Countersign
