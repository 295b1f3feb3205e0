import Countersign.Codec.FromText
import Countersign.Json.Writer

namespace Countersign

namespace Json

def text (expected : String) : Json → Except Mismatch String
  | .str s => .ok s
  | j => .error (.wrongType (Found.ofJson j) expected)

mutual

-- The value with embedded texts replaced by their values. Objects hold their keys in order, so the
-- first key is the one that no other comes before.
def unfold : Json → Except Mismatch Json
  | arr items => return arr (← unfoldItems items)
  | obj members =>
    match members with
    | [] => .ok (obj [])
    | (key, value) :: rest => do
      if key = embeddingKey then
        let text := Symbols.ofString (← value.text "raw value")
        let j ← (read text).mapError fun fault => .rejected (fault.messageIn text)
        if rest.isEmpty then .ok j
        else .error (.wrongLength members.length "fewer elements in map")
      else return obj ((key, ← unfold value) :: (← unfoldMembers rest))
  | j => .ok j

def unfoldItems : List Json → Except Mismatch (List Json)
  | [] => .ok []
  | item :: rest => return (← unfold item) :: (← unfoldItems rest)

def unfoldMembers : List (String × Json) → Except Mismatch (List (String × Json))
  | [] => .ok []
  | (key, value) :: rest => return (key, ← unfold value) :: (← unfoldMembers rest)

end

end Json

namespace Fields

-- Closes a record once all its members have been taken in.
def closed {α σ : Type} (fields : Fields α σ) (slots : σ) : Except Mismatch α :=
  (fields.finish slots).mapError .missingField

end Fields

mutual

-- Members come in the order of their keys, so of several faults in one record the one under the
-- first key is reported, and a missing field only when all others are fine.
def Codec.ofJson : {α : Type} → Codec α → Json → Except Mismatch α
  | _, .text, j => j.text "a string"
  | _, .flag, j =>
    match j with
    | .bool b => .ok b
    | j => .error (.wrongType (Found.ofJson j) "a boolean")
  | _, .natural limit expected, j =>
    match j with
    | .num n => Scan.toNatural limit expected n
    | j => .error (.wrongType (Found.ofJson j) expected)
  | _, .formatted expected parse _, j => do
    (parse (← j.text expected)).mapError Mismatch.rejected
  | _, .raw, j => .ok j.compact
  | _, .json, j => j.unfold
  | _, .option c, j =>
    match j with
    | .null => .ok none
    | j => return some (← c.ofJson j)
  | _, .list c, j =>
    match j with
    | .arr items => items.mapM c.ofJson
    | j => .error (.wrongType (Found.ofJson j) "a sequence")
  | _, .record name fields, j =>
    match j with
    | .obj members => do fields.closed (← members.foldlM (fields.takeMember) fields.start)
    | .arr items => do
      let (a, extra) ← fields.takeItems (fields.lengthText ("struct " ++ name)) 0 items
      if extra.isEmpty then .ok a
      else .error (.wrongLength items.length "fewer elements in array")
    | j => .error (.wrongType (Found.ofJson j) ("struct " ++ name))
  | _, .choice variants, j =>
    match j with
    | .str name => variants.ofBare variants.names name
    | .obj [(name, content)] => variants.ofContent variants.names name content
    | .obj _ => .error (.wrongValue .map "map with a single key")
    | j => .error (.wrongType (Found.ofJson j) "string or map")
  | _, .via into _ _ c, j => return into (← c.ofJson j)

-- Takes in one member of an object; unknown keys are passed over.
def Fields.takeMember : {α σ : Type} → Fields α σ → σ → String × Json → Except Mismatch σ
  | _, _, .nil, slots, _ => .ok slots
  | _, _, .cons name _ c rest, (slot, slots), (key, value) =>
    if key = name then return (some (← c.ofJson value), slots)
    else return (slot, ← rest.takeMember slots (key, value))

def Fields.takeItems : {α σ : Type} → Fields α σ → (expected : String) → (index : Nat) →
    List Json → Except Mismatch (α × List Json)
  | _, _, .nil, _, _, items => .ok ((), items)
  | _, _, .cons _ _ c rest, expected, index, item :: items => do
    let a ← c.ofJson item
    let (b, extra) ← rest.takeItems expected (index + 1) items
    return ((a, b), extra)
  | _, _, .cons _ presence _ rest, expected, index, [] => do
    let a ← match presence with
      | .optional a _ _ => .ok a
      | .required => .error (.wrongLength index expected)
    let (b, extra) ← rest.takeItems expected (index + 1) []
    return ((a, b), extra)

def Variants.ofBare : {α : Type} → Variants α → (known : List String) → String →
    Except Mismatch α
  | _, .nil, known, key => .error (.unknownVariant key known)
  | _, .cons name payload rest, known, key =>
    if key = name then return .inl (← payload.ofBare) else return .inr (← rest.ofBare known key)

def Payload.ofBare : {α : Type} → Payload α → Except Mismatch α
  | _, .unit => .ok ()
  | _, .wrapped _ => .error (.wrongType .bareVariant "newtype variant")
  | _, .record _ _ => .error (.wrongType .bareVariant "struct variant")

def Variants.ofContent : {α : Type} → Variants α → (known : List String) → String → Json →
    Except Mismatch α
  | _, .nil, known, key, _ => .error (.unknownVariant key known)
  | _, .cons name payload rest, known, key, content =>
    if key = name then return .inl (← payload.ofContent content)
    else return .inr (← rest.ofContent known key content)

def Payload.ofContent : {α : Type} → Payload α → Json → Except Mismatch α
  | _, .unit, j =>
    match j with
    | .null => .ok ()
    | j => .error (.wrongType (Found.ofJson j) "unit")
  | _, .wrapped c, j => c.ofJson j
  | _, .record _ fields, j =>
    match j with
    | .obj members => do fields.closed (← members.foldlM (fields.takeMember) fields.start)
    | j => .error (.wrongType (Found.ofJson j) "struct variant")

end

end Countersign
