import Countersign.Codec.Basic
import Countersign.Json.Extent
import Countersign.Json.Reader

namespace Countersign

namespace Scan

variable {α : Type}

def flag : Scan Bool := do
  match ← token .endInValue with
  | .char 't' => do skip; word ['r', 'u', 'e']; return true
  | .char 'f' => do skip; word ['a', 'l', 's', 'e']; return false
  | _ => refuse "a boolean"

-- The natural number that a number is, if it lies below the limit.
def toNatural (limit : Nat) (expected : String) (n : Number) : Except Mismatch Nat :=
  match n with
  | .int i =>
    if 0 ≤ i ∧ i.toNat < limit then .ok i.toNat else .error (.wrongValue (.num n) expected)
  | .double _ => .error (.wrongType (.num n) expected)

def natural (limit : Nat) (expected : String) : Scan Nat := do
  let n ← match ← token .endInValue with
    | .char '-' => do skip; Numeral.magnitude true
    | s => if s.isDigit then Numeral.magnitude false else refuse expected
  match toNatural limit expected n with
  | .ok n => return n
  | .error m => reject m

def unit : Scan Unit := do
  match ← token .endInValue with
  | .char 'n' => do skip; word ['u', 'l', 'l']
  | _ => refuse "unit"

-- The record of the fields in an object, in any order, or in a list.
def record (depth : Nat) (name : String) (object list : Nat → Scan α) : Scan α := do
  match ← token .endInValue with
  | .char '\x7b' => nested depth fun depth => do
    let a ← placedBy afterObject (object depth)
    endObject
    return a
  | .char '[' => nested depth fun depth => do
    let a ← placedBy afterList (list depth)
    endList
    return a
  | _ => refuse name

end Scan

namespace Fields

-- Takes in the field with the given key by one of the readers of the fields; a key that none of
-- them knows is passed over together with its value.
def takeIn {σ : Type} (known : σ → String → Option (Scan σ)) (slots : σ) (key : String) : Scan σ :=
  match known slots key with
  | some p => p
  | none => do
    Scan.colon
    Extent.value
    return slots

-- Closes a record once all its members have been read.
def close {α σ : Type} (fields : Fields α σ) (slots : σ) : Scan α :=
  match fields.finish slots with
  | .ok a => return a
  | .error name => Scan.rejectRecord (.missingField name)

end Fields

mutual

-- Reads a value from the front of the text, with `depth` more brackets allowed. The text is read
-- once, so of several faults the first one is reported.
def Codec.scan : {α : Type} → Codec α → (depth : Nat) → Scan α
  | _, .text, _ => Scan.text "a string"
  | _, .flag, _ => Scan.flag
  | _, .natural limit expected, _ => Scan.natural limit expected
  | _, .formatted expected parse _, _ => do
    match parse (← Scan.text expected) with
    | .ok a => return a
    | .error reason => Scan.reject (.rejected reason)
  | _, .raw, _ => Extent.raw
  | _, .json, depth => Json.scan depth
  | _, .option c, depth => do
    modify Symbols.dropBlanks
    match ← Scan.peek with
    | some (.char 'n') => do Scan.skip; Scan.word ['u', 'l', 'l']; return none
    | _ => return some (← c.scan depth)
  | _, .list c, depth => do
    match ← Scan.token .endInValue with
    | .char '[' => Scan.nested depth fun depth =>
      Scan.placedBy Scan.afterList (Scan.list (c.scan depth))
    | _ => Scan.refuse "a sequence"
  | _, .record name fields, depth =>
    Scan.record depth ("struct " ++ name)
      (fun depth => do
        fields.close (← Scan.members (Fields.takeIn (fields.scanField depth)) fields.start))
      (fun depth => fields.scanItems depth (fields.lengthText ("struct " ++ name)) 0)
  | _, .choice variants, depth => do
    match ← Scan.token .endInValue with
    | .char '"' => do
      Scan.skip
      let name ← Scan.string
      match variants.scanBare name with
      | some p => p
      | none => Scan.reject (.unknownVariant name variants.names)
    | .char '\x7b' => do
      let a ← Scan.nested depth fun depth => do
        let name ← Scan.onlyKey
        match variants.scanContent depth name with
        | some p => do Scan.colon; p
        | none => Scan.reject (.unknownVariant name variants.names)
      modify Symbols.dropBlanks
      match ← Scan.peek with
      | some (.char '\x7d') => do Scan.skip; return a
      | some _ => Scan.fail .expectedValue
      | none => Scan.fail .endInObject
    | _ => Scan.failNext .expectedValue
  | _, .via into _ _ c, depth => do return into (← c.scan depth)

-- The reader of the field with the given key, if there is one.
def Fields.scanField : {α σ : Type} → Fields α σ → (depth : Nat) → σ → String → Option (Scan σ)
  | _, _, .nil, _, _, _ => none
  | _, _, .cons name _ c rest, depth, (slot, slots), key =>
    if key = name then
      match slot with
      | some _ => some (Scan.rejectRecord (.duplicateField name))
      | none => some do
        Scan.colon
        return (some (← c.scan depth), slots)
    else
      (rest.scanField depth slots key).map fun p => do return (slot, ← p)

-- Reads the fields as the items of a list, from the one at `index` on.
def Fields.scanItems : {α σ : Type} → Fields α σ → (depth : Nat) → (expected : String) →
    (index : Nat) → Scan α
  | _, _, .nil, _, _, _ => return ()
  | _, _, .cons _ presence c rest, depth, expected, index => do
    let a ← do
      if ← Scan.another (index == 0) then c.scan depth
      else
        match presence with
        | .optional a _ _ => pure a
        | .required => Scan.rejectRecord (.wrongLength index expected)
    return (a, ← rest.scanItems depth expected (index + 1))

-- The reader of a variant given by its bare name, if there is one of that name.
def Variants.scanBare : {α : Type} → Variants α → String → Option (Scan α)
  | _, .nil, _ => none
  | _, .cons name payload rest, key =>
    if key = name then some do return .inl (← payload.scanBare)
    else (rest.scanBare key).map fun p => do return .inr (← p)

def Payload.scanBare : {α : Type} → Payload α → Scan α
  | _, .unit => return ()
  | _, .wrapped _ => Scan.rejectRecord (.wrongType .bareVariant "newtype variant")
  | _, .record _ _ => Scan.rejectRecord (.wrongType .bareVariant "struct variant")

-- The reader of what a variant carries, if there is one of that name.
def Variants.scanContent : {α : Type} → Variants α → (depth : Nat) → String → Option (Scan α)
  | _, .nil, _, _ => none
  | _, .cons name payload rest, depth, key =>
    if key = name then some do return .inl (← payload.scanContent depth)
    else (rest.scanContent depth key).map fun p => do return .inr (← p)

def Payload.scanContent : {α : Type} → Payload α → (depth : Nat) → Scan α
  | _, .unit, _ => Scan.unit
  | _, .wrapped c, depth => c.scan depth
  | _, .record name fields, depth =>
    Scan.record depth name
      (fun depth => do
        fields.close (← Scan.members (Fields.takeIn (fields.scanField depth)) fields.start))
      (fun depth => fields.scanItems depth (fields.lengthText name) 0)

end

def Codec.readText {α : Type} (c : Codec α) (text : Symbols) : Except Fault α :=
  (c.scan Json.depthLimit).all text

end Countersign
