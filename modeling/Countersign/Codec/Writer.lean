import Countersign.Codec.FromValue

namespace Countersign

mutual

-- The text of a value, with the fields of a record in the order of its description.
def Codec.write (l : Layout) : {α : Type} → Codec α → (depth : Nat) → α → List Char
  | _, .text, _, s => Json.quote s
  | _, .flag, depth, b => (Json.bool b).write l depth
  | _, .natural _ _, _, n => Nat.toDigits 10 n
  | _, .formatted _ _ print, _, a => Json.quote (print a)
  | _, .raw, _, s => s.toList
  | _, .json, depth, j => j.write l depth
  | _, .option _, depth, none => Json.null.write l depth
  | _, .option c, depth, some a => c.write l depth a
  | _, .list c, depth, as => l.array depth (as.map (c.write l (depth + 1)))
  | _, .record _ fields, depth, a => l.object depth (fields.entries l (depth + 1) a)
  | _, .choice variants, depth, a => variants.write l depth a
  | _, .via _ back _ c, depth, b => c.write l depth (back b)

-- The fields that are not left out, with their written values.
def Fields.entries (l : Layout) : {α σ : Type} → Fields α σ → (depth : Nat) → α →
    List (String × List Char)
  | _, _, .nil, _, _ => []
  | _, _, .cons name presence c rest, depth, (a, b) =>
    if presence.isBlank a then rest.entries l depth b
    else (name, c.write l depth a) :: rest.entries l depth b

def Variants.write (l : Layout) : {α : Type} → Variants α → (depth : Nat) → α → List Char
  | _, .nil, _, a => nomatch a
  | _, .cons name payload _, depth, .inl a => payload.write l depth name a
  | _, .cons _ _ rest, depth, .inr b => rest.write l depth b

-- A variant of the given name: the bare name, or an object with the name as its only key.
def Payload.write (l : Layout) : {α : Type} → Payload α → (depth : Nat) → (name : String) → α →
    List Char
  | _, .unit, _, name, _ => Json.quote name
  | _, .wrapped c, depth, name, a => l.object depth [(name, c.write l (depth + 1) a)]
  | _, .record _ fields, depth, name, a =>
    l.object depth [(name, l.object (depth + 1) (fields.entries l (depth + 2) a))]

end

namespace Codec

variable {α : Type}

-- The text on one line, without blanks.
def compact (c : Codec α) (a : α) : String :=
  String.ofList (c.write .compact 0 a)

def pretty (c : Codec α) (a : α) : String :=
  String.ofList (c.write .pretty 0 a)

end Codec
end Countersign
