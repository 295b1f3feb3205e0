import Countersign.Json.Value

namespace Countersign

-- Whether a field has to be there. An optional field stands for its default value when it is
-- missing, and is left out in writing when it is blank.
inductive Presence (α : Type) : Type
  | required
  | optional (default : α) (blank : α → Bool) (blank_eq : ∀ a, blank a = true → a = default)

namespace Presence

variable {α : Type}

-- A field that may be missing and is always written.
@[simp]
def written (default : α) : Presence α :=
  .optional default (fun _ => false) (by simp)

@[simp]
def text : Presence String :=
  .optional "" (· == "") (by simp)

@[simp]
def list : Presence (List α) :=
  .optional [] List.isEmpty (by simp)

@[simp]
def option : Presence (Option α) :=
  .optional none Option.isNone (by simp)

def isBlank : Presence α → α → Bool
  | required, _ => false
  | optional _ blank _, a => blank a

section

variable {a b : α} {blank : α → Bool} {h : ∀ a, blank a = true → a = b}

@[simp]
theorem isBlank_required : required.isBlank a = false :=
  rfl

@[simp]
theorem isBlank_optional : (optional b blank h).isBlank a = blank a :=
  rfl

end

end Presence

mutual

-- How values of a type look in JSON. Reading from a text, reading from a JSON value and writing are
-- each defined once, by recursion on the description, and so agree on every type.
inductive Codec : Type → Type 1
  | text : Codec String
  | flag : Codec Bool
  -- Natural numbers below a limit.
  | natural (limit : Nat) (expected : String) : Codec Nat
  -- Values that are written as texts of their own.
  | formatted {α : Type} (expected : String) (parse : String → Except String α)
      (print : α → String) : Codec α
  -- A value of any form, kept as the text it was given as.
  | raw : Codec String
  | json : Codec Json
  | option {α : Type} : Codec α → Codec (Option α)
  | list {α : Type} : Codec α → Codec (List α)
  | record {α σ : Type} (name : String) : Fields α σ → Codec α
  | choice {α : Type} : Variants α → Codec α
  -- Values of one type seen as values of another.
  | via {α β : Type} (into : α → β) (back : β → α) (into_back : ∀ b, into (back b) = b) :
      Codec α → Codec β

-- The fields of a record, in order; `σ` holds those that have been read so far.
inductive Fields : Type → Type → Type 1
  | nil : Fields Unit Unit
  | cons {α β σ : Type} (name : String) : Presence α → Codec α → Fields β σ →
      Fields (α × β) (Option α × σ)

inductive Variants : Type → Type 1
  | nil : Variants Empty
  | cons {α β : Type} (name : String) : Payload α → Variants β → Variants (α ⊕ β)

inductive Payload : Type → Type 1
  | unit : Payload Unit
  | wrapped {α : Type} : Codec α → Payload α
  | record {α σ : Type} (name : String) : Fields α σ → Payload α

end

namespace Fields

variable {α σ : Type}

def start : {α σ : Type} → Fields α σ → σ
  | _, _, .nil => ()
  | _, _, .cons _ _ _ rest => (none, rest.start)

def count : {α σ : Type} → Fields α σ → Nat
  | _, _, .nil => 0
  | _, _, .cons _ _ _ rest => rest.count + 1

@[simp]
def names : {α σ : Type} → Fields α σ → List String
  | _, _, .nil => []
  | _, _, .cons name _ _ rest => name :: rest.names

-- The record of the fields that have been read; fails with the first required one missing.
def finish : {α σ : Type} → Fields α σ → σ → Except String α
  | _, _, .nil, _ => .ok ()
  | _, _, .cons name presence _ rest, (slot, slots) => do
    let a ← match slot, presence with
      | some a, _ => .ok a
      | none, .optional a _ _ => .ok a
      | none, .required => .error name
    return (a, ← rest.finish slots)

-- What a list of the fields has to be.
def lengthText (fields : Fields α σ) (name : String) : String :=
  name ++ " with " ++ toString fields.count ++ if fields.count = 1 then " element" else " elements"

end Fields

namespace Variants

def names : {α : Type} → Variants α → List String
  | _, .nil => []
  | _, .cons name _ rest => name :: rest.names

end Variants

-- How a variant that carries something is called where its bare name is not enough.
def Payload.kind : {α : Type} → Payload α → String
  | _, .unit => "unit variant"
  | _, .wrapped _ => "newtype variant"
  | _, .record _ _ => "struct variant"

end Countersign
