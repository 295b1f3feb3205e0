import Countersign.Codec.Writer
import Countersign.Proofs.Json.Nesting

namespace Countersign

mutual

-- Whether all of a written value is laid out by its description. The rest is taken over from texts
-- as they were given.
def Codec.isLaidOut : {α : Type} → Codec α → Bool
  | _, .raw => false
  | _, .json => false
  | _, .option c => c.isLaidOut
  | _, .list c => c.isLaidOut
  | _, .record _ fields => fields.isLaidOut
  | _, .choice variants => variants.isLaidOut
  | _, .via _ _ _ c => c.isLaidOut
  | _, .text => true
  | _, .flag => true
  | _, .natural _ _ => true
  | _, .formatted _ _ _ => true

def Fields.isLaidOut : {α σ : Type} → Fields α σ → Bool
  | _, _, .nil => true
  | _, _, .cons _ _ c rest => c.isLaidOut && rest.isLaidOut

def Variants.isLaidOut : {α : Type} → Variants α → Bool
  | _, .nil => true
  | _, .cons _ payload rest => payload.isLaidOut && rest.isLaidOut

def Payload.isLaidOut : {α : Type} → Payload α → Bool
  | _, .unit => true
  | _, .wrapped c => c.isLaidOut
  | _, .record _ fields => fields.isLaidOut

end

open Json

mutual

theorem Codec.nested_write : {α : Type} → (c : Codec α) → c.isLaidOut → ∀ depth a,
    Nested (c.write .compact depth a)
  | _, .text, _, _, s => nested_quote s
  | _, .flag, _, depth, b => by
    cases b
    all_goals exact fun _ => .inside
  | _, .natural _ _, _, _, n =>
    nested_of_isDigit fun _ => Nat.isDigit_of_mem_toDigits (by decide) (by decide)
  | _, .formatted _ _ print, _, _, a => nested_quote (print a)
  | _, .option _, _, _, none => fun _ => .inside
  | _, .option c, h, depth, some a => c.nested_write h depth a
  | _, .list c, h, depth, as => by
    refine nested_array fun item hi => ?_
    have ⟨a, _, hi⟩ := List.mem_map.mp hi
    exact hi ▸ c.nested_write h (depth + 1) a
  | _, .record _ fields, h, depth, a => nested_object <| fields.nested_entries h (depth + 1) a
  | _, .choice variants, h, depth, a => variants.nested_write h depth a
  | _, .via _ back _ c, h, depth, b => c.nested_write h depth (back b)

theorem Fields.nested_entries : {α σ : Type} → (fields : Fields α σ) → fields.isLaidOut →
    ∀ depth a, ∀ e ∈ fields.entries .compact depth a, Nested e.2
  | _, _, .nil, _, _, _ => nofun
  | _, _, .cons _ presence c rest, h, depth, (a, b) => by
    have ⟨hc, hr⟩ := Bool.and_eq_true_iff.mp h
    intro e he
    unfold Fields.entries at he
    split at he
    case isTrue => exact rest.nested_entries hr depth b e he
    case isFalse =>
      cases List.mem_cons.mp he
      case inl he => exact he ▸ c.nested_write hc depth a
      case inr he => exact rest.nested_entries hr depth b e he

theorem Variants.nested_write : {α : Type} → (variants : Variants α) → variants.isLaidOut →
    ∀ depth a, Nested (variants.write .compact depth a)
  | _, .cons name payload _, h, depth, .inl a =>
    payload.nested_write (Bool.and_eq_true_iff.mp h).left depth name a
  | _, .cons _ _ rest, h, depth, .inr b =>
    rest.nested_write (Bool.and_eq_true_iff.mp h).right depth b

theorem Payload.nested_write : {α : Type} → (payload : Payload α) → payload.isLaidOut →
    ∀ depth name a, Nested (payload.write .compact depth name a)
  | _, .unit, _, _, name, _ => nested_quote name
  | _, .wrapped c, h, depth, _, a =>
    nested_object <| List.forall_mem_singleton.mpr <| c.nested_write h (depth + 1) a
  | _, .record _ fields, h, depth, _, a =>
    nested_object <| List.forall_mem_singleton.mpr <|
      nested_object <| fields.nested_entries h (depth + 2) a

end

-- A written record is passed over from its opening to its closing bracket.
theorem Codec.run_record {α σ : Type} {name : String} {fields : Fields α σ} (h : fields.isLaidOut)
    (a : α) : Place.start.run ((Codec.record name fields).write .compact 0 a) = .done :=
  run_object (d := 0) rfl <| fields.nested_entries h 1 a

end Countersign
