import Countersign.Codec.FromValue

namespace Countersign.Json

-- Somewhere in the value there is an object whose first key marks an embedded text.
inductive Embeds : Json → Prop
  | here {value : Json} {rest : List (String × Json)} : Embeds (obj ((embeddingKey, value) :: rest))
  | item {items : List Json} {item : Json} (h : item ∈ items) : Embeds item → Embeds (arr items)
  | member {members : List (String × Json)} {m : String × Json} (h : m ∈ members) :
    Embeds m.2 → Embeds (obj members)

mutual

theorem unfold_eq_self : (j : Json) → ¬j.Embeds → j.unfold = .ok j
  | arr items, h => by
    rw [unfold, unfoldItems_eq_self items fun item hi he => h <| .item hi he]
    rfl
  | obj [], _ => rfl
  | obj ((key, value) :: rest), h => by
    have hk : key ≠ embeddingKey := fun hk => h <| hk ▸ .here
    rw [unfold, if_neg hk, unfold_eq_self value fun he => h <| .member (List.mem_cons_self ..) he,
      unfoldMembers_eq_self rest fun m hm he => h <| .member (List.mem_cons_of_mem _ hm) he]
    rfl
  | null, _ => rfl
  | bool _, _ => rfl
  | num _, _ => rfl
  | str _, _ => rfl

theorem unfoldItems_eq_self : (items : List Json) → (∀ item ∈ items, ¬item.Embeds) →
    unfoldItems items = .ok items
  | [], _ => rfl
  | item :: rest, h => by
    have ⟨hi, hr⟩ := List.forall_mem_cons.mp h
    rw [unfoldItems, unfold_eq_self item hi, unfoldItems_eq_self rest hr]
    rfl

theorem unfoldMembers_eq_self : (members : List (String × Json)) → (∀ m ∈ members, ¬m.2.Embeds) →
    unfoldMembers members = .ok members
  | [], _ => rfl
  | (key, value) :: rest, h => by
    have ⟨hv, hr⟩ := List.forall_mem_cons.mp h
    rw [unfoldMembers, unfold_eq_self value hv, unfoldMembers_eq_self rest hr]
    rfl

end

end Countersign.Json
