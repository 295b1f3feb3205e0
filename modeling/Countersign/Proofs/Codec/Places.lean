import Countersign.Proofs.Codec.Citation
import Countersign.Proofs.Json.Parting

namespace Countersign

open Json

variable {α β γ σ τ : Type}

-- The field at an index of a record, and the part of the record that it holds.
inductive Fields.Has {γ : Type} : {α σ : Type} → Fields α σ → (index : Nat) → (name : String) →
    Presence γ → Codec γ → (α → γ) → Prop
  | here {β σ : Type} {name : String} {presence : Presence γ} {c : Codec γ} {rest : Fields β σ} :
    Has (.cons name presence c rest) 0 name presence c Prod.fst
  | there {α β σ : Type} {first name : String} {other : Presence α} {d : Codec α}
    {rest : Fields β σ} {index : Nat} {presence : Presence γ} {c : Codec γ} {get : β → γ}
    (h : Has rest index name presence c get) :
    Has (.cons first other d rest) (index + 1) name presence c (get ∘ Prod.snd)

-- What a field of a record has been read from.
def Codec.CitesField (c : Codec γ) (presence : Presence γ) (a : γ) : Option (List Char) → Prop
  | some u => c.Cites u a
  | none => presence.default? = some a

variable {fields : Fields α σ} {index : Nat} {name : String} {presence : Presence γ} {c : Codec γ}
  {get : α → γ} {parts : List Part} {v : List Char} {a : α}

theorem Fields.Has.cite_member (h : fields.Has index name presence c get)
    (hc : fields.CiteMembers parts a) : (∃ p, Sole parts name p ∧ c.Cites p.value (get a)) ∨
      (∀ p ∈ parts, ¬p.HasKey name) ∧ presence.default? = some (get a) := by
  induction h
  case here => exact hc.left
  case there hi => exact hi hc.right

theorem Fields.Has.cite_item (h : fields.Has index name presence c get)
    (hc : fields.CiteItems parts a) :
    c.CitesField presence (get a) (parts[index]?.map Part.value) := by
  induction h generalizing parts
  case here =>
    cases parts
    case nil  => exact hc.left
    case cons => exact hc.left
  case there hi =>
    cases parts
    case nil  => simpa using hi hc.right
    case cons => simpa using hi hc.right

theorem Fields.Has.exists_text (h : fields.Has index name presence c get) {kind : String}
    (hc : (Codec.record kind fields).Cites v a) :
    ∃ u?, FieldText v name index u? ∧ c.CitesField presence (get a) u? := by
  rcases hc with ⟨parts, hs, hc⟩ | ⟨parts, hs, hc⟩
  case inl =>
    rcases h.cite_member hc with ⟨p, hp, hc⟩ | ⟨hn, hd⟩
    case inl => exact ⟨_, .member hs hp, hc⟩
    case inr => exact ⟨_, .missing hs hn, hd⟩
  case inr => exact ⟨_, .item hs, h.cite_item hc⟩

end Countersign
