import Countersign.Codec.FromValue

namespace Countersign

section Except

variable {ε α β : Type} {x : Except ε α} {f : α → Except ε β} {b : β}

theorem bind_eq_ok_iff : x >>= f = .ok b ↔ ∃ a, x = .ok a ∧ f a = .ok b := by
  cases x <;> simp [bind, Except.bind]

theorem exists_bind_eq_ok_iff :
    (∃ b, x >>= f = .ok b) ↔ ∃ a, x = .ok a ∧ ∃ b, f a = .ok b := by
  cases x <;> simp [bind, Except.bind]

theorem mapError_eq_ok_iff {ε' : Type} {g : ε → ε'} {a : α} :
    x.mapError g = .ok a ↔ x = .ok a := by
  cases x
  case error => exact ⟨nofun, nofun⟩
  case ok =>
    constructor
    all_goals exact fun h => congrArg _ <| Except.ok.inj h

theorem exists_mapError_eq_error_iff {ε' : Type} {g : ε → ε'} :
    (∃ e, x.mapError g = .error e) ↔ ¬∃ a, x = .ok a := by
  cases x
  case error e => exact ⟨fun _ => nofun, fun _ => ⟨g e, rfl⟩⟩
  case ok a    => exact ⟨nofun, fun h => absurd ⟨a, rfl⟩ h⟩

theorem exists_mapM_eq_ok_iff {as : List α} :
    (∃ bs, as.mapM f = .ok bs) ↔ ∀ a ∈ as, ∃ b, f a = .ok b := by
  induction as
  case nil => simp [pure, Except.pure]
  case cons a as hi =>
    rw [List.mapM_cons, exists_bind_eq_ok_iff, List.forall_mem_cons, ← hi]
    simp [exists_bind_eq_ok_iff, pure, Except.pure]

end Except

def Codec.Readable {α : Type} (c : Codec α) (j : Json) : Prop :=
  ∃ a, c.ofJson j = .ok a

namespace Fields

-- The names of the fields that have to be there.
def required : {α σ : Type} → Fields α σ → List String
  | _, _, .nil => []
  | _, _, .cons name .required _ rest => name :: rest.required
  | _, _, .cons _ (.optional _ _ _) _ rest => rest.required

-- The value of a key can be read, as that of the field of this name if there is one.
def Reads : {α σ : Type} → Fields α σ → String → Json → Prop
  | _, _, .nil, _, _ => True
  | _, _, .cons name _ c rest, key, value =>
    if key = name then c.Readable value else rest.Reads key value

-- The fields that have been read are those under the given keys.
def Filled (keys : List String) : {α σ : Type} → Fields α σ → σ → Prop
  | _, _, .nil, _ => True
  | _, _, .cons name _ _ rest, (slot, slots) => (slot.isSome ↔ name ∈ keys) ∧ rest.Filled keys slots

variable {keys : List String} {key : String} {value : Json} {members : List (String × Json)}

theorem filled_start : {α σ : Type} → (fields : Fields α σ) → fields.Filled [] fields.start
  | _, _, .nil => trivial
  | _, _, .cons _ _ _ rest => ⟨by simp, rest.filled_start⟩

-- A key of another name fills none of the fields.
theorem filled_concat_of_not_mem : {α σ : Type} → (fields : Fields α σ) → {slots : σ} →
    key ∉ fields.names → fields.Filled keys slots → fields.Filled (keys ++ [key]) slots
  | _, _, .nil, _, _, _ => trivial
  | _, _, .cons name _ _ rest, (slot, slots), hk, hf => by
    have ⟨hs, hr⟩ := hf
    rw [names, List.mem_cons, not_or] at hk
    exact ⟨by simp [hs, Ne.symm hk.left], rest.filled_concat_of_not_mem hk.right hr⟩

-- A key fills the first field of its name, so there has to be only one.
theorem filled_takeMember : {α σ : Type} → (fields : Fields α σ) → {slots slots' : σ} →
    fields.names.Nodup → fields.Filled keys slots →
    fields.takeMember slots (key, value) = .ok slots' → fields.Filled (keys ++ [key]) slots'
  | _, _, .nil, _, _, _, _, _ => trivial
  | _, _, .cons name presence c rest, (slot, slots), slots', hn, hf, ht => by
    have ⟨hs, hr⟩ := hf
    have ⟨hm, hn⟩ := List.nodup_cons.mp hn
    rw [takeMember] at ht
    split at ht
    case isTrue h =>
      have ⟨a, _, ht⟩ := bind_eq_ok_iff.mp ht
      cases ht
      exact ⟨by simp [h], rest.filled_concat_of_not_mem (h ▸ hm) hr⟩
    case isFalse h =>
      have ⟨next, hm, ht⟩ := bind_eq_ok_iff.mp ht
      cases ht
      exact ⟨by simp [hs, Ne.symm h], rest.filled_takeMember hn hr hm⟩

theorem exists_takeMember_iff : {α σ : Type} → (fields : Fields α σ) → (slots : σ) →
    ((∃ slots', fields.takeMember slots (key, value) = .ok slots') ↔ fields.Reads key value)
  | _, _, .nil, _ => by simp [takeMember, Reads]
  | _, _, .cons name _ c rest, (slot, slots) => by
    have hr := rest.exists_takeMember_iff slots
    rw [takeMember, Reads]
    split
    case isTrue  => simp [exists_bind_eq_ok_iff, Codec.Readable, pure, Except.pure]
    case isFalse => simp [exists_bind_eq_ok_iff, ← hr, pure, Except.pure]

theorem exists_finish_iff : {α σ : Type} → (fields : Fields α σ) → {slots : σ} →
    fields.Filled keys slots →
    ((∃ a, fields.finish slots = .ok a) ↔ ∀ name ∈ fields.required, name ∈ keys)
  | _, _, .nil, _, _ => by simp [finish, required]
  | _, _, .cons name presence _ rest, (slot, slots), hf => by
    have ⟨hs, hr⟩ := hf
    have hr := rest.exists_finish_iff hr
    cases slot <;> cases presence <;>
      simp_all [finish, required, exists_bind_eq_ok_iff, pure, Except.pure]

variable {α σ : Type}

theorem filled_foldlM {fields : Fields α σ} {slots slots' : σ} (hn : fields.names.Nodup)
    (hf : fields.Filled keys slots) (h : members.foldlM fields.takeMember slots = .ok slots') :
    fields.Filled (keys ++ members.map Prod.fst) slots' := by
  induction members generalizing keys slots
  case nil =>
    cases h
    simpa using hf
  case cons m members hi =>
    have ⟨next, hm, h⟩ := bind_eq_ok_iff.mp h
    have := hi (fields.filled_takeMember hn hf hm) h
    rwa [List.append_assoc] at this

theorem exists_foldlM_iff (fields : Fields α σ) (slots : σ) :
    (∃ slots', members.foldlM fields.takeMember slots = .ok slots') ↔
      ∀ m ∈ members, fields.Reads m.1 m.2 := by
  induction members generalizing slots
  case nil => simp [pure, Except.pure]
  case cons m members hi =>
    simp [exists_bind_eq_ok_iff, hi, ← fields.exists_takeMember_iff slots]

end Fields

namespace Codec

variable {α β σ : Type} {c : Codec α} {j : Json}

theorem readable_text_iff : text.Readable j ↔ ∃ s, j = .str s := by
  cases j <;> simp [Readable, ofJson, Json.text]

theorem exists_toNatural_iff {limit : Nat} {expected : String} {n : Number} :
    (∃ m, Scan.toNatural limit expected n = .ok m) ↔ ∃ m : Nat, m < limit ∧ n = .int m := by
  cases n
  case double => simp [Scan.toNatural]
  case int i =>
    simp only [Scan.toNatural, Number.int.injEq]
    split
    case isTrue h  => exact ⟨fun _ => ⟨i.toNat, h.right, by omega⟩, fun _ => ⟨_, rfl⟩⟩
    case isFalse h => exact ⟨nofun, fun ⟨m, hm, hi⟩ => absurd ⟨by omega, by omega⟩ h⟩

theorem readable_natural_iff {limit : Nat} {expected : String} :
    (natural limit expected).Readable j ↔ ∃ n : Nat, n < limit ∧ j = .num (.int n) := by
  cases j
  case num n => simp [Readable, ofJson, exists_toNatural_iff]
  all_goals simp [Readable, ofJson]

theorem readable_json_iff : json.Readable j ↔ ∃ k, j.unfold = .ok k := by
  rfl

theorem readable_option_iff : (option c).Readable j ↔ j = .null ∨ c.Readable j := by
  cases j <;> simp [Readable, ofJson, exists_bind_eq_ok_iff, pure, Except.pure]

theorem readable_via_iff {into : α → β} {back : β → α} {h : ∀ b, into (back b) = b} :
    (via into back h c).Readable j ↔ c.Readable j := by
  simp [Readable, ofJson, exists_bind_eq_ok_iff, pure, Except.pure]

theorem readable_list_iff :
    (list c).Readable j ↔ ∃ items, j = .arr items ∧ ∀ item ∈ items, c.Readable item := by
  cases j
  case arr items =>
    rw [Readable, ofJson, exists_mapM_eq_ok_iff]
    simp [Readable]
  all_goals simp [Readable, ofJson]

theorem readable_obj_iff {name : String} {fields : Fields α σ} {members : List (String × Json)}
    (h : fields.names.Nodup) : (record name fields).Readable (.obj members) ↔
      (∀ m ∈ members, fields.Reads m.1 m.2) ∧
        ∀ name ∈ fields.required, name ∈ members.map Prod.fst := by
  have hc {slots : σ} (hs : members.foldlM fields.takeMember fields.start = .ok slots) :
      (∃ a, fields.closed slots = .ok a) ↔
        ∀ name ∈ fields.required, name ∈ members.map Prod.fst := by
    have hf := Fields.filled_foldlM h fields.filled_start hs
    simp only [Fields.closed, mapError_eq_ok_iff]
    rw [fields.exists_finish_iff hf, List.nil_append]
  rw [Readable, ofJson, exists_bind_eq_ok_iff, ← fields.exists_foldlM_iff fields.start]
  constructor
  case mp =>
    intro ⟨slots, hs, ha⟩
    exact ⟨⟨slots, hs⟩, hc hs |>.mp ha⟩
  case mpr =>
    intro ⟨⟨slots, hs⟩, hr⟩
    exact ⟨slots, hs, hc hs |>.mpr hr⟩

end Codec
end Countersign
