import Countersign.Proofs.Codec.Citation
import Countersign.Proofs.Codec.Tree

namespace Countersign

open Json

mutual

-- Numbers lie below their limits, and JSON values are canonical, with no embedded texts in them.
def Codec.IsProper : {α : Type} → Codec α → α → Prop
  | _, .natural limit _, n => n < limit
  | _, .json, j => j.Canonical ∧ ¬j.Embeds
  | _, .option _, none => True
  | _, .option c, some a => c.IsProper a
  | _, .list c, as => ∀ a ∈ as, c.IsProper a
  | _, .record _ fields, a => fields.AreProper a
  | _, .via _ back _ c, b => c.IsProper (back b)
  | _, .text, _ => True
  | _, .flag, _ => True
  | _, .formatted _ _ _, _ => True
  | _, .raw, _ => True
  | _, .choice _, _ => True

def Fields.AreProper : {α σ : Type} → Fields α σ → α → Prop
  | _, _, .nil, _ => True
  | _, _, .cons _ _ c rest, (a, b) => c.IsProper a ∧ rest.AreProper b

end

attribute [simp] Codec.IsProper Fields.AreProper

mutual

-- Nothing is lost in seeing a value as one of another type, and what missing fields stand for is
-- proper.
def Codec.IsLossless : {α : Type} → Codec α → Prop
  | _, .option c => c.IsLossless
  | _, .list c => c.IsLossless
  | _, .record _ fields => fields.AreLossless
  | _, .via into back _ c => (∀ a, back (into a) = a) ∧ c.IsLossless
  | _, .text => True
  | _, .flag => True
  | _, .natural _ _ => True
  | _, .formatted _ _ _ => True
  | _, .raw => True
  | _, .json => True
  | _, .choice _ => True

def Fields.AreLossless : {α σ : Type} → Fields α σ → Prop
  | _, _, .nil => True
  | _, _, .cons _ presence c rest => c.IsLossless ∧
    (∀ a, presence.default? = some a → c.IsProper a) ∧ rest.AreLossless

end

attribute [simp] Codec.IsLossless Fields.AreLossless

namespace Fields

variable {α σ : Type}

-- The fields that have been read are proper.
def Keep : {α σ : Type} → Fields α σ → σ → Prop
  | _, _, .nil, _ => True
  | _, _, .cons _ _ c rest, (slot, slots) => (∀ a ∈ slot, c.IsProper a) ∧ rest.Keep slots

theorem keep_start : {α σ : Type} → (fields : Fields α σ) → fields.Keep fields.start
  | _, _, .nil => trivial
  | _, _, .cons _ _ _ rest => ⟨nofun, rest.keep_start⟩

-- A record is closed with the fields that have been read and the defaults of those that have not.
theorem areProper_of_finish : {α σ : Type} → (fields : Fields α σ) → {slots : σ} → {a : α} →
    fields.AreLossless → fields.Keep slots → fields.finish slots = .ok a → fields.AreProper a
  | _, _, .nil, _, _, _, _, _ => trivial
  | _, _, .cons name presence c rest, (some a, slots), _, hl, hk, h => by
    have ⟨_, _, hr⟩ := hl
    have ⟨hs, hk⟩ := hk
    obtain ⟨_, ⟨⟩, h⟩ := bind_eq_ok_iff.mp h
    obtain ⟨b, hb, ⟨⟩⟩ := bind_eq_ok_iff.mp h
    exact ⟨hs a rfl, rest.areProper_of_finish hr hk hb⟩
  | _, _, .cons name presence c rest, (none, slots), _, hl, hk, h => by
    have ⟨_, hd, hr⟩ := hl
    cases presence
    case required => cases h
    case optional =>
      obtain ⟨_, ⟨⟩, h⟩ := bind_eq_ok_iff.mp h
      obtain ⟨b, hb, ⟨⟩⟩ := bind_eq_ok_iff.mp h
      exact ⟨hd _ rfl, rest.areProper_of_finish hr hk.right hb⟩

end Fields

section Lists

variable {ε α β σ : Type} {as : List α}

theorem forall_of_mapM {f : α → Except ε β} {P : α → Prop} {Q : β → Prop} {bs : List β}
    (hf : ∀ a b, P a → f a = .ok b → Q b) (ha : ∀ a ∈ as, P a) (h : as.mapM f = .ok bs) :
    ∀ b ∈ bs, Q b := by
  induction as generalizing bs
  case nil =>
    cases h
    exact nofun
  case cons a as hi =>
    have ⟨hp, ha⟩ := List.forall_mem_cons.mp ha
    rw [List.mapM_cons] at h
    obtain ⟨b, hb, h⟩ := bind_eq_ok_iff.mp h
    obtain ⟨bs, hbs, ⟨⟩⟩ := bind_eq_ok_iff.mp h
    exact List.forall_mem_cons.mpr ⟨hf a b hp hb, hi ha hbs⟩

theorem of_foldlM {f : σ → α → Except ε σ} {P : α → Prop} {I : σ → Prop} {st st' : σ}
    (hf : ∀ st a st', P a → I st → f st a = .ok st' → I st') (ha : ∀ a ∈ as, P a) (hs : I st)
    (h : as.foldlM f st = .ok st') : I st' := by
  induction as generalizing st
  case nil =>
    cases h
    exact hs
  case cons a as hi =>
    have ⟨hp, ha⟩ := List.forall_mem_cons.mp ha
    rw [List.foldlM_cons] at h
    obtain ⟨next, hn, h⟩ := bind_eq_ok_iff.mp h
    exact hi ha (hf st a next hp hs hn) h

end Lists

theorem Json.Canonical.items {items : List Json} (h : (Json.arr items).Canonical) :
    ∀ item ∈ items, item.Canonical := by
  cases h
  assumption

theorem Json.Canonical.members {members : List (String × Json)} (h : (Json.obj members).Canonical) :
    ∀ m ∈ members, m.2.Canonical := by
  cases h
  assumption

mutual

theorem Codec.isProper_of_ofJson : {α : Type} → (c : Codec α) → {j : Json} → {a : α} →
    c.IsLossless → j.Canonical → c.ofJson j = .ok a → c.IsProper a
  | _, .natural limit expected, j, n, _, _, h => by
    cases j
    case num => exact (Scan.of_toNatural h).right
    all_goals cases h
  | _, .json, j, k, _, hj, h => by
    have := hj.eq_of_unfold h
    exact this ▸ ⟨hj, hj.not_embeds h⟩
  | _, .option c, j, none, _, _, _ => trivial
  | _, .option c, j, some a, hl, hj, h => by
    have hn : j ≠ .null := by
      rintro rfl
      cases h
    rw [Codec.ofJson_option_of_ne hn] at h
    obtain ⟨_, ha, ⟨⟩⟩ := bind_eq_ok_iff.mp h
    exact c.isProper_of_ofJson hl hj ha
  | _, .list c, j, as, hl, hj, h => by
    cases j
    case arr items => exact forall_of_mapM (fun _ _ => c.isProper_of_ofJson hl) hj.items h
    all_goals cases h
  | _, .record name fields, j, a, hl, hj, h => by
    cases j
    case obj members =>
      obtain ⟨slots, hs, h⟩ := bind_eq_ok_iff.mp h
      have hk := of_foldlM (P := fun m => m.2.Canonical) (fun _ _ _ => fields.keep_takeMember hl)
        hj.members fields.keep_start hs
      exact fields.areProper_of_finish hl hk <| mapError_eq_ok_iff.mp h
    case arr items =>
      obtain ⟨⟨b, extra⟩, hi, h⟩ := bind_eq_ok_iff.mp h
      dsimp only at h
      split at h
      case isFalse => cases h
      case isTrue =>
        cases h
        exact fields.areProper_of_takeItems hl hj.items hi
    all_goals cases h
  | _, .via into back _ c, j, b, hl, hj, h => by
    obtain ⟨a, ha, ⟨⟩⟩ := bind_eq_ok_iff.mp h
    rw [Codec.IsProper, hl.left]
    exact c.isProper_of_ofJson hl.right hj ha
  | _, .text, _, _, _, _, _ => trivial
  | _, .flag, _, _, _, _, _ => trivial
  | _, .formatted _ _ _, _, _, _, _, _ => trivial
  | _, .raw, _, _, _, _, _ => trivial
  | _, .choice _, _, _, _, _, _ => trivial

theorem Fields.keep_takeMember : {α σ : Type} → (fields : Fields α σ) → {slots slots' : σ} →
    {m : String × Json} → fields.AreLossless → m.2.Canonical → fields.Keep slots →
    fields.takeMember slots m = .ok slots' → fields.Keep slots'
  | _, _, .nil, _, _, _, _, _, _, _ => trivial
  | _, _, .cons name _ c rest, (slot, slots), slots', (key, value), hl, hv, hk, h => by
    have ⟨hc, _, hr⟩ := hl
    have ⟨hs, hk⟩ := hk
    rw [Fields.takeMember] at h
    split at h
    case isTrue =>
      obtain ⟨a, ha, ⟨⟩⟩ := bind_eq_ok_iff.mp h
      refine ⟨?_, hk⟩
      rintro _ ⟨⟩
      exact c.isProper_of_ofJson hc hv ha
    case isFalse =>
      obtain ⟨next, hn, ⟨⟩⟩ := bind_eq_ok_iff.mp h
      exact ⟨hs, rest.keep_takeMember hr hv hk hn⟩

theorem Fields.areProper_of_takeItems : {α σ : Type} → (fields : Fields α σ) →
    {expected : String} → {index : Nat} → {items extra : List Json} → {a : α} →
    fields.AreLossless → (∀ item ∈ items, item.Canonical) →
    fields.takeItems expected index items = .ok (a, extra) → fields.AreProper a
  | _, _, .nil, _, _, _, _, _, _, _, _ => trivial
  | _, _, .cons _ presence c rest, _, _, item :: items, _, _, hl, hi, h => by
    have ⟨hc, _, hr⟩ := hl
    have ⟨hj, hi⟩ := List.forall_mem_cons.mp hi
    obtain ⟨a, ha, h⟩ := bind_eq_ok_iff.mp h
    obtain ⟨⟨b, _⟩, hb, ⟨⟩⟩ := bind_eq_ok_iff.mp h
    exact ⟨c.isProper_of_ofJson hc hj ha, rest.areProper_of_takeItems hr hi hb⟩
  | _, _, .cons _ presence c rest, _, _, [], _, _, hl, hi, h => by
    have ⟨_, hd, hr⟩ := hl
    cases presence
    case required => cases h
    case optional =>
      obtain ⟨_, ⟨⟩, h⟩ := bind_eq_ok_iff.mp h
      obtain ⟨⟨b, _⟩, hb, ⟨⟩⟩ := bind_eq_ok_iff.mp h
      exact ⟨hd _ rfl, rest.areProper_of_takeItems hr hi hb⟩

end

end Countersign
