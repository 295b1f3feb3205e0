import Countersign.Proofs.Codec.Reading
import Countersign.Proofs.Json.Canonical
import Countersign.Proofs.Json.Embedding
import Countersign.Proofs.Json.Rewriting

namespace Countersign.Json

-- Somewhere in the value there is a floating point number.
inductive HoldsDouble : Json → Prop
  | here (d : Double) : HoldsDouble (num (.double d))
  | item {items : List Json} {item : Json} (h : item ∈ items) : HoldsDouble item →
    HoldsDouble (arr items)
  | member {members : List (String × Json)} {m : String × Json} (h : m ∈ members) :
    HoldsDouble m.2 → HoldsDouble (obj members)

mutual

-- How many brackets stand open at once in the text of the value.
def height : Json → Nat
  | arr items => heightItems items + 1
  | obj members => heightMembers members + 1
  | _ => 0

def heightItems : List Json → Nat
  | [] => 0
  | item :: rest => max (height item) (heightItems rest)

def heightMembers : List (String × Json) → Nat
  | [] => 0
  | (_, value) :: rest => max (height value) (heightMembers rest)

end

variable {j k : Json} {items : List Json} {members : List (String × Json)} {depth : Nat}

theorem heightItems_le_iff : heightItems items ≤ depth ↔ ∀ item ∈ items, item.height ≤ depth := by
  induction items
  case nil     => simp [heightItems]
  case cons hi => simp [heightItems, hi]

theorem heightMembers_le_iff :
    heightMembers members ≤ depth ↔ ∀ m ∈ members, m.2.height ≤ depth := by
  induction members
  case nil     => simp [heightMembers]
  case cons hi => simp [heightMembers, hi]

theorem holdsDouble_arr_iff : (arr items).HoldsDouble ↔ ∃ item ∈ items, item.HoldsDouble where
  mp h := by
    cases h
    case item item hd hm => exact ⟨item, hm, hd⟩
  mpr h :=
    have ⟨_, hm, hd⟩ := h
    .item hm hd

theorem holdsDouble_obj_iff : (obj members).HoldsDouble ↔ ∃ m ∈ members, m.2.HoldsDouble where
  mp h := by
    cases h
    case member m hd hm => exact ⟨m, hm, hd⟩
  mpr h :=
    have ⟨_, hm, hd⟩ := h
    .member hm hd

mutual

instance decidableHoldsDouble : (j : Json) → Decidable j.HoldsDouble
  | num (.double d) => .isTrue (.here d)
  | num (.int _) => .isFalse nofun
  | arr items =>
    have := decidableItemHoldsDouble items
    decidable_of_iff' _ holdsDouble_arr_iff
  | obj members =>
    have := decidableMemberHoldsDouble members
    decidable_of_iff' _ holdsDouble_obj_iff
  | null => .isFalse nofun
  | bool _ => .isFalse nofun
  | str _ => .isFalse nofun

instance decidableItemHoldsDouble : (items : List Json) →
    Decidable (∃ item ∈ items, item.HoldsDouble)
  | [] => .isFalse nofun
  | item :: rest =>
    have := item.decidableHoldsDouble
    have := decidableItemHoldsDouble rest
    decidable_of_iff' (item.HoldsDouble ∨ ∃ i ∈ rest, i.HoldsDouble) (by simp)

instance decidableMemberHoldsDouble : (members : List (String × Json)) →
    Decidable (∃ m ∈ members, m.2.HoldsDouble)
  | [] => .isFalse nofun
  | (_, value) :: rest =>
    have := value.decidableHoldsDouble
    have := decidableMemberHoldsDouble rest
    decidable_of_iff' (value.HoldsDouble ∨ ∃ m ∈ rest, m.2.HoldsDouble) (by simp)

end

theorem Embeds.of_arr (h : (arr items).Embeds) : ∃ item ∈ items, item.Embeds := by
  cases h
  case item item he hm => exact ⟨item, hm, he⟩

theorem Embeds.of_obj (h : (obj members).Embeds) :
    (∃ m ∈ members.head?, m.1 = embeddingKey) ∨ ∃ m ∈ members, m.2.Embeds := by
  cases h
  case here           => exact .inl ⟨_, rfl, rfl⟩
  case member m he hm => exact .inr ⟨m, hm, he⟩

-- A legible value holds no embedded texts.
theorem Legible.not_embeds (h : j.Legible depth) : ¬j.Embeds := by
  induction h
  case arr hi =>
    intro he
    obtain ⟨item, hm, he⟩ := he.of_arr
    exact hi item hm he
  case obj hf _ hi =>
    intro he
    rcases he.of_obj with ⟨m, hm, hk⟩ | ⟨m, hm, he⟩
    · exact hf m hm hk
    · exact hi m hm he
  all_goals exact nofun

-- A canonical value is legible within its height.
theorem Canonical.legible (h : j.Canonical) (hd : ¬j.HoldsDouble) (he : ¬j.Embeds)
    (hh : j.height ≤ depth) : j.Legible depth := by
  induction h generalizing depth
  case null     => exact .null
  case bool b   => exact .bool b
  case int h    => exact .int h
  case double d => exact absurd (.here d) hd
  case str s    => exact .str s
  case arr items _ hi =>
    obtain ⟨depth, rfl⟩ := Nat.exists_eq_add_one_of_ne_zero <| Nat.ne_zero_of_lt hh
    have hh := heightItems_le_iff.mp <| Nat.le_of_succ_le_succ hh
    exact .arr fun item h => hi item h (hd ∘ .item h) (he ∘ .item h) (hh item h)
  case obj members _ _ _ hi =>
    obtain ⟨depth, rfl⟩ := Nat.exists_eq_add_one_of_ne_zero <| Nat.ne_zero_of_lt hh
    have hh := heightMembers_le_iff.mp <| Nat.le_of_succ_le_succ hh
    refine .obj (fun m hm hk => he ?_) fun m h => hi m h (hd ∘ .member h) (he ∘ .member h) (hh m h)
    obtain ⟨rest, rfl⟩ := List.head?_eq_some_iff.mp hm
    exact (show m = (embeddingKey, m.2) from Prod.ext hk rfl) ▸ .here

theorem Canonical.settled (h : j.Canonical) : j.settled = j := by
  induction h
  case arr hi =>
    rw [Json.settled, settledItems_eq, List.map_congr_left hi, List.map_id']
  case obj members ha _ _ hi =>
    have hs : settledMembers members = members := by
      have hm : ∀ m ∈ members, (m.1, m.2.settled) = id m := fun m h => Prod.ext rfl (hi m h)
      rw [settledMembers_eq, List.map_congr_left hm, List.map_id]
    rw [Json.settled, hs, ofMembers_of_ascending ha]
  all_goals rfl

theorem unfoldItems_eq : unfoldItems items = items.mapM unfold := by
  induction items
  case nil     => rfl
  case cons hi => rw [unfoldItems, hi, List.mapM_cons]

theorem exists_unfold_of_mem {ms : List (String × Json)} (h : unfoldMembers members = .ok ms) :
    ∀ m ∈ members, ∃ k, m.2.unfold = .ok k := by
  induction members generalizing ms
  case nil => exact nofun
  case cons hi =>
    rw [unfoldMembers] at h
    obtain ⟨k, hk, h⟩ := bind_eq_ok_iff.mp h
    obtain ⟨_, hr, _⟩ := bind_eq_ok_iff.mp h
    exact List.forall_mem_cons.mpr ⟨⟨k, hk⟩, hi hr⟩

-- An object that begins with the key of an embedded text can be replaced if it has no other.
theorem of_unfold_obj (hr : ∀ text, members ≠ [(embeddingKey, text)])
    (h : (obj members).unfold = .ok k) : (∀ m ∈ members.head?, m.1 ≠ embeddingKey) ∧
      ∀ m ∈ members, ∃ k, m.2.unfold = .ok k := by
  cases members
  case nil => exact ⟨nofun, nofun⟩
  case cons m rest =>
    rw [unfold] at h
    split at h
    case isTrue hk =>
      obtain ⟨_, _, h⟩ := bind_eq_ok_iff.mp h
      obtain ⟨_, _, h⟩ := bind_eq_ok_iff.mp h
      split at h
      case isFalse => cases h
      case isTrue hn =>
        rw [List.isEmpty_iff.mp hn] at hr
        exact absurd (congrArg (fun k => [(k, m.2)]) hk) (hr m.2)
    case isFalse hk =>
      obtain ⟨k, hv, h⟩ := bind_eq_ok_iff.mp h
      obtain ⟨_, hms, _⟩ := bind_eq_ok_iff.mp h
      exact ⟨fun _ hm => Option.some.inj hm ▸ hk,
        List.forall_mem_cons.mpr ⟨⟨k, hv⟩, exists_unfold_of_mem hms⟩⟩

-- No embedded text is left in a canonical value whose embedded texts can be replaced.
theorem Canonical.not_embeds (h : j.Canonical) (hu : j.unfold = .ok k) : ¬j.Embeds := by
  induction h generalizing k
  case arr hi =>
    rw [unfold, unfoldItems_eq] at hu
    obtain ⟨ks, hks, _⟩ := bind_eq_ok_iff.mp hu
    intro he
    obtain ⟨item, hm, he⟩ := he.of_arr
    obtain ⟨_, hk⟩ := exists_mapM_eq_ok_iff.mp ⟨ks, hks⟩ item hm
    exact hi item hm hk he
  case obj hr _ hi =>
    obtain ⟨hf, hv⟩ := of_unfold_obj hr hu
    intro he
    rcases he.of_obj with ⟨m, hm, hk⟩ | ⟨m, hm, he⟩
    · exact hf m hm hk
    · obtain ⟨_, hk⟩ := hv m hm
      exact hi m hm hk he
  all_goals exact nofun

theorem Canonical.eq_of_unfold (h : j.Canonical) (hu : j.unfold = .ok k) : k = j :=
  Except.ok.inj <| hu.symm.trans <| unfold_eq_self j <| h.not_embeds hu

end Countersign.Json
