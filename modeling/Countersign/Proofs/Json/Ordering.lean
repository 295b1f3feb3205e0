import Countersign.Json.Value

namespace Countersign.Json

-- Every key comes before those behind it, so no two of them are the same.
def Ascending (members : List (String × Json)) : Prop :=
  (members.map Prod.fst).Pairwise (· < ·)

variable {key k : String} {value : Json} {members acc : List (String × Json)} {m : String × Json}

theorem lt_of_not_lt (h : ¬k < key) (hn : k ≠ key) : key < k :=
  Decidable.byContradiction fun hk =>
    hn <| String.le_antisymm (String.not_lt.mp hk) (String.not_lt.mp h)

theorem ascending_nil : Ascending [] :=
  .nil

theorem ascending_cons_iff :
    Ascending (m :: members) ↔ (∀ n ∈ members, m.1 < n.1) ∧ Ascending members := by
  simp [Ascending]

theorem mem_of_mem_set (h : m ∈ set key value members) : m = (key, value) ∨ m ∈ members := by
  induction members
  case nil => exact .inl <| List.mem_singleton.mp h
  case cons n members hi =>
    rw [set] at h
    split at h
    case isTrue =>
      rcases List.mem_cons.mp h with rfl | h
      · exact .inr List.mem_cons_self
      · exact (hi h).imp_right <| List.mem_cons_of_mem n
    case isFalse =>
      split at h
      case isTrue  => exact (List.mem_cons.mp h).imp_right <| List.mem_cons_of_mem n
      case isFalse => exact List.mem_cons.mp h

-- No key is lost.
theorem mem_keys_set_iff :
    k ∈ (set key value members).map Prod.fst ↔ k = key ∨ k ∈ members.map Prod.fst := by
  induction members
  case nil => simp [set]
  case cons n members hi =>
    rw [set]
    split
    case isTrue => simp [hi, or_left_comm]
    case isFalse =>
      split
      case isTrue hn => simp [hn]
      case isFalse   => simp

theorem Ascending.set (h : Ascending members) : Ascending (set key value members) := by
  induction members
  case nil => exact .cons nofun .nil
  case cons n members hi =>
    have ⟨hn, hm⟩ := ascending_cons_iff.mp h
    rw [Json.set]
    split
    case isTrue hlt =>
      refine ascending_cons_iff.mpr ⟨fun m h => ?_, hi hm⟩
      rcases mem_of_mem_set h with rfl | h
      · exact hlt
      · exact hn m h
    case isFalse hlt =>
      split
      case isTrue he => exact ascending_cons_iff.mpr ⟨he ▸ hn, hm⟩
      case isFalse he =>
        have hk := lt_of_not_lt hlt he
        refine ascending_cons_iff.mpr ⟨fun m h => ?_, h⟩
        rcases List.mem_cons.mp h with rfl | h
        · exact hk
        · exact String.lt_trans hk (hn m h)

-- A key behind all others is added at the end.
theorem set_eq_concat (h : ∀ m ∈ members, m.1 < key) :
    set key value members = members ++ [(key, value)] := by
  induction members
  case nil => rfl
  case cons n members hi =>
    have ⟨hn, h⟩ := List.forall_mem_cons.mp h
    rw [set, if_pos hn, hi h, List.cons_append]

theorem foldl_set_of_ascending (h : Ascending (acc ++ members)) :
    members.foldl (fun acc (k, v) => set k v acc) acc = acc ++ members := by
  induction members generalizing acc
  case nil => simp
  case cons m members hi =>
    have hm : ∀ n ∈ acc, n.1 < m.1 := by
      rw [Ascending, List.map_append, List.pairwise_append] at h
      exact fun n hn => h.right.right _ (List.mem_map_of_mem hn) _ List.mem_cons_self
    have hs : set m.1 m.2 acc = acc ++ [m] := set_eq_concat hm
    rw [List.append_cons, ← hs] at h ⊢
    exact hi h

-- Members that are in order are left as they are.
theorem ofMembers_of_ascending (h : Ascending members) : ofMembers members = obj members :=
  congrArg obj <| foldl_set_of_ascending h

theorem set_perm (h : key ∉ members.map Prod.fst) :
    (set key value members).Perm ((key, value) :: members) := by
  induction members
  case nil => exact .refl _
  case cons n members hi =>
    rw [List.map_cons, List.mem_cons, not_or] at h
    rw [set]
    split
    case isTrue => exact (hi h.right).cons n |>.trans <| .swap ..
    case isFalse =>
      rw [if_neg (Ne.symm h.left)]

theorem foldl_set_perm (h : ((acc ++ members).map Prod.fst).Nodup) :
    (members.foldl (fun acc (k, v) => set k v acc) acc).Perm (acc ++ members) := by
  induction members generalizing acc
  case nil => simp
  case cons m members hi =>
    have hp : (set m.1 m.2 acc ++ members).Perm (acc ++ m :: members) := by
      have hm : m.1 ∉ acc.map Prod.fst := by
        rw [List.map_append, List.nodup_append] at h
        exact fun hm => h.right.right _ hm _ List.mem_cons_self rfl
      exact (set_perm hm).append_right members |>.trans List.perm_middle.symm
    exact hi (hp.map Prod.fst |>.nodup_iff.mpr h) |>.trans hp

-- Members with different keys are only put in order.
theorem ofMembers_perm (h : (members.map Prod.fst).Nodup) :
    ∃ sorted, ofMembers members = obj sorted ∧ sorted.Perm members :=
  ⟨_, rfl, foldl_set_perm h⟩

end Countersign.Json
