import Countersign.Uuid
import Mathlib.Data.List.Basic

namespace Countersign.Uuid

variable {a b c d e cs : List Char}

theorem ungroup?_hyphens (ha : a.length = 8) (hb : b.length = 4) (hc : c.length = 4)
    (hd : d.length = 4) (he : e.length = 12) :
    ungroup? (a ++ '-' :: b ++ '-' :: c ++ '-' :: d ++ '-' :: e) =
      some (a ++ b ++ c ++ d ++ e) := by
  simp [ungroup?, ha, hb, hc, hd, he, List.drop_append, List.drop_eq_nil_of_le]

theorem unwrap_of_length (h : cs.length = 36) : unwrap cs = cs := by
  simp [unwrap, h]

theorem digit?_digitChar (d : Fin 16) : digit? (Nat.digitChar d.val) = some d := by
  revert d
  decide

theorem mapM_digit?_digitChar (ds : List (Fin 16)) :
    (ds.map fun d => Nat.digitChar d.val).mapM digit? = some ds := by
  induction ds
  case nil => rfl
  case cons d ds hi => simp [digit?_digitChar, hi]

theorem take_drop_append (n k : Nat) : (cs.drop n).take k ++ cs.drop (n + k) = cs.drop n := by
  rw [← List.drop_drop, List.take_append_drop]

theorem join_groups (cs : List Char) : cs.take 8 ++ (cs.drop 8).take 4 ++ (cs.drop 12).take 4 ++
    (cs.drop 16).take 4 ++ cs.drop 20 = cs := by
  simp only [List.append_assoc]
  rw [take_drop_append 16 4, take_drop_append 12 4, take_drop_append 8 4, List.take_append_drop]

-- An identifier is read back from its text.
theorem read_text [Wording] (u : Uuid) : read u.text = .ok u := by
  let ds := u.digits.map fun d => Nat.digitChar d.val
  have hl : ds.length = 32 := by simp [ds, u.length_eq]
  have hu : u.text.toList = ds.take 8 ++ '-' :: (ds.drop 8).take 4 ++ '-' :: (ds.drop 12).take 4 ++
      '-' :: (ds.drop 16).take 4 ++ '-' :: ds.drop 20 := String.toList_ofList
  have hn : u.text.toList.length = 36 := by simp [hu, hl]
  have hg : ungroup? (unwrap u.text.toList) = some ds := by
    rw [unwrap_of_length hn, hu, ungroup?_hyphens, join_groups]
    all_goals simp [hl]
  have hp : ofPlain? ds = some u := by
    rw [ofPlain?, mapM_digit?_digitChar]
    exact dif_pos u.length_eq
  simp [read, hn, hg, hp]

end Countersign.Uuid
