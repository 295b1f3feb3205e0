import Countersign.Log.Chain

namespace Countersign.Chain

theorem toList_loop (b : ByteArray) (i : Nat) (r : List UInt8) :
    ByteArray.toList.loop b i r = r.reverse ++ b.data.toList.drop i := by
  fun_induction ByteArray.toList.loop b i r
  case case1 i r h hi =>
    have hl : i < b.data.toList.length := h
    have hg : b.get! i = b.data.toList[i] := getElem!_pos b.data i h
    rw [hi, List.reverse_cons, List.append_assoc, List.drop_eq_getElem_cons hl, hg]
    rfl
  case case2 h => simp [Nat.le_of_not_lt h]

theorem bytes_eq_toList (s : String) : bytes s = s.toByteArray.data.toList :=
  toList_loop s.toByteArray 0 []

@[simp]
theorem length_bytes (s : String) : (bytes s).length = s.utf8ByteSize := by
  simp [bytes_eq_toList]

@[simp]
theorem bytes_append (s t : String) : bytes (s ++ t) = bytes s ++ bytes t := by
  simp [bytes_eq_toList]

theorem bytes_ofList (cs : List Char) :
    bytes (String.ofList cs) = cs.flatMap String.utf8EncodeChar := by
  simp [bytes_eq_toList, List.utf8Encode]

theorem length_bytes_ofList {cs : List Char} (h : ∀ c ∈ cs, c.utf8Size = 1) :
    (bytes <| String.ofList cs).length = cs.length := by
  have h (c : Char) (hc : c ∈ cs) : (String.utf8EncodeChar c).length = 1 := by
    rw [String.length_utf8EncodeChar, h c hc]
  rw [bytes_ofList, List.length_flatMap, List.map_congr_left h, List.map_const',
    List.sum_replicate_nat, Nat.mul_one]

theorem eq_of_bytes_eq {s t : String} (h : bytes s = bytes t) : s = t := by
  simp only [bytes_eq_toList] at h
  exact String.toByteArray_inj.mp <| ByteArray.ext <| Array.toList_inj.mp h

theorem exists_eq_append_of_bytes {s t : String} {before : List UInt8}
    (h : bytes t = before ++ bytes s) : ∃ u, t = u ++ s ∧ bytes u = before := by
  have hv : String.Pos.Raw.IsValid t ⟨before.length⟩ := by
    simp only [bytes_eq_toList] at h
    rw [String.Pos.Raw.isValid_iff_isUTF8FirstByte]
    by_cases hs : s = ""
    case pos =>
      refine .inl <| String.Pos.Raw.ext ?_
      simpa [hs] using (congrArg List.length h).symm
    case neg =>
      -- A text begins with the first byte of a character.
      have hz : 0 < s.toByteArray.size := by
        simpa [Nat.pos_iff_ne_zero] using hs
      have hf : s.toByteArray[0].IsUTF8FirstByte := s.isValidUTF8.isUTF8FirstByte_getElem_zero hz
      have hb : t.toByteArray.data.toList[before.length]? = some s.toByteArray[0] := by
        rw [h, List.getElem?_append_right (Nat.le_refl _), Nat.sub_self]
        exact List.getElem?_eq_getElem hz
      have ⟨hl, he⟩ := List.getElem?_eq_some_iff.mp hb
      have he : t.getUTF8Byte ⟨before.length⟩ hl = s.toByteArray[0] := he
      exact .inr ⟨hl, he ▸ hf⟩
  have ⟨u, v, ht, hp⟩ := String.Pos.Raw.isValid_iff_exists_append.mp hv
  have hl : before.length = (bytes u).length := by
    simpa using congrArg String.Pos.Raw.byteIdx hp
  rw [ht, bytes_append] at h
  have ⟨hu, hs⟩ := List.append_inj h hl.symm
  exact ⟨u, eq_of_bytes_eq hs ▸ ht, hu⟩

end Countersign.Chain
