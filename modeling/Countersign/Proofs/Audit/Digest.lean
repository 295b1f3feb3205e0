import Mathlib.Algebra.Group.Nat.Defs
import Countersign.Proofs.Audit.Bytes
import Countersign.Proofs.Codec.Nesting

namespace Countersign

namespace DecisionRecord

open Json Json.Place

variable {r₁ r₂ : DecisionRecord} {before₁ before₂ : List UInt8}

section Written

variable [Wording]

theorem write_eq_cons (r : DecisionRecord) :
    ∃ rest, codec.write .compact 0 r = '\x7b' :: '"' :: 'r' :: rest :=
  ⟨_, rfl⟩

theorem nested_write (r : DecisionRecord) : Nested (codec.write .compact 0 r) :=
  codec.nested_write rfl 0 r

theorem run_write (r : DecisionRecord) : start.run (codec.write .compact 0 r) = done := by
  unfold codec
  rw [Codec.write]
  exact Codec.run_record rfl _

theorem text_eq (r : DecisionRecord) : r.text = codec.compact r :=
  rfl

end Written

-- No record's text ends another one's, not even as bytes.
theorem eq_of_text_eq_append {before : List UInt8}
    (h : Chain.bytes r₁.text = before ++ Chain.bytes r₂.text) : before = [] ∧ r₁.text = r₂.text := by
  let words := Wording.brief
  have ⟨u, hu, hb⟩ := Chain.exists_eq_append_of_bytes h
  have ⟨rest, hw⟩ := write_eq_cons r₂
  have ht : codec.write .compact 0 r₁ = u.toList ++ codec.write .compact 0 r₂ := by
    simpa [text_eq, Codec.compact] using congrArg String.toList hu
  have hr := run_write r₁
  have hn := nested_write r₂
  rw [ht, hw] at hr
  rw [hw] at hn
  have he : u = "" := String.toList_eq_nil_iff.mp <| eq_nil_of_run_append hr hn fun _ => rfl
  constructor
  case left  => simp [← hb, he, Chain.bytes_eq_toList]
  case right => simp [hu, he]

theorem text_inj_of_append
    (h : before₁ ++ Chain.bytes r₁.text = before₂ ++ Chain.bytes r₂.text) :
    before₁ = before₂ ∧ r₁.text = r₂.text := by
  cases List.append_eq_append_iff.mp h
  case inl h =>
    have ⟨between, hb, hr⟩ := h
    have ⟨hn, he⟩ := eq_of_text_eq_append hr
    exact ⟨by simp [hb, hn], he⟩
  case inr h =>
    have ⟨between, hb, hr⟩ := h
    have ⟨hn, he⟩ := eq_of_text_eq_append hr
    exact ⟨by simp [hb, hn], he.symm⟩

end DecisionRecord

namespace Sha256

theorem length_bigEndian (count n : Nat) : (bigEndian count n).length = count := by
  induction count generalizing n
  case zero => rfl
  case succ hi => simp [bigEndian, hi]

theorem length_digest (message : List UInt8) : (digest message).length = 32 := by
  simp [digest, State.words, length_bigEndian]

theorem digitChar_inj {m n : Nat} (hm : m < 16) (hn : n < 16)
    (h : Nat.digitChar m = Nat.digitChar n) : m = n := by
  have hd : ∀ m < 16, ∀ n < 16, Nat.digitChar m = Nat.digitChar n → m = n := by decide
  exact hd m hm n hn h

theorem utf8Size_digitChar {n : Nat} (h : n < 16) : (Nat.digitChar n).utf8Size = 1 := by
  revert n
  decide

theorem digest_eq_of_hexDigest {x y : List UInt8} (h : hexDigest x = hexDigest y) :
    digest x = digest y := by
  have hl : (digest x).length = (digest y).length := by rw [length_digest, length_digest]
  unfold hexDigest at h
  generalize digest x = bs at h hl ⊢
  generalize digest y = cs at h hl ⊢
  induction bs generalizing cs
  case nil => exact (List.eq_nil_of_length_eq_zero hl.symm).symm
  case cons b bs hi =>
    cases cs
    case nil => cases hl
    case cons c cs =>
      simp only [List.flatMap_cons, List.cons_append, List.nil_append, List.cons.injEq] at h
      have hb := b.toNat_lt
      have hc := c.toNat_lt
      have hd := digitChar_inj (by omega) (by omega) h.left
      have hm := digitChar_inj (by omega) (by omega) h.right.left
      have he : b = c := UInt8.toNat_inj.mp (by omega)
      rw [he, hi cs h.right.right (Nat.succ.inj hl)]

theorem length_hexDigest (message : List UInt8) : (hexDigest message).length = 64 := by
  rw [hexDigest, List.length_flatMap]
  simp only [List.length_cons, List.length_nil, List.map_const', List.sum_replicate_nat,
    length_digest]

theorem exists_digit_of_mem_hexDigest {message : List UInt8} {c : Char}
    (h : c ∈ hexDigest message) : ∃ n < 16, c = Nat.digitChar n := by
  have ⟨b, _, hc⟩ := List.mem_flatMap.mp h
  have hb := b.toNat_lt
  simp only [List.mem_cons, List.not_mem_nil, or_false] at hc
  cases hc
  case inl hc => exact ⟨_, by omega, hc⟩
  case inr hc => exact ⟨_, by omega, hc⟩

theorem utf8Size_of_mem_hexDigest {message : List UInt8} {c : Char} (h : c ∈ hexDigest message) :
    c.utf8Size = 1 := by
  have ⟨_, hn, hc⟩ := exists_digit_of_mem_hexDigest h
  exact hc ▸ utf8Size_digitChar hn

end Sha256

namespace Chain

variable {w v p q : String} {m n : Nat} {a b : DecisionRecord}

theorem length_bytes_genesis : (bytes genesis).length = 64 := by
  rw [length_bytes]
  decide

theorem length_bytes_digest : (bytes <| digest w m p a).length = 64 := by
  rw [digest, length_bytes_ofList fun _ => Sha256.utf8Size_of_mem_hexDigest,
    Sha256.length_hexDigest]

theorem sha256_eq_of_digest_eq (h : digest w m p a = digest v n q b) :
    Sha256.digest (digestInput w m p a) = Sha256.digest (digestInput v n q b) :=
  Sha256.digest_eq_of_hexDigest <| String.ofList_injective h

theorem length_littleEndian (count n : Nat) : (littleEndian count n).length = count := by
  induction count generalizing n
  case zero => rfl
  case succ hi => simp [littleEndian, hi]

theorem littleEndian_inj {count : Nat} (hm : m < 256 ^ count) (hn : n < 256 ^ count)
    (h : littleEndian count m = littleEndian count n) : m = n := by
  induction count generalizing m n
  case zero => omega
  case succ count hi =>
    simp only [littleEndian, List.cons.injEq] at h
    have hr : m % 256 = n % 256 := by simpa using congrArg UInt8.toNat h.left
    have hq : m / 256 = n / 256 := hi (by omega) (by omega) h.right
    omega

-- The parts of a digest's input, the name and the link being taken together with the number.
theorem digestInput_inj (h : digestInput w m p a = digestInput v n q b) :
    bytes w ++ littleEndian 8 m ++ bytes p = bytes v ++ littleEndian 8 n ++ bytes q ∧
      a.text = b.text :=
  DecisionRecord.text_inj_of_append h

-- Links of one length leave no doubt where the name ends.
theorem digestInput_inj_of_length (hm : m < 2 ^ 64) (hn : n < 2 ^ 64)
    (hl : (bytes p).length = (bytes q).length) (h : digestInput w m p a = digestInput v n q b) :
    w = v ∧ m = n ∧ p = q ∧ a.text = b.text := by
  have ⟨hb, hr⟩ := digestInput_inj h
  have ⟨hb, hp⟩ := List.append_inj' hb hl
  have ⟨hw, hs⟩ := List.append_inj' hb <| by simp [length_littleEndian]
  exact ⟨eq_of_bytes_eq hw, littleEndian_inj hm hn hs, eq_of_bytes_eq hp, hr⟩

end Chain
end Countersign
