import Countersign.Json.Numeral
import Countersign.Json.Writer
import Countersign.Proofs.Json.Extent
import Mathlib.Data.Nat.Digits.Defs

namespace Countersign

open Json Symbols

namespace Text

variable {c : Char} {n : Nat}

theorem digit?_of_isDigit (h : c.isDigit) : digit? c = some (c.toNat - '0'.toNat) := by
  have : '0' ≤ c ∧ c ≤ '9' := by simpa [Char.isDigit, Char.le_def] using h
  simp [digit?, this]

theorem isDigit_iff : (Symbol.char c).isDigit ↔ c.isDigit := by
  simp [Symbol.isDigit, Symbol.digit?, digit?, Char.isDigit, Char.le_def]

theorem isDigit_of_mem_toDigits (h : c ∈ Nat.toDigits 10 n) : c.isDigit :=
  Nat.isDigit_of_mem_toDigits (by decide) (by decide) h

end Text

namespace Json

theorem areDigits_toDigits (n : Nat) : AreDigits (Nat.toDigits 10 n) where
  ne_nil := Nat.toDigits_ne_nil
  isDigit _ h := Text.isDigit_iff.mpr <| Text.isDigit_of_mem_toDigits h

-- Only zero is written with a leading zero.
theorem head_toDigits {n : Nat} (h : n ≠ 0) : ∀ d ∈ (Nat.toDigits 10 n).head?, d ≠ '0' := by
  induction n using Nat.strongRecOn
  case ind n hi =>
    by_cases hn : n < 10
    case pos =>
      have hd : ∀ n : Fin 10, n ≠ 0 → Nat.digitChar n ≠ '0' := by decide
      rw [Nat.toDigits_of_lt_base hn]
      rintro _ ⟨⟩
      exact hd ⟨n, hn⟩ (by simpa [Fin.ext_iff] using h)
    case neg =>
      rw [Nat.toDigits_of_base_le (by decide) (by omega), List.head?_append]
      have := hi (n / 10) (by omega) (by omega)
      cases hw : Nat.toDigits 10 (n / 10)
      case nil       => exact absurd hw Nat.toDigits_ne_nil
      case cons d ds => simpa [hw] using this

theorem whole_toDigits (n : Nat) : Whole (Nat.toDigits 10 n) := by
  by_cases h : n = 0
  case pos => exact h ▸ .zero
  case neg =>
    have hd := areDigits_toDigits n
    have hz := head_toDigits h
    cases hw : Nat.toDigits 10 n
    case nil       => exact absurd hw Nat.toDigits_ne_nil
    case cons d ds => exact .digits (hw ▸ hd) (hz d (by simp [hw]))

theorem spelled_toDigits (n : Nat) : Spelled (Nat.toDigits 10 n) := by
  have := Magnitude.mk (whole_toDigits n) .none .none
  exact .atom <| .numeral <| by simpa using this

end Json

namespace Numeral

-- The integers that are read exactly.
def Fits (i : Int) : Prop :=
  -(leastInteger : Int) ≤ i ∧ i < significandLimit

variable {limit value count n : Nat} {ds : List Char} {s t : Symbols} {negative : Bool}

theorem le_ofDigitChars (ds : List Char) (n : Nat) : n ≤ Nat.ofDigitChars 10 ds n := by
  induction ds generalizing n
  case nil => simp
  case cons d ds hi =>
    rw [Nat.ofDigitChars_cons]
    exact Nat.le_trans (by omega) (hi _)

theorem accumulate_append (count : Nat) (hd : ∀ d ∈ ds, d.isDigit) (hv : Nat.ofDigitChars 10 ds value < limit)
    (ht : ∀ c ∈ t.head?, c.isDigit = false) : accumulate limit value count (ds.map .char ++ t) =
      (Nat.ofDigitChars 10 ds value, count + ds.length, t) := by
  induction ds generalizing value count
  case nil =>
    cases t
    case nil => simp [accumulate]
    case cons c t =>
      have : c.digit? = none := by simpa [Symbol.isDigit] using ht c rfl
      simp [accumulate, this]
  case cons d ds hi =>
    have ⟨hd, hds⟩ := List.forall_mem_cons.mp hd
    rw [Nat.ofDigitChars_cons, Nat.mul_comm] at hv ⊢
    have hl := Nat.lt_of_le_of_lt (le_ofDigitChars ds _) hv
    simp only [List.map_cons, List.cons_append, accumulate, Symbol.digit?,
      Text.digit?_of_isDigit hd, if_pos hl]
    rw [hi (count + 1) hds hv, List.length_cons]
    simp
    omega

theorem ofDigitChars_toDigits (n : Nat) : Nat.ofDigitChars 10 (Nat.toDigits 10 n) 0 = n :=
  Nat.ofDigitChars_toDigits (by decide) (by decide)

theorem tail_of_stops (ht : Stops t) : magnitude.tail negative n 0 t = integer negative n t := by
  have hn c hc := (ht.head_ne c hc).right
  rw [magnitude.tail, Scan.peek_bind]
  generalize t.head? = y? at hn
  split
  case h_4 => rfl
  all_goals simp at hn

theorem skipDigits_of_head (h : ∀ c ∈ s.head?, c.isDigit = false) :
    skipDigits count s = (count, s) := by
  cases s
  case nil      => rfl
  case cons c s => simp [skipDigits, h c rfl]

theorem startsWithDigit_of_head (h : ∀ c ∈ s.head?, c.isDigit = false) :
    startsWithDigit s = false := by
  cases s
  case nil      => rfl
  case cons c s => exact h c rfl

-- The digits that are written for a number are read as that number.
theorem magnitude_toDigits (negative : Bool) (hn : n < significandLimit) (ht : Stops t) :
    magnitude negative ((Nat.toDigits 10 n).map .char ++ t) = integer negative n t := by
  have hd c hc := (ht.head_ne c hc).left
  have ha := areDigits_toDigits n
  have hv := ofDigitChars_toDigits n
  have hw := whole_toDigits n
  rw [magnitude, Scan.peek_bind]
  generalize Nat.toDigits 10 n = ds at ha hv hw
  cases hw
  case zero =>
    obtain rfl : 0 = n := hv
    simp [startsWithDigit_of_head hd, tail_of_stops ht]
  case digits d ds _ hz =>
    have hds c hc := Text.isDigit_iff.mp <| ha.isDigit c hc
    have hacc := accumulate_append 0 hds (hv.symm ▸ hn) hd
    simp only [List.map_cons, List.cons_append, List.head?_cons] at hacc ⊢
    generalize hy : some (Symbol.char d) = y?
    split
    case h_1 => cases hy
    case h_2 => simp [hz] at hy
    case h_3 =>
      cases hy
      simp only [ha.isDigit d List.mem_cons_self, Bool.not_true, Bool.false_eq_true, if_false,
        Scan.get_bind, hacc, skipDigits_of_head hd, Scan.set_bind, hv]
      exact tail_of_stops ht

theorem integer_of_neg (h : n ≠ 0) (hl : n ≤ leastInteger) :
    integer true n s = .ok (.int (-n), s) := by
  have : ¬(n = 0 ∨ leastInteger < n) := by omega
  simp [integer, this]

section Soundness

variable {rest : Symbols} {number : Number} {i : Int}

theorem exists_of_accumulate (limit value count : Nat) (s : Symbols) :
    ∃ ds, (∀ d ∈ ds, (Symbol.char d).isDigit) ∧
      s.Passed ds (accumulate limit value count s).2.2 := by
  induction s generalizing value count
  case nil => exact ⟨[], nofun, .refl []⟩
  case cons y s hi =>
    rw [accumulate]
    split
    case h_2 => exact ⟨[], nofun, .refl _⟩
    case h_1 v hy =>
      split
      case isFalse => exact ⟨[], nofun, .refl _⟩
      case isTrue =>
        have ⟨ds, hd, hs⟩ := hi (value * 10 + v) (count + 1)
        cases y
        case stray => cases hy
        case char d =>
          have hv : (Symbol.char d).isDigit := Option.isSome_of_mem hy
          exact ⟨d :: ds, List.forall_mem_cons.mpr ⟨hv, hd⟩, hs.cons⟩

-- A first digit always fits.
theorem accumulate_cons (count : Nat) {y : Symbol} (hy : y.isDigit) : ∃ d v, y = .char d ∧ v < significandLimit ∧
    accumulate significandLimit 0 count (y :: s) = accumulate significandLimit v (count + 1) s := by
  cases y
  case stray => cases hy
  case char d =>
    have hd := Text.isDigit_iff.mp hy
    have hv : 0 * 10 + (d.toNat - '0'.toNat) < significandLimit := by
      have : d.toNat ≤ '9'.toNat := by
        simp only [Char.isDigit, Bool.and_eq_true, decide_eq_true_eq] at hd
        exact hd.right
      have : '9'.toNat < significandLimit := by decide
      omega
    refine ⟨d, _, rfl, hv, ?_⟩
    simp only [accumulate, Symbol.digit?, Text.digit?_of_isDigit hd, if_pos hv]

theorem accumulate_lt (h : value < limit) : (accumulate limit value count s).1 < limit := by
  induction s generalizing value count
  case nil => exact h
  case cons y s hi =>
    rw [accumulate]
    split
    case h_2 => exact h
    case h_1 =>
      split
      case isFalse    => exact h
      case isTrue hlt => exact hi hlt

theorem exists_of_skipDigits (count : Nat) (s : Symbols) :
    ∃ ds, (∀ d ∈ ds, (Symbol.char d).isDigit) ∧ s.Passed ds (skipDigits count s).2 := by
  induction s generalizing count
  case nil => exact ⟨[], nofun, .refl []⟩
  case cons y s hi =>
    rw [skipDigits]
    split
    case isFalse => exact ⟨[], nofun, .refl _⟩
    case isTrue hy =>
      have ⟨ds, hd, hs⟩ := hi (count + 1)
      cases y
      case stray  => cases hy
      case char d => exact ⟨d :: ds, List.forall_mem_cons.mpr ⟨hy, hd⟩, hs.cons⟩

-- The number is a floating point one.
def IsDouble : Number → Prop
  | .double _ => True
  | .int _ => False

theorem float_yields {e : Int} : (float negative n e).Yields IsDouble := by
  intro s i rest h
  unfold float at h
  split at h
  case h_2 => cases h
  case h_1 =>
    cases h
    trivial

-- The digits of an exponent, behind its sign.
theorem power_yields {below : Bool} {e : Int} : Scan.Yields (do
    match ← Scan.peek with
    | none => Scan.fail .endInValue
    | some s =>
      if !s.isDigit then Scan.failNext .invalidNumber else do
        let (power, _, rest) := accumulate exponentLimit 0 0 (← get)
        set rest
        if startsWithDigit rest then
          if n ≠ 0 ∧ !below then do
            Scan.skip
            Scan.fail .numberOutOfRange
          else do
            set (skipDigits 0 rest).2
            return .double (.zero negative)
        else float negative n (if below then e - power else e + power)) IsDouble := by
  refine .bind fun _ => ?_
  split
  case h_1 => exact .fail
  case h_2 =>
    split
    case isTrue => exact .failNext
    case isFalse =>
      refine .bind fun _ => .bind fun _ => ?_
      split
      case isFalse => exact float_yields
      case isTrue =>
        split
        case isTrue  => exact .bind fun _ => .fail
        case isFalse => exact .bind fun _ => .pure trivial

theorem exponent_yields {e : Int} : (exponent negative n e).Yields IsDouble := by
  refine .bind fun _ => .bind fun _ => ?_
  split
  case h_1 => exact .bind fun _ => power_yields
  case h_2 => exact .bind fun _ => power_yields
  case h_3 => exact power_yields

theorem floatEnd_yields {e : Int} : (floatEnd negative n e).Yields IsDouble := by
  refine .bind fun _ => ?_
  split
  case h_1 => exact exponent_yields
  case h_2 => exact exponent_yields
  case h_3 => exact float_yields

theorem fraction_yields {e : Int} : (fraction negative n e).Yields IsDouble := by
  refine .bind fun _ => .bind fun _ => ?_
  split
  split
  case isTrue => exact .bind fun _ => floatEnd_yields
  case isFalse =>
    split
    case isFalse => exact .bind fun _ => floatEnd_yields
    case isTrue =>
      split
      case h_1 => exact .fail
      case h_2 => exact .failNext

theorem integer_eq_ok (hn : n < significandLimit)
    (h : integer negative n s = .ok (.int i, rest)) : rest = s ∧ Fits i := by
  unfold integer at h
  split at h
  case isTrue =>
    cases h
    exact ⟨rfl, by simp only [Fits]; omega⟩
  case isFalse =>
    split at h
    case isTrue         => exact (float_yields h).elim
    case isFalse hrange =>
      cases h
      exact ⟨rfl, by simp only [Fits]; omega⟩

theorem tail_eq_ok {extra : Nat} (hn : n < significandLimit)
    (h : magnitude.tail negative n extra s = .ok (.int i, rest)) : rest = s ∧ Fits i := by
  rw [magnitude.tail, Scan.peek_bind] at h
  generalize s.head? = y? at h
  split at h
  case h_1 => exact (fraction_yields h).elim
  case h_2 => exact (exponent_yields h).elim
  case h_3 => exact (exponent_yields h).elim
  case h_4 =>
    split at h
    case isTrue  => exact integer_eq_ok hn h
    case isFalse => exact (float_yields h).elim

-- An integer is read from the digits of a whole number.
theorem exists_of_magnitude (h : magnitude negative s = .ok (.int i, rest)) :
    ∃ m, Whole m ∧ s.Passed m rest ∧ Fits i := by
  rw [magnitude, Scan.peek_bind] at h
  generalize hy : s.head? = y? at h
  split at h
  case h_1 => simp at h
  case h_2 =>
    obtain ⟨r, rfl⟩ := List.head?_eq_some_iff.mp hy
    rw [Scan.skip_bind, Scan.get_bind] at h
    split at h
    case isTrue => simp at h
    case isFalse =>
      obtain ⟨rfl, hi⟩ := tail_eq_ok (by decide) h
      exact ⟨['0'], .zero, .char_cons '0' _, hi⟩
  case h_3 y hz =>
    obtain ⟨r, rfl⟩ := List.head?_eq_some_iff.mp hy
    split at h
    case isTrue => simp at h
    case isFalse hd =>
      have hd : y.isDigit := by simpa using hd
      have ⟨d, v, hc, hv, ha⟩ := accumulate_cons 0 (s := r) hd
      subst hc
      have ⟨ds, hds, hs⟩ := exists_of_accumulate significandLimit v 1 r
      have ⟨es, hes, ht⟩ := exists_of_skipDigits 0 (accumulate significandLimit v 1 r).2.2
      rw [Scan.get_bind, ha] at h
      obtain ⟨rfl, hi⟩ := tail_eq_ok (accumulate_lt hv) h
      refine ⟨d :: (ds ++ es), .digits ⟨nofun, ?_⟩ ?_, (hs.trans ht).cons, hi⟩
      · exact List.forall_mem_cons.mpr ⟨hd, List.forall_mem_append.mpr ⟨hds, hes⟩⟩
      · rintro rfl
        exact hz rfl

end Soundness

end Numeral
end Countersign
