import Countersign.Proofs.Format.Calendar
import Countersign.Proofs.Codec.Reading
import Countersign.Proofs.Json.Numerals
import Countersign.Timestamp.Reader

namespace Countersign.Timestamp

-- A point in time of the calendar. Only the last second of a minute can be a leap second.
structure IsValid (t : Timestamp) : Prop where
  seconds_lt : t.seconds < 86400
  nanos_lt : t.nanos < 2000000000
  leap : 1000000000 ≤ t.nanos → t.seconds % 60 = 59
  inCalendar : inCalendar (Calendar.ofDays t.days).year

section Digits

variable {c : Char} {ds t : List Char} {width : Option Nat} {k n : Nat}

theorem isBlank_of_isDigit (h : c.isDigit) : Text.isBlank c = false := by
  have : 48 ≤ c.toNat ∧ c.toNat ≤ 57 := by
    simpa [Char.isDigit, UInt32.le_iff_toNat_le] using h
  simp [Text.isBlank]
  omega

theorem decimal_eq (h : ∀ d ∈ ds, d.isDigit) : Text.decimal ds = Nat.ofDigitChars 10 ds 0 := by
  have hm : ds.filterMap Text.digit? = ds.map fun d => d.toNat - '0'.toNat := by
    rw [← List.filterMap_eq_map]
    exact List.filterMap_congr fun d hd => Text.digit?_of_isDigit (h d hd)
  rw [Text.decimal, hm, Text.number, List.foldl_map, Nat.ofDigitChars_eq_foldl]
  simp [Nat.mul_comm]

theorem isDigit_padded : ∀ c ∈ padded k n, c.isDigit := by
  intro c hc
  rcases List.mem_append.mp hc with hc | hc
  case inl =>
    rw [List.eq_of_mem_replicate hc]
    decide
  case inr => exact Text.isDigit_of_mem_toDigits hc

theorem padded_ne_nil : padded k n ≠ [] := by
  simp [padded, Nat.toDigits_ne_nil]

theorem exists_padded (k n : Nat) : ∃ d ds, padded k n = d :: ds ∧ d.isDigit := by
  cases hp : padded k n
  case nil       => exact absurd hp padded_ne_nil
  case cons d ds => exact ⟨d, ds, rfl, isDigit_padded (k := k) (n := n) d (by simp [hp])⟩

theorem decimal_padded : Text.decimal (padded k n) = n := by
  have hz : ∀ j, Nat.ofDigitChars 10 (List.replicate j '0') 0 = 0 := by
    intro j
    induction j
    case zero => rfl
    case succ j hi => simp [List.replicate_succ, Nat.ofDigitChars_cons, hi]
  rw [decimal_eq isDigit_padded, padded, Nat.ofDigitChars_append, hz]
  exact Numeral.ofDigitChars_toDigits n

theorem length_padded (hk : 0 < k) (h : n < 10 ^ k) : (padded k n).length = k := by
  have := Nat.toDigits_length 10 n k hk h
  simp only [padded, List.length_append, List.length_replicate]
  omega

-- The text does not go on with a digit.
def Halts (t : List Char) : Prop :=
  ∀ c ∈ t.head?, c.isDigit = false

theorem takeWhile_digits (hd : ∀ d ∈ ds, d.isDigit) (ht : Halts t) :
    (ds ++ t).takeWhile Char.isDigit = ds := by
  rw [List.takeWhile_append_of_pos hd]
  cases t
  case nil => simp
  case cons c t => simp [ht c rfl]

theorem dropWhile_digits (ht : Halts t) : t.dropWhile Char.isDigit = t := by
  cases t
  case nil => rfl
  case cons c t => simp [ht c rfl]

theorem number_of_takeWhile (width : Option Nat) (hn : ds ≠ []) (hl : Text.decimal ds < numberLimit)
    (h : ((ds ++ t).take (width.getD (ds ++ t).length)).takeWhile Char.isDigit = ds) :
    number width (ds ++ t) = .ok (Text.decimal ds, t) := by
  have he : (ds ++ t).isEmpty = false := by simp [hn]
  have hd : ds.isEmpty = false := by simp [hn]
  simp only [number, h, he, hd, Bool.false_eq_true, if_false, if_pos hl, List.drop_left]

-- A number that fills its width is read whatever comes next.
theorem number_padded (hk : 0 < k) (h : n < 10 ^ k) (hl : n < numberLimit) :
    number (some k) (padded k n ++ t) = .ok (n, t) := by
  have hp := length_padded hk h
  have := number_of_takeWhile (some k) (t := t) (padded_ne_nil (k := k) (n := n))
    (by rwa [decimal_padded]) (by
      rw [Option.getD_some, List.take_append_of_le_length (by omega), List.take_of_length_le (by omega)]
      exact List.takeWhile_eq_self_iff.mpr isDigit_padded)
  rwa [decimal_padded] at this

theorem Halts.take (ht : Halts t) (j : Nat) : Halts (t.take j) := by
  cases j
  case zero => exact nofun
  case succ =>
    cases t
    case nil  => exact nofun
    case cons => exact fun c hc => ht c hc

-- Any other number is read up to the first character that is no digit.
theorem number_padded_of_halts (width : Option Nat) (hw : ∀ w ∈ width, (padded k n).length ≤ w) (hl : n < numberLimit)
    (ht : Halts t) : number width (padded k n ++ t) = .ok (n, t) := by
  have := number_of_takeWhile width (t := t) (padded_ne_nil (k := k) (n := n))
    (by rwa [decimal_padded]) (by
      rw [List.take_append, List.take_of_length_le]
      · exact takeWhile_digits isDigit_padded (ht.take _)
      · cases width
        case none   => simp
        case some w => exact hw w rfl)
  rwa [decimal_padded] at this

end Digits

section Parts

variable {t : List Char} {k n least greatest : Nat}

theorem blanks_of_head {c : Char} (h : Text.isBlank c = false) : blanks (c :: t) = .ok ((), c :: t) := by
  change Except.ok ((), (c :: t).dropWhile Text.isBlank) = _
  rw [List.dropWhile_cons_of_neg (by simp [h])]

theorem blanks_padded : blanks (padded k n ++ t) = .ok ((), padded k n ++ t) := by
  have ⟨d, ds, hp, hd⟩ := exists_padded k n
  exact hp ▸ blanks_of_head (isBlank_of_isDigit hd)

theorem field_padded (h₀ : least ≤ n) (h₁ : n ≤ greatest) (hg : n < 100) :
    field least greatest (padded 2 n ++ t) = .ok (n, t) := by
  have hl : n < numberLimit := Nat.lt_trans hg (by decide)
  rw [field, Scan.bind_of_ok blanks_padded, Scan.bind_of_ok (number_padded (by decide) hg hl),
    if_pos ⟨h₀, h₁⟩]
  rfl

theorem literal_cons {c : Char} : literal c (c :: t) = .ok ((), t) := by
  simp only [literal, Scan.get_bind, if_true]
  rfl

theorem inCalendar_iff {y : Int} : inCalendar y ↔ -262143 ≤ y ∧ y ≤ 262142 :=
  Bool.and_eq_true_iff.trans <| and_congr decide_eq_true_iff decide_eq_true_iff

section Years

variable {s : List Char}

theorem year_minus (h : number none s = .ok (n, t)) (hl : (n : Int) < yearLimit) :
    year ('-' :: s) = .ok (-n, t) := by
  have hr : -yearLimit ≤ -(n : Int) ∧ -(n : Int) < yearLimit := by omega
  rw [year, Scan.bind_of_ok (blanks_of_head (by decide)), Scan.get_bind]
  simp only [Scan.set_bind]
  rw [Scan.bind_of_ok h]
  simp only [pure_bind]
  rw [if_pos hr, Scan.pure_apply]

theorem year_plus (h : number none s = .ok (n, t)) (hl : (n : Int) < yearLimit) :
    year ('+' :: s) = .ok (n, t) := by
  have hr : -yearLimit ≤ (n : Int) ∧ (n : Int) < yearLimit := by omega
  rw [year, Scan.bind_of_ok (blanks_of_head (by decide)), Scan.get_bind]
  simp only [Scan.set_bind]
  rw [Scan.bind_of_ok h]
  simp only [pure_bind]
  rw [if_pos hr, Scan.pure_apply]

theorem year_digits {d : Char} (hd : d.isDigit) (h : number (some 4) (d :: s) = .ok (n, t))
    (hl : (n : Int) < yearLimit) : year (d :: s) = .ok (n, t) := by
  have hr : -yearLimit ≤ (n : Int) ∧ (n : Int) < yearLimit := by omega
  rw [year, Scan.bind_of_ok (blanks_of_head <| isBlank_of_isDigit hd), Scan.get_bind]
  generalize hu : d :: s = u at h ⊢
  split
  case h_1 =>
    obtain ⟨rfl, _⟩ := List.cons.inj hu
    cases hd
  case h_2 =>
    obtain ⟨rfl, _⟩ := List.cons.inj hu
    cases hd
  case h_3 =>
    rw [Scan.bind_of_ok h]
    simp only [pure_bind]
    rw [if_pos hr, Scan.pure_apply]

end Years

-- A year is read with its sign, if it has one, or from four digits.
theorem year_yearText {y : Int} (hy : inCalendar y) (ht : Halts t) :
    year (yearText y ++ t) = .ok (y, t) := by
  rw [inCalendar_iff] at hy
  have hl : (y.natAbs : Int) < yearLimit := by
    rw [yearLimit]
    omega
  have hn : y.natAbs < numberLimit := by
    rw [numberLimit]
    omega
  have hs := number_padded_of_halts none (k := 4) nofun hn ht
  rw [yearText]
  split
  case isTrue h =>
    rw [List.cons_append, year_minus hs hl, show -(y.natAbs : Int) = y by omega]
  case isFalse h =>
    have hy : (y.natAbs : Int) = y := by omega
    split
    case isTrue h' => rw [List.cons_append, year_plus hs hl, hy]
    case isFalse h' =>
      have hp := number_padded (k := 4) (n := y.natAbs) (t := t) (by decide) (by omega) hn
      obtain ⟨d, ds, hd, hc⟩ := exists_padded 4 y.natAbs
      rw [hd, List.cons_append] at hp ⊢
      rw [year_digits hc hp hl, hy]

theorem date_text {d : Calendar.Date} (hd : d.isValid) (hy : inCalendar d.year) :
    date (yearText d.year ++ '-' :: padded 2 d.month ++ '-' :: padded 2 d.day ++ t) = .ok (d, t) := by
  simp only [Calendar.Date.isValid, decide_eq_true_eq] at hd
  have hl := Nat.le_trans hd.right.right.right <| Calendar.monthLength_le d.year d.month
  have hm : Halts ('-' :: (padded 2 d.month ++ ('-' :: (padded 2 d.day ++ t)))) := by
    rintro _ ⟨⟩
    decide
  simp only [List.append_assoc, List.cons_append]
  rw [date, Scan.bind_of_ok (year_yearText hy hm), Scan.bind_of_ok (blanks_of_head (by decide)),
    Scan.bind_of_ok literal_cons, Scan.bind_of_ok (field_padded hd.left hd.right.left (by omega)),
    Scan.bind_of_ok (blanks_of_head (by decide)), Scan.bind_of_ok literal_cons,
    Scan.bind_of_ok (field_padded hd.right.right.left hl (by omega))]
  rfl

-- The digits of a fraction stand for as many zeros behind them as make nine digits.
theorem fraction_padded (hk : 0 < k) (hk' : k ≤ 9) (h : n < 10 ^ k) :
    fraction ('.' :: (padded k n ++ 'Z' :: t)) = .ok (n * 10 ^ (9 - k), 'Z' :: t) := by
  have hp := length_padded hk h
  have ht : Halts ('Z' :: t) := by
    rintro _ ⟨⟩
    decide
  have hl : n < numberLimit :=
    Nat.lt_of_lt_of_le h <| Nat.le_trans (Nat.pow_le_pow_right (by decide) hk') (by decide)
  have hn := number_padded_of_halts (some 9) (k := k) (by simpa [hp] using hk') hl ht
  have hc : (padded k n ++ 'Z' :: t).length - ('Z' :: t).length = k := by simp [hp]
  rw [fraction, Scan.get_bind]
  simp only [Scan.set_bind]
  rw [Scan.bind_of_ok hn, Scan.get_bind, Scan.modify_bind, dropWhile_digits ht, hc]
  rfl

theorem fraction_fractionText (h : n < 1000000000) :
    fraction (fractionText n ++ 'Z' :: t) = .ok (n, 'Z' :: t) := by
  rw [fractionText]
  split
  case isTrue h₀ =>
    subst h₀
    rfl
  case isFalse =>
    split
    case isTrue h₆ =>
      have hn : n / 1000000 * 10 ^ (9 - 3) = n := by omega
      have := fraction_padded (k := 3) (t := t) (by decide) (by decide) (show n / 1000000 < 10 ^ 3 by omega)
      rwa [hn] at this
    case isFalse =>
      split
      case isTrue h₃ =>
        have hn : n / 1000 * 10 ^ (9 - 6) = n := by omega
        have := fraction_padded (k := 6) (t := t) (by decide) (by decide) (show n / 1000 < 10 ^ 6 by omega)
        rwa [hn] at this
      case isFalse =>
        have := fraction_padded (k := 9) (t := t) (by decide) (by decide) (show n < 10 ^ 9 by omega)
        rwa [Nat.sub_self, Nat.pow_zero, Nat.mul_one] at this

theorem timeOfDay_text {h m s : Nat} (hh : h < 24) (hm : m < 60) (hs : s ≤ 60) (hn : n < 1000000000) :
    timeOfDay (padded 2 h ++ ':' :: padded 2 m ++ ':' :: padded 2 s ++ fractionText n ++ 'Z' :: t) =
      .ok (if s = 60 then (h * 3600 + m * 60 + 59, n + 1000000000)
        else (h * 3600 + m * 60 + s, n), 'Z' :: t) := by
  simp only [List.append_assoc, List.cons_append]
  rw [timeOfDay, Scan.bind_of_ok (field_padded (by omega) (by omega) (by omega)),
    Scan.bind_of_ok (blanks_of_head (by decide)), Scan.bind_of_ok literal_cons,
    Scan.bind_of_ok (field_padded (by omega) (by omega) (by omega)),
    Scan.bind_of_ok (blanks_of_head (by decide)), Scan.bind_of_ok literal_cons,
    Scan.bind_of_ok (field_padded (by omega) hs (by omega)),
    Scan.bind_of_ok (fraction_fractionText hn), Scan.bind_of_ok (blanks_of_head (by decide))]
  split
  case isTrue  => rfl
  case isFalse => rfl

end Parts

theorem ofLocal_ofDays {t : Timestamp} (h : t.IsValid) :
    ofLocal (Calendar.ofDays t.days) t.seconds t.nanos 0 = .ok t := by
  have := h.seconds_lt
  have h₁ : ((t.seconds : Int) - 0) / 86400 = 0 := by omega
  have h₂ : (((t.seconds : Int) - 0) % 86400).toNat = t.seconds := by omega
  simp only [ofLocal, Calendar.isValid_ofDays, Calendar.toDays_ofDays, h.inCalendar, h₁, h₂, Int.add_zero]
  rfl

theorem timeOfDay_of_isValid {t : Timestamp} (h : t.IsValid) :
    timeOfDay (padded 2 (t.seconds / 3600) ++ ':' :: padded 2 (t.seconds / 60 % 60) ++
      ':' :: padded 2 (t.seconds % 60 + t.nanos / 1000000000) ++
      fractionText (t.nanos % 1000000000) ++ ['Z']) = .ok ((t.seconds, t.nanos), ['Z']) := by
  have hs := h.seconds_lt
  have hn := h.nanos_lt
  have hl := h.leap
  rw [timeOfDay_text (by omega) (by omega) (by omega) (by omega)]
  split
  all_goals
    simp only [Except.ok.injEq, Prod.mk.injEq, and_true]
    omega

theorem read_eq_ok_iff {s : String} {t : Timestamp} :
    read s = .ok t ↔ ∃ rest, reader s.toList = .ok (t, rest) := by
  rw [read, mapError_eq_ok_iff, StateT.run']
  cases reader s.toList
  case error =>
    constructor
    case mp =>
      intro h
      cases h
    case mpr =>
      rintro ⟨_, h⟩
      cases h
  case ok r =>
    constructor
    case mp =>
      rintro ⟨⟩
      exact ⟨_, rfl⟩
    case mpr =>
      rintro ⟨_, ⟨⟩⟩
      rfl

-- A point in time of the calendar is read back from its text.
theorem read_text {t : Timestamp} (h : t.IsValid) : read t.text = .ok t := by
  have ht := timeOfDay_of_isValid h
  have hz : zone ['Z'] = .ok (0, []) := rfl
  have hb : blanks [] = .ok ((), []) := rfl
  rw [read_eq_ok_iff, text, String.toList_ofList]
  refine ⟨[], ?_⟩
  simp only [List.append_assoc, List.cons_append] at ht ⊢
  have hd u := date_text (t := u) (Calendar.isValid_ofDays t.days) h.inCalendar
  simp only [List.append_assoc, List.cons_append] at hd
  rw [reader, Scan.bind_of_ok (hd _), separator, bind_assoc, Scan.get_bind]
  simp only [Scan.set_bind]
  rw [Scan.bind_of_ok ht]
  dsimp only
  rw [Scan.bind_of_ok hz, Scan.bind_of_ok hb, Scan.get_bind, ofLocal_ofDays h]
  rfl

section Soundness

variable {cs rest : List Char}

theorem distance_mod {n : Nat} (h : offset.distance cs = .ok (n, rest)) : n % 60 = 0 := by
  obtain ⟨⟨h₁, h₂⟩, _, _, h⟩ := Scan.bind_eq_ok_iff.mp h
  dsimp only at h
  rw [Scan.modify_bind] at h
  obtain ⟨⟨m₁, m₂⟩, _, _, h⟩ := Scan.bind_eq_ok_iff.mp h
  dsimp only at h
  split at h
  case isFalse => cases h
  case isTrue =>
    cases h
    omega

-- Offsets are whole minutes.
theorem offset_mod {o : Int} (h : offset cs = .ok (o, rest)) : o % 60 = 0 := by
  rw [offset, Scan.get_bind] at h
  split at h
  case h_6 => cases h
  case h_7 => cases h
  all_goals rw [Scan.set_bind] at h
  case h_1 =>
    cases h
    rfl
  case h_2 =>
    cases h
    rfl
  all_goals
    obtain ⟨n, _, hn, ⟨⟩⟩ := Scan.bind_eq_ok_iff.mp h
    have := distance_mod hn
    omega

theorem zone_mod {o : Int} (h : zone cs = .ok (o, rest)) : o % 60 = 0 := by
  rw [zone, Scan.get_bind] at h
  split at h
  case h_2 => exact offset_mod h
  case h_1 =>
    split at h
    case isFalse => exact offset_mod h
    case isTrue =>
      cases h
      rfl

theorem ofDigitChars_lt {ds : List Char} (h : ∀ d ∈ ds, d.isDigit) (n : Nat) :
    Nat.ofDigitChars 10 ds n < (n + 1) * 10 ^ ds.length := by
  induction ds generalizing n
  case nil => simp
  case cons d ds hi =>
    have ⟨hd, hds⟩ := List.forall_mem_cons.mp h
    have hv : d.toNat - '0'.toNat ≤ 9 := by
      have : d.toNat ≤ 57 := (Bool.and_eq_true_iff.mp hd).right |> of_decide_eq_true
      exact Nat.sub_le_iff_le_add.mpr this
    rw [Nat.ofDigitChars_cons]
    calc _ < (10 * n + (d.toNat - '0'.toNat) + 1) * 10 ^ ds.length := hi hds _
      _ ≤ ((n + 1) * 10) * 10 ^ ds.length := Nat.mul_le_mul_right _ (by omega)
      _ = (n + 1) * 10 ^ (d :: ds).length := by rw [List.length_cons, Nat.pow_succ', Nat.mul_assoc]

-- What is read as a number has no more digits than its width, and this many are taken.
theorem number_bounds {w n : Nat} (h : number (some w) cs = .ok (n, rest)) :
    cs.length - rest.length ≤ w ∧ n < 10 ^ (cs.length - rest.length) := by
  simp only [number, Option.getD_some] at h
  split at h
  case isTrue => cases h
  case isFalse =>
    split at h
    case isTrue => cases h
    case isFalse =>
      split at h
      case isFalse => cases h
      case isTrue =>
        cases h
        have hd := List.all_eq_true.mp <| List.all_takeWhile (p := Char.isDigit) (l := cs.take w)
        have hn := ofDigitChars_lt hd 0
        have hl := List.takeWhile_prefix Char.isDigit (l := cs.take w) |>.length_le
        rw [List.length_take] at hl
        have hc : cs.length - (cs.drop ((cs.take w).takeWhile Char.isDigit).length).length =
            ((cs.take w).takeWhile Char.isDigit).length := by
          rw [List.length_drop]
          omega
        rw [hc, decimal_eq hd]
        exact ⟨by omega, by simpa using hn⟩

theorem fraction_lt {n : Nat} (h : fraction cs = .ok (n, rest)) : n < 1000000000 := by
  rw [fraction, Scan.get_bind] at h
  split at h
  case h_2 =>
    cases h
    decide
  case h_1 =>
    rw [Scan.set_bind] at h
    obtain ⟨n, mid, hn, h⟩ := Scan.bind_eq_ok_iff.mp h
    rw [Scan.get_bind, Scan.modify_bind] at h
    cases h
    have ⟨hw, hn⟩ := number_bounds hn
    generalize _ - mid.length = k at hw hn
    calc n * 10 ^ (9 - k) < 10 ^ k * 10 ^ (9 - k) :=
          Nat.mul_lt_mul_of_pos_right hn <| Nat.pow_pos (by decide)
      _ = 1000000000 := by rw [← Nat.pow_add, Nat.add_sub_cancel' hw]

theorem field_le {least greatest n : Nat} (h : field least greatest cs = .ok (n, rest)) :
    n ≤ greatest := by
  obtain ⟨_, _, _, h⟩ := Scan.bind_eq_ok_iff.mp h
  obtain ⟨_, _, _, h⟩ := Scan.bind_eq_ok_iff.mp h
  split at h
  case isFalse => cases h
  case isTrue hn =>
    cases h
    exact hn.right

theorem timeOfDay_bounds {seconds nanos : Nat}
    (h : timeOfDay cs = .ok ((seconds, nanos), rest)) :
    seconds < 86400 ∧ nanos < 2000000000 ∧ (1000000000 ≤ nanos → seconds % 60 = 59) := by
  obtain ⟨hour, _, hh, h⟩ := Scan.bind_eq_ok_iff.mp h
  obtain ⟨_, _, _, h⟩ := Scan.bind_eq_ok_iff.mp h
  obtain ⟨_, _, _, h⟩ := Scan.bind_eq_ok_iff.mp h
  obtain ⟨minute, _, hm, h⟩ := Scan.bind_eq_ok_iff.mp h
  obtain ⟨_, _, _, h⟩ := Scan.bind_eq_ok_iff.mp h
  obtain ⟨_, _, _, h⟩ := Scan.bind_eq_ok_iff.mp h
  obtain ⟨second, _, hs, h⟩ := Scan.bind_eq_ok_iff.mp h
  obtain ⟨n, _, hn, h⟩ := Scan.bind_eq_ok_iff.mp h
  obtain ⟨_, _, _, h⟩ := Scan.bind_eq_ok_iff.mp h
  have := field_le hh
  have := field_le hm
  have := field_le hs
  have := fraction_lt hn
  split at h
  all_goals
    cases h
    omega

theorem isValid_of_ofLocal {date : Calendar.Date} {seconds nanos : Nat} {o : Int} {t : Timestamp}
    (h : ofLocal date seconds nanos o = .ok t) (hn : nanos < 2000000000)
    (hl : 1000000000 ≤ nanos → seconds % 60 = 59) (ho : o % 60 = 0) : t.IsValid := by
  rw [ofLocal] at h
  split at h
  case isTrue => cases h
  case isFalse =>
    dsimp only at h
    split at h
    case isFalse => cases h
    case isTrue hc =>
      cases h
      refine ⟨?_, hn, fun h => ?_, hc⟩
      case refine_1 =>
        dsimp only
        omega
      case refine_2 =>
        have := hl h
        dsimp only
        omega

theorem of_lift {x : Except Fault Timestamp} {t : Timestamp}
    (h : (liftM x : Reader Timestamp) cs = .ok (t, rest)) : x = .ok t := by
  cases x
  case error => cases h
  case ok =>
    cases h
    rfl

-- Only points in time of the calendar are read.
theorem isValid_of_read {s : String} {t : Timestamp} (h : read s = .ok t) : t.IsValid := by
  obtain ⟨_, h⟩ := read_eq_ok_iff.mp h
  obtain ⟨date, _, _, h⟩ := Scan.bind_eq_ok_iff.mp h
  obtain ⟨_, _, _, h⟩ := Scan.bind_eq_ok_iff.mp h
  obtain ⟨⟨seconds, nanos⟩, _, ht, h⟩ := Scan.bind_eq_ok_iff.mp h
  obtain ⟨o, _, ho, h⟩ := Scan.bind_eq_ok_iff.mp h
  obtain ⟨_, _, _, h⟩ := Scan.bind_eq_ok_iff.mp h
  rw [Scan.get_bind] at h
  split at h
  case isFalse => cases h
  case isTrue =>
    have ⟨_, hn, hl⟩ := timeOfDay_bounds ht
    exact isValid_of_ofLocal (of_lift h) hn hl (zone_mod ho)

end Soundness

end Countersign.Timestamp
