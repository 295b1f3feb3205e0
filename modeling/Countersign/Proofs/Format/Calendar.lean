import Countersign.Timestamp.Calendar
import Mathlib.Tactic.IntervalCases

namespace Countersign.Calendar

-- The first day of a year of an era, counted from the beginning of the era. Years begin in March
-- here, so that the leap day is the last day of its year. An era is 400 such years.
def yearStart (year : Int) : Int :=
  365 * year + year / 4 - year / 100

-- The number of days before a day of an era, leap days left out.
def withoutLeapDays (day : Int) : Int :=
  day - day / 1460 + day / 36524 - day / 146096

theorem withoutLeapDays_mono {a b : Int} (h : a ≤ b) : withoutLeapDays a ≤ withoutLeapDays b := by
  simp only [withoutLeapDays]
  omega

theorem withoutLeapDays_yearStart : ∀ year : Fin 400, 0 < year →
    withoutLeapDays (yearStart year - 1) < 365 * year ∧
      365 * year ≤ withoutLeapDays (yearStart year) := by
  decide +kernel

variable {day year : Int}

-- The year of an era that a day belongs to.
theorem year_of_day (h₀ : 0 ≤ day) (h₁ : day < 146097) (hy : year = withoutLeapDays day / 365) :
    0 ≤ year ∧ year ≤ 399 ∧ yearStart year ≤ day ∧ (day < yearStart (year + 1) ∨ year = 399) := by
  have hr : 0 ≤ year ∧ year ≤ 399 := by
    simp only [withoutLeapDays] at hy
    omega
  have hs (y : Int) (h₀ : 0 < y) (h₁ : y ≤ 399) : withoutLeapDays (yearStart y - 1) < 365 * y ∧
      365 * y ≤ withoutLeapDays (yearStart y) := by
    lift y to Nat using Int.le_of_lt h₀
    exact withoutLeapDays_yearStart ⟨y, by omega⟩ (by simpa [Fin.lt_def] using h₀)
  refine ⟨hr.left, hr.right, ?_, ?_⟩
  · -- Otherwise the day would come before the year's first one.
    by_contra hn
    have : 0 < year := by
      simp only [yearStart] at hn
      omega
    have := withoutLeapDays_mono (show day ≤ yearStart year - 1 by omega)
    have := hs year ‹_› hr.right
    omega
  · by_contra hn
    have := withoutLeapDays_mono (show yearStart (year + 1) ≤ day by omega)
    have := hs (year + 1) (by omega) (by omega)
    omega

-- The date that comes the given number of days after the first of March.
def dateFrom (year day : Int) : Date :=
  let month := (5 * day + 2) / 153
  let dayOfMonth := day - (153 * month + 2) / 5 + 1
  let month := if month < 10 then month + 3 else month - 9
  ⟨year + (if month ≤ 2 then 1 else 0), month.toNat, dayOfMonth.toNat⟩

theorem isValid_dateFrom (h₀ : 0 ≤ day) (h₁ : day ≤ 365) (hl : day = 365 → isLeap (year + 1)) :
    (dateFrom year day).isValid := by
  rw [dateFrom]
  generalize hm : (5 * day + 2) / 153 = month
  have : 0 ≤ month ∧ month ≤ 11 := by omega
  obtain ⟨_, _⟩ := this
  interval_cases month
  case «11» =>
    by_cases hd : day = 365
    case pos => simp [Date.isValid, monthLength, hl hd, hd]
    case neg =>
      simp [Date.isValid, monthLength]
      split
      all_goals omega
  all_goals
    simp [Date.isValid, monthLength]
    omega

theorem daysFromMarch_dateFrom (h₀ : 0 ≤ day) (h₁ : day ≤ 365) :
    daysFromMarch (dateFrom year day) =
      365 * year + year / 4 - year / 100 + year / 400 + day := by
  rw [dateFrom]
  generalize hm : (5 * day + 2) / 153 = month
  have : 0 ≤ month ∧ month ≤ 11 := by omega
  obtain ⟨_, _⟩ := this
  interval_cases month
  all_goals
    simp [daysFromMarch]
    omega

-- A year with a day for the leap day ends in a leap year.
theorem isLeap_of_lastDay {era : Int} (hd : day - yearStart year = 365)
    (hl : day < yearStart (year + 1) ∨ year = 399) :
    isLeap (year + 400 * era + 1) := by
  have : (year + 1) % 4 = 0 ∧ ((year + 1) % 100 ≠ 0 ∨ (year + 1) % 400 = 0) := by
    simp only [yearStart] at hd hl
    omega
  simp only [isLeap, decide_eq_true_eq]
  omega

-- A number of days is an era, a year in it and a day in that.
theorem exists_dateFrom (days : Int) : ∃ era year day : Int, 0 ≤ year ∧ year ≤ 399 ∧ 0 ≤ day ∧
    day ≤ 365 ∧ (day = 365 → isLeap (year + 400 * era + 1)) ∧
    days + epoch = 146097 * era + yearStart year + day ∧
    ofDays days = dateFrom (year + 400 * era) day := by
  have h₀ : 0 ≤ (days + epoch) % 146097 := Int.emod_nonneg _ (by decide)
  have h₁ : (days + epoch) % 146097 < 146097 := Int.emod_lt_of_pos _ (by decide)
  have ⟨hy, hy', hs, hl⟩ := year_of_day h₀ h₁ rfl
  refine ⟨(days + epoch) / 146097, _, _, hy, hy', Int.sub_nonneg_of_le hs, ?_, fun hd => ?_, ?_, rfl⟩
  · simp only [yearStart] at hl ⊢
    omega
  · exact isLeap_of_lastDay hd hl
  · omega

theorem monthLength_le (year : Int) (month : Nat) : monthLength year month ≤ 31 := by
  unfold monthLength
  split
  case h_1 => cases isLeap year <;> decide
  all_goals decide

theorem isValid_ofDays (days : Int) : (ofDays days).isValid := by
  have ⟨_, _, _, _, _, h₀, h₁, hl, _, hd⟩ := exists_dateFrom days
  exact hd ▸ isValid_dateFrom h₀ h₁ hl

theorem toDays_ofDays (days : Int) : (ofDays days).toDays = days := by
  have ⟨era, year, day, hy, hy', h₀, h₁, _, he, hd⟩ := exists_dateFrom days
  rw [Date.toDays, hd, daysFromMarch_dateFrom h₀ h₁]
  simp only [yearStart] at he
  omega

end Countersign.Calendar
