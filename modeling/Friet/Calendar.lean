import Friet.Core

/-!
# Days between dates

A date of the calendar has a day number, and day numbers are ordered as the dates are.
-/

set_option autoImplicit false

namespace Friet

def daysBeforeYear (year : ℕ) : ℕ :=
  (year - 1) * 365 + (year - 1) / 4 - (year - 1) / 100 + (year - 1) / 400

def daysBeforeMonth (year : ℕ) : ℕ → ℕ
  | 0 => 0
  | 1 => 0
  | month + 2 => daysBeforeMonth year (month + 1) + daysInMonth year (month + 1)

def Date.toOrdinal (d : Date) : ℕ := daysBeforeYear d.year + daysBeforeMonth d.year d.month + d.day

/-- `(d - e).days`. -/
def Date.daysSince (d e : Date) : ℤ := (d.toOrdinal : ℤ) - e.toOrdinal

/-- A value of type `date` is a day of the calendar. -/
structure Date.OfCalendar (d : Date) : Prop where
  year : 1 ≤ d.year
  month : 1 ≤ d.month ∧ d.month ≤ 12
  day : 1 ≤ d.day ∧ d.day ≤ daysInMonth d.year d.month

instance (d : Date) : Decidable d.OfCalendar :=
  decidable_of_iff (1 ≤ d.year ∧ (1 ≤ d.month ∧ d.month ≤ 12) ∧
    (1 ≤ d.day ∧ d.day ≤ daysInMonth d.year d.month))
    ⟨fun ⟨hyear, hmonth, hday⟩ => ⟨hyear, hmonth, hday⟩, fun h => ⟨h.year, h.month, h.day⟩⟩

example : (⟨2024, 3, 5⟩ : Date).daysSince ⟨2024, 2, 20⟩ = 14 := by decide +kernel

theorem daysInMonth_le (year month : ℕ) : daysInMonth year month ≤ 31 := by
  unfold daysInMonth
  split <;> try split_ifs
  all_goals omega

theorem daysBeforeMonth_succ {month : ℕ} (year : ℕ) (h : 1 ≤ month) :
    daysBeforeMonth year (month + 1) = daysBeforeMonth year month + daysInMonth year month := by
  obtain ⟨m, rfl⟩ : ∃ m, month = m + 1 := ⟨month - 1, by omega⟩
  rfl

theorem daysBeforeMonth_le {year m n : ℕ} (hm : 1 ≤ m) (h : m ≤ n) :
    daysBeforeMonth year m ≤ daysBeforeMonth year n := by
  induction n, h using Nat.le_induction with
  | base => exact le_rfl
  | succ n hmn ih =>
    have hnext := daysBeforeMonth_succ year (hm.trans hmn)
    omega

theorem daysBeforeMonth_thirteen (year : ℕ) :
    daysBeforeMonth year 13 = 337 + daysInMonth year 2 := by
  simp only [daysBeforeMonth, daysInMonth]
  omega

/-- A year has the day of its leap year more when a fourth is full and no hundredth, or a
four-hundredth. -/
theorem daysBeforeYear_succ {year : ℕ} (h : 1 ≤ year) :
    daysBeforeYear (year + 1) = daysBeforeYear year + daysBeforeMonth year 13 := by
  obtain ⟨y, rfl⟩ : ∃ y, year = y + 1 := ⟨year - 1, by omega⟩
  have hhundred : y / 100 ≤ y / 4 := Nat.div_le_div_left (by norm_num) (by norm_num)
  rw [daysBeforeMonth_thirteen]
  unfold daysBeforeYear
  simp only [daysInMonth, Nat.add_sub_cancel, Nat.succ_div, Nat.dvd_iff_mod_eq_zero]
  generalize y / 4 = fourths, y / 100 = hundredths, y / 400 = fourHundredths at hhundred ⊢
  have hleap : (y + 1) % 100 = 0 → (y + 1) % 4 = 0 := by omega
  have hcentury : (y + 1) % 400 = 0 → (y + 1) % 100 = 0 := by omega
  generalize (y + 1) % 4 = four, (y + 1) % 100 = hundred, (y + 1) % 400 = fourHundred
    at hleap hcentury ⊢
  split_ifs <;> omega

theorem daysBeforeYear_le {y z : ℕ} (hy : 1 ≤ y) (h : y ≤ z) :
    daysBeforeYear y ≤ daysBeforeYear z := by
  induction z, h using Nat.le_induction with
  | base => exact le_rfl
  | succ z hyz ih =>
    have hnext := daysBeforeYear_succ (hy.trans hyz)
    omega

section Order
variable {d e : Date}

theorem Date.OfCalendar.day_le (h : d.OfCalendar) : d.day ≤ 31 :=
  h.day.2.trans (daysInMonth_le _ _)

theorem Date.OfCalendar.toOrdinal_le (h : d.OfCalendar) :
    d.toOrdinal ≤ daysBeforeYear d.year + daysBeforeMonth d.year (d.month + 1) := by
  have hnext := daysBeforeMonth_succ d.year h.month.1
  have hday := h.day.2
  unfold Date.toOrdinal
  omega

/-- The year decides, then the month, then the day. -/
theorem toOrdinal_lt (hd : d.OfCalendar) (he : e.OfCalendar) (h : d.ordinal < e.ordinal) :
    d.toOrdinal < e.toOrdinal := by
  have hlast := hd.toOrdinal_le
  have hfirst : daysBeforeYear e.year + daysBeforeMonth e.year e.month < e.toOrdinal := by
    have hday := he.day.1
    unfold Date.toOrdinal
    omega
  have hdays := hd.day_le
  have hmonths := hd.month
  unfold Date.ordinal at h
  rcases lt_trichotomy d.year e.year with hyear | hyear | hyear
  · have hend : daysBeforeMonth d.year (d.month + 1) ≤ daysBeforeMonth d.year 13 :=
      daysBeforeMonth_le (by omega) (by omega)
    have hnext := daysBeforeYear_succ hd.year
    have hle : daysBeforeYear (d.year + 1) ≤ daysBeforeYear e.year :=
      daysBeforeYear_le (by omega) hyear
    omega
  · rw [hyear] at hlast
    rcases lt_trichotomy d.month e.month with hmonth | hmonth | hmonth
    · have hle : daysBeforeMonth e.year (d.month + 1) ≤ daysBeforeMonth e.year e.month :=
        daysBeforeMonth_le (by omega) hmonth
      omega
    · unfold Date.toOrdinal
      rw [hyear, hmonth]
      omega
    · have hdays' := he.day_le
      omega
  · have hdays' := he.day_le
    have hmonths' := he.month
    omega

theorem toOrdinal_eq (hd : d.OfCalendar) (he : e.OfCalendar) (h : d.ordinal = e.ordinal) :
    d.toOrdinal = e.toOrdinal := by
  have hdays := hd.day_le
  have hdays' := he.day_le
  have hmonths := hd.month
  have hmonths' := he.month
  unfold Date.ordinal at h
  have hyear : d.year = e.year := by omega
  have hmonth : d.month = e.month := by omega
  have hday : d.day = e.day := by omega
  unfold Date.toOrdinal
  rw [hyear, hmonth, hday]

theorem daysSince_neg_iff (hd : d.OfCalendar) (he : e.OfCalendar) :
    d.daysSince e < 0 ↔ ¬ e ≤ d := by
  change (d.toOrdinal : ℤ) - e.toOrdinal < 0 ↔ ¬ e.ordinal ≤ d.ordinal
  rcases lt_trichotomy d.ordinal e.ordinal with h | h | h
  · have hlt := toOrdinal_lt hd he h
    omega
  · have heq := toOrdinal_eq hd he h
    omega
  · have hlt := toOrdinal_lt he hd h
    omega

theorem daysInMonth_pos (year month : ℕ) : 1 ≤ daysInMonth year month := by
  unfold daysInMonth
  split <;> try split_ifs
  all_goals omega

/-- The next day is a day of the calendar, and has the next number. -/
theorem Date.OfCalendar.next (h : d.OfCalendar) :
    d.next.OfCalendar ∧ d.next.toOrdinal = d.toOrdinal + 1 := by
  cases d with
  | mk year month day =>
    obtain ⟨hyear, ⟨hfirst, hlast⟩, ⟨hday, hend⟩⟩ := h
    dsimp only at hyear hfirst hlast hday hend
    have hsucc := daysBeforeMonth_succ year hfirst
    unfold Date.next Date.toOrdinal
    dsimp only
    split_ifs with hmid hmonth
    · exact ⟨⟨hyear, ⟨hfirst, hlast⟩, ⟨Nat.le_add_left 1 day, hmid⟩⟩, rfl⟩
    · refine ⟨⟨hyear, ⟨Nat.le_add_left 1 month, hmonth⟩, ⟨le_rfl, daysInMonth_pos _ _⟩⟩, ?_⟩
      dsimp only
      omega
    · refine ⟨⟨Nat.le_add_left 1 year, ⟨le_rfl, by norm_num⟩, ⟨le_rfl, daysInMonth_pos _ _⟩⟩, ?_⟩
      obtain rfl : month = 12 := by omega
      change daysBeforeMonth year 13 = _ at hsucc
      have hnext := daysBeforeYear_succ hyear
      have hjanuary : daysBeforeMonth (year + 1) 1 = 0 := rfl
      dsimp only
      omega

theorem Date.OfCalendar.addDays (h : d.OfCalendar) (n : ℕ) :
    (d.addDays n).OfCalendar ∧ (d.addDays n).toOrdinal = d.toOrdinal + n := by
  change (Date.next^[n] d).OfCalendar ∧ (Date.next^[n] d).toOrdinal = d.toOrdinal + n
  induction n with
  | zero => exact ⟨h, rfl⟩
  | succ n ih =>
    rw [Function.iterate_succ_apply']
    exact ⟨ih.1.next.1, by rw [ih.1.next.2, ih.2, Nat.add_assoc]⟩

theorem le_addDays_iff (hd : d.OfCalendar) (he : e.OfCalendar) (n : ℕ) :
    e ≤ d.addDays n ↔ e.daysSince d ≤ n := by
  have hneg := daysSince_neg_iff (hd.addDays n).1 he
  have hordinal := (hd.addDays n).2
  unfold Date.daysSince at hneg ⊢
  rw [hordinal] at hneg
  rw [← not_iff_not, ← hneg]
  push_cast
  omega

end Order

end Friet
