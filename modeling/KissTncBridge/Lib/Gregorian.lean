import Mathlib.Order.Basic

namespace KissTncBridge.Lib.Gregorian

def isLeap (y : Int) : Prop := y % 4 = 0 ∧ (y % 100 ≠ 0 ∨ y % 400 = 0)

instance isLeapDecidable (y : Int) : Decidable (isLeap y) := inferInstanceAs (Decidable (_ ∧ _))

/-- The days of a month of a year. -/
def daysIn (y m : Int) : Int :=
  if m = 2 then if isLeap y then 29 else 28
  else if m = 4 ∨ m = 6 ∨ m = 9 ∨ m = 11 then 30
  else 31

theorem daysIn_le (y m : Int) : daysIn y m ≤ 31 := by
  unfold daysIn
  split
  · split <;> omega
  · split <;> omega

/-- The days before a year of an era of 400 years, where the years begin in March. -/
def yearStart (n : Int) : Int := 365 * n + n / 4 - n / 100

/-- A day of an era without the leap days before it. -/
def commonDays (d : Int) : Int := d - d / 1460 + d / 36524 - d / 146096

theorem commonDays_mono (h : a ≤ b) : commonDays a ≤ commonDays b := by
  have ha : a / 146096 = a / 36524 / 4 := by omega
  have hb : b / 146096 = b / 36524 / 4 := by omega
  have hyears : a - a / 1460 ≤ b - b / 1460 := by omega
  have hcenturies : a / 36524 ≤ b / 36524 := by omega
  unfold commonDays
  omega

theorem commonDays_yearStart (h0 : 0 ≤ n) (h : n ≤ 399) : commonDays (yearStart n) = 365 * n := by
  obtain ⟨f, hf⟩ : ∃ f, f = yearStart n := ⟨_, rfl⟩
  rw [← hf]
  unfold yearStart at hf
  have hfour : f / 1460 = n / 4 := by omega
  have hcentury : f / 36524 = n / 100 := by omega
  have hera : f / 146096 = 0 := by omega
  unfold commonDays
  omega

/-- A day of an era is in the year that its common days make. -/
theorem year_of_day (h0 : 0 ≤ d) (h : d ≤ 146096) (hy : y = commonDays d / 365) :
    0 ≤ y ∧ y ≤ 399 ∧ yearStart y ≤ d ∧ d < yearStart (y + 1) + (y + 1) / 400 := by
  have hrange : 0 ≤ y ∧ y ≤ 399 := by
    unfold commonDays at hy
    omega
  obtain ⟨hy0, hy1⟩ := hrange
  refine ⟨hy0, hy1, ?_, ?_⟩
  · obtain ⟨c, hc⟩ : ∃ c, c = d / 36524 := ⟨_, rfl⟩
    have hcentury : y / 100 = c ∨ y / 100 = c - 1 := by
      unfold commonDays at hy
      omega
    unfold commonDays at hy
    unfold yearStart
    omega
  · by_contra hn
    by_cases hlast : y = 399
    · subst hlast
      unfold yearStart at hn
      omega
    · have hle : yearStart (y + 1) ≤ d := by omega
      have hcommon := commonDays_mono hle
      rw [commonDays_yearStart (by omega) (by omega)] at hcommon
      omega

/-- The days before a month of such a year, March being the first. -/
def monthStart (m : Int) : Int := (153 * m + 2) / 5

theorem month_of_day (h0 : 0 ≤ d) (h : d ≤ 365) (hm : m = (5 * d + 2) / 153) :
    0 ≤ m ∧ m ≤ 11 ∧ monthStart m ≤ d ∧ d < monthStart (m + 1) := by
  unfold monthStart
  omega

/-- The month by its number in a year that begins in January. -/
def civilMonth (m : Int) : Int := if m < 10 then m + 3 else m - 9

/-- The last day of a month that is in an era's year `y` is a day of that month. -/
theorem day_in_month (h0 : 0 ≤ y) (h1 : y ≤ 399) (hd0 : yearStart y ≤ d)
    (hd1 : d < yearStart (y + 1) + (y + 1) / 400)
    (hm : m = (5 * (d - yearStart y) + 2) / 153) (era : Int) :
    d - yearStart y - monthStart m + 1 ≤
      daysIn (y + era * 400 + if civilMonth m ≤ 2 then 1 else 0) (civilMonth m) := by
  have hlen : d - yearStart y ≤ 365 := by
    unfold yearStart at hd0 hd1 ⊢
    omega
  obtain ⟨hm0, hm1, hfrom, hto⟩ := month_of_day (by omega) hlen hm
  by_cases hfeb : m = 11
  · subst hfeb
    have hmonth : civilMonth 11 = 2 := rfl
    rw [hmonth, if_pos (by decide), daysIn, if_pos rfl]
    by_cases hleap : isLeap (y + era * 400 + 1)
    · rw [if_pos hleap]
      unfold monthStart
      omega
    · rw [if_neg hleap]
      unfold isLeap at hleap
      unfold yearStart at hd0 hd1 ⊢
      unfold monthStart
      omega
  · unfold monthStart at hfrom hto ⊢
    have hcases : m = 0 ∨ m = 1 ∨ m = 2 ∨ m = 3 ∨ m = 4 ∨ m = 5 ∨ m = 6 ∨ m = 7 ∨ m = 8 ∨ m = 9 ∨
      m = 10 := by omega
    rcases hcases with h | h | h | h | h | h | h | h | h | h | h
    all_goals
      rw [h] at hfrom hto ⊢
      simp only [civilMonth, daysIn]
      omega

section
variable (z : Int)

def eraYear : Int := commonDays (z % 146097) / 365
def yearDay : Int := z % 146097 - yearStart (eraYear z)
def yearMonth : Int := (5 * yearDay z + 2) / 153

/-- The day of the month, of the day that is `z` days after March 1 of the year 0. -/
def day : Int := yearDay z - monthStart (yearMonth z) + 1
def month : Int := civilMonth (yearMonth z)
def year : Int := eraYear z + z / 146097 * 400 + if month z ≤ 2 then 1 else 0

end

/-- Where a day is in its era, its year and its month. -/
theorem day_parts (z : Int) : 0 ≤ eraYear z ∧ eraYear z ≤ 399 ∧ 0 ≤ yearDay z ∧ yearDay z ≤ 365 ∧
    z % 146097 < yearStart (eraYear z + 1) + (eraYear z + 1) / 400 ∧ 0 ≤ yearMonth z ∧
    yearMonth z ≤ 11 ∧ 1 ≤ day z := by
  obtain ⟨hy0, hy1, hfrom, hto⟩ := year_of_day (d := z % 146097) (by omega) (by omega) rfl
  change yearStart (eraYear z) ≤ _ at hfrom
  change _ < yearStart (eraYear z + 1) + (eraYear z + 1) / 400 at hto
  have hrange : 0 ≤ yearDay z ∧ yearDay z ≤ 365 := by
    unfold yearDay
    unfold yearStart at hfrom hto ⊢
    omega
  obtain ⟨hm0, hm1, hmfrom, hmto⟩ := month_of_day hrange.1 hrange.2 rfl
  refine ⟨hy0, hy1, hrange.1, hrange.2, hto, hm0, hm1, ?_⟩
  change monthStart (yearMonth z) ≤ _ at hmfrom
  unfold day
  omega

/-- The date of a day is on the calendar. -/
theorem date_valid (z : Int) :
    1 ≤ month z ∧ month z ≤ 12 ∧ 1 ≤ day z ∧ day z ≤ daysIn (year z) (month z) := by
  obtain ⟨hy0, hy1, hd0, -, hto, hm0, hm1, hday⟩ := day_parts z
  have hmonth : 1 ≤ month z ∧ month z ≤ 12 := by
    unfold month civilMonth
    split <;> omega
  have hfrom : yearStart (eraYear z) ≤ z % 146097 := by
    unfold yearDay at hd0
    omega
  exact ⟨hmonth.1, hmonth.2, hday, day_in_month hy0 hy1 hfrom hto rfl (z / 146097)⟩

/-- The day of a date. -/
def dayOf (y m d : Int) : Int :=
  let y := if m ≤ 2 then y - 1 else y
  let yoe := y - y / 400 * 400
  let doy := (153 * ((m + 9) % 12) + 2) / 5 + d - 1
  y / 400 * 146097 + (yoe * 365 + yoe / 4 - yoe / 100 + doy)

theorem dayOf_date (z : Int) : dayOf (year z) (month z) (day z) = z := by
  obtain ⟨hy0, hy1, -, -, -, hm0, hm1, -⟩ := day_parts z
  have hmonths : month z = yearMonth z + 3 ∧ yearMonth z < 10 ∨ month z = yearMonth z - 9 ∧
      10 ≤ yearMonth z := by
    unfold month civilMonth
    split <;> omega
  have hyear : (if month z ≤ 2 then year z - 1 else year z) = eraYear z + z / 146097 * 400 := by
    unfold year
    split <;> omega
  have hera : (eraYear z + z / 146097 * 400) / 400 = z / 146097 := by omega
  have hyoe : eraYear z + z / 146097 * 400 - z / 146097 * 400 = eraYear z := by omega
  have hindex : (month z + 9) % 12 = yearMonth z := by omega
  unfold dayOf
  simp only [hyear, hera, hyoe, hindex]
  unfold day monthStart yearDay yearStart
  omega

end KissTncBridge.Lib.Gregorian
