import Mathlib
import GraphViews.Time.Rfc3339
/-!
The proleptic Gregorian calendar behind RFC 3339 instants.

`civilFromDays` and `daysFromCivil` are Hinnant's conversions between a day number (days since
1970-01-01) and a civil date. Both count in 400-year eras of 146097 days that start on a
1 March, so that the leap day is the last day of a year: within an era, the day `doe` gives the
March-based year `yoe` and the day of that year `doy`, and `doy` gives the month (`mp`, 0 for
March through 11 for February) and the day of the month.

# Main statements

* `civilFromDays_valid`: every day number names a real date: a month from 1 to 12 and a day
  within that month's length, 29 February only in leap years.
* `daysFromCivil_civilFromDays`: converting the date back gives the day number, so
  `civilFromDays` is injective.
* `civilFromDays_year_mem_iff`: the year has four digits, 0 to 9999, exactly for the day numbers
  of 0000-01-01 through 9999-12-31.

# How the proofs go

The one fact that needs an argument is that the year formula lands each day of an era in the
right year (`yearOfEra_spec`): the day of the year is at most 365, and 365 only when the next
calendar year is a leap year. It is proved by cutting the era into centuries of 36524 days and
the century into four-year cycles of 1460 days plus a leap day; once those quotients are named,
each remaining step is linear arithmetic. The month table is then a case split over the twelve
months.
-/

namespace GraphViews.Time

-- ============================================================ the steps of the conversion

/-- The 400-year era of a day number, eras starting on 0000-03-01. -/
def eraOf (days : Int) : Int := (days + 719468) / 146097

/-- The day of a day number within its era. -/
def dayOfEra (days : Int) : Int := days + 719468 - eraOf days * 146097

/-- The March-based year within its era of a day of the era. -/
def yearOfEra (doe : Int) : Int := (doe - doe / 1460 + doe / 36524 - doe / 146096) / 365

/-- The first day, within the era, of a March-based year of the era. -/
def startOfYear (yoe : Int) : Int := 365 * yoe + yoe / 4 - yoe / 100

/-- The month of a day of a March-based year: 0 for March through 11 for February. -/
def monthIndex (doy : Int) : Int := (5 * doy + 2) / 153

/-- The first day, within the March-based year, of the month with that index. -/
def startOfMonth (mp : Int) : Int := (153 * mp + 2) / 5

/-- The calendar month of a month index. -/
def monthOfIndex (mp : Int) : Int := if mp < 10 then mp + 3 else mp - 9

theorem civilFromDays_eq (days : Int) :
    civilFromDays days =
      let doe := dayOfEra days
      let yoe := yearOfEra doe
      let doy := doe - startOfYear yoe
      let mp := monthIndex doy
      let month := monthOfIndex mp
      (yoe + eraOf days * 400 + (if month ≤ 2 then 1 else 0), month.toNat,
        (doy - startOfMonth mp + 1).toNat) := rfl

theorem dayOfEra_mem (days : Int) : 0 ≤ dayOfEra days ∧ dayOfEra days < 146097 := by
  simp only [dayOfEra, eraOf]
  omega

-- ============================================================ the year of a day of an era

/-- A day of an era before its last lies in the year the formula gives, at most 365 days after
its start, and 365 days after only when the calendar year that follows is a leap year. The
era is cut into centuries `d` of 36524 days, and the century, shifted by one day per century
already passed, into four-year cycles `q` of 1460 days plus a leap day. -/
theorem yearOfEra_spec_of_lt {doe : Int} (h0 : 0 ≤ doe) (h1 : doe < 146096) :
    let yoe := yearOfEra doe
    let doy := doe - startOfYear yoe
    0 ≤ yoe ∧ yoe ≤ 399 ∧ 0 ≤ doy ∧ doy ≤ 365 ∧
      (doy = 365 → (yoe + 1) % 4 = 0 ∧ (yoe + 1) % 100 ≠ 0) := by
  intro yoe doy
  obtain ⟨d, r, hdoe, hr0, hr1, hd0, hd1⟩ :
      ∃ d r, doe = 36524 * d + r ∧ 0 ≤ r ∧ r < 36524 ∧ 0 ≤ d ∧ d ≤ 3 :=
    ⟨doe / 36524, doe % 36524, by omega, by omega, by omega, by omega, by omega⟩
  obtain ⟨q, t, hq, ht0, ht1⟩ : ∃ q t, r + 24 * d = 1460 * q + t ∧ 0 ≤ t ∧ t < 1460 :=
    ⟨(r + 24 * d) / 1460, (r + 24 * d) % 1460, by omega, by omega, by omega⟩
  have hyoe : yoe = (36500 * d + r - q) / 365 := by
    have h1460 : doe / 1460 = 25 * d + q := by omega
    have h36524 : doe / 36524 = d := by omega
    have h146096 : doe / 146096 = 0 := by omega
    simp only [yoe, yearOfEra, h1460, h36524, h146096]
    omega
  have hdoy : doy = doe - (365 * yoe + yoe / 4 - yoe / 100) := rfl
  rcases le_or_gt (q + 24 * d) t with hcycle | hleap
  · -- the day falls before the cycle's leap day: `k` whole years into the cycle
    have hq25 : q ≤ 24 := by omega
    have hk : 0 ≤ (t - q - 24 * d) / 365 ∧ (t - q - 24 * d) / 365 ≤ 3 := by omega
    have h4 : yoe / 4 = 25 * d + q := by omega
    have h100 : yoe / 100 = d := by omega
    omega
  · -- the day lies in the last year of the previous cycle, whose end is the leap day
    have hy : yoe = 100 * d + 4 * q - 1 := by omega
    rcases (show q = 0 ∨ 0 < q by omega) with hq0 | hqpos
    · have h4 : yoe / 4 = 25 * d - 1 := by omega
      have h100 : yoe / 100 = d - 1 := by omega
      omega
    · have h4 : yoe / 4 = 25 * d + q - 1 := by omega
      have h100 : yoe / 100 = d := by omega
      omega

/-- Every day of an era lies in the year the formula gives; the era's last day is the leap day
that closes its 400th year. -/
theorem yearOfEra_spec {doe : Int} (h0 : 0 ≤ doe) (h1 : doe < 146097) :
    let yoe := yearOfEra doe
    let doy := doe - startOfYear yoe
    0 ≤ yoe ∧ yoe ≤ 399 ∧ 0 ≤ doy ∧ doy ≤ 365 ∧
      (doy = 365 → (yoe + 1) % 4 = 0 ∧ ((yoe + 1) % 100 ≠ 0 ∨ (yoe + 1) % 400 = 0)) := by
  rcases (show doe < 146096 ∨ doe = 146096 by omega) with hlt | rfl
  · obtain ⟨hy0, hy1, hd0, hd1, hleap⟩ := yearOfEra_spec_of_lt h0 hlt
    exact ⟨hy0, hy1, hd0, hd1, fun h => (hleap h).imp_right Or.inl⟩
  · decide

-- ============================================================ months

theorem isLeapYear_iff (y : Int) :
    isLeapYear y = true ↔ (y % 4 = 0 ∧ y % 100 ≠ 0) ∨ y % 400 = 0 := by
  simp [isLeapYear]

/-- The month index of a day of a March-based year is 0..11, and the day lies in that month:
at or after its first day and before the next month's. -/
theorem monthIndex_spec {doy : Int} (h0 : 0 ≤ doy) (h1 : doy ≤ 365) :
    0 ≤ monthIndex doy ∧ monthIndex doy ≤ 11 ∧ startOfMonth (monthIndex doy) ≤ doy ∧
      doy < startOfMonth (monthIndex doy + 1) := by
  simp only [monthIndex, startOfMonth]
  omega

/-- The months before February are as long as the gap to the next month's first day. -/
theorem daysInMonth_monthOfIndex (y : Int) {mp : Int} (h0 : 0 ≤ mp) (h1 : mp ≤ 10) :
    (daysInMonth y (monthOfIndex mp).toNat : Int) = startOfMonth (mp + 1) - startOfMonth mp := by
  have hmp : mp = 0 ∨ mp = 1 ∨ mp = 2 ∨ mp = 3 ∨ mp = 4 ∨ mp = 5 ∨ mp = 6 ∨ mp = 7 ∨
      mp = 8 ∨ mp = 9 ∨ mp = 10 := by omega
  rcases hmp with rfl | rfl | rfl | rfl | rfl | rfl | rfl | rfl | rfl | rfl | rfl <;> rfl

theorem monthOfIndex_mem {mp : Int} (h0 : 0 ≤ mp) (h1 : mp ≤ 11) :
    1 ≤ monthOfIndex mp ∧ monthOfIndex mp ≤ 12 := by
  simp only [monthOfIndex]
  split <;> omega

/-- Every day number names a real date: a month from 1 to 12 and a day within that month's
length, 29 February only in a leap year. -/
theorem civilFromDays_valid (days : Int) :
    1 ≤ (civilFromDays days).2.1 ∧ (civilFromDays days).2.1 ≤ 12 ∧
      1 ≤ (civilFromDays days).2.2 ∧
      (civilFromDays days).2.2 ≤ daysInMonth (civilFromDays days).1 (civilFromDays days).2.1 := by
  rw [civilFromDays_eq]
  dsimp only
  obtain ⟨he0, he1⟩ := dayOfEra_mem days
  obtain ⟨hy0, hy1, hd0, hd1, hleap⟩ := yearOfEra_spec he0 he1
  generalize yearOfEra (dayOfEra days) = yoe at *
  generalize dayOfEra days - startOfYear yoe = doy at *
  obtain ⟨hm0, hm1, hs0, hs1⟩ := monthIndex_spec hd0 hd1
  generalize monthIndex doy = mp at *
  obtain ⟨hmo0, hmo1⟩ := monthOfIndex_mem hm0 hm1
  refine ⟨by omega, by omega, by omega, ?_⟩
  rcases (show mp ≤ 10 ∨ mp = 11 by omega) with hle | rfl
  · have hlen := daysInMonth_monthOfIndex
      (yoe + eraOf days * 400 + if monthOfIndex mp ≤ 2 then 1 else 0) hm0 hle
    omega
  · -- February: its 29th is the 366th day of the March-based year, whose calendar year,
    -- the one that follows, is then a leap year
    have hfeb : monthOfIndex 11 = 2 := rfl
    simp only [hfeb, startOfMonth] at hs0 hs1 ⊢
    simp only [Int.reduceLE, if_true, Int.reduceToNat, daysInMonth]
    split_ifs with hly
    · omega
    · rcases (show doy = 365 ∨ doy < 365 by omega) with h365 | hlt
      · obtain ⟨h4, h100⟩ := hleap h365
        exfalso
        apply hly
        rw [isLeapYear_iff]
        omega
      · omega

-- ============================================================ back to day numbers

/-- Converting a day number to its date and back gives the day number. -/
theorem daysFromCivil_civilFromDays (days : Int) :
    daysFromCivil (civilFromDays days).1 (civilFromDays days).2.1 (civilFromDays days).2.2 =
      days := by
  rw [civilFromDays_eq]
  dsimp only
  obtain ⟨he0, he1⟩ := dayOfEra_mem days
  obtain ⟨hy0, hy1, hd0, hd1, -⟩ := yearOfEra_spec he0 he1
  have hdoe : dayOfEra days = days + 719468 - eraOf days * 146097 := rfl
  generalize yearOfEra (dayOfEra days) = yoe at *
  have hdoy : startOfYear yoe + (dayOfEra days - startOfYear yoe) = dayOfEra days := by omega
  generalize dayOfEra days - startOfYear yoe = doy at *
  obtain ⟨hm0, hm1, hs0, hs1⟩ := monthIndex_spec hd0 hd1
  generalize monthIndex doy = mp at *
  obtain ⟨hmo0, hmo1⟩ := monthOfIndex_mem hm0 hm1
  have hera : (yoe + eraOf days * 400) / 400 = eraOf days := by omega
  rw [daysFromCivil, Int.toNat_of_nonneg (by omega), Int.toNat_of_nonneg (by omega)]
  simp only [startOfYear, startOfMonth] at *
  -- March to December stay in the March-based year; January and February are in the next
  -- calendar year
  rcases (show mp < 10 ∨ 10 ≤ mp by omega) with hspring | hwinter
  · have hmo : monthOfIndex mp = mp + 3 := if_pos hspring
    have hm : ¬(mp + 3).toNat ≤ 2 := by omega
    simp only [hmo, hm, if_false, show ¬mp + 3 ≤ 2 by omega, add_zero, hera,
      show mp + 3 > 2 by omega, if_true, add_sub_cancel_right]
    omega
  · have hmo : monthOfIndex mp = mp - 9 := if_neg (by omega)
    have hm : (mp - 9).toNat ≤ 2 := by omega
    simp only [hmo, hm, if_true, show mp - 9 ≤ 2 by omega, add_sub_cancel_right, hera,
      show ¬mp - 9 > 2 by omega, if_false, sub_add_cancel]
    omega

-- ============================================================ the range of years

/-- The calendar year of a day number: the March-based year of its era, January and February
(the days from the 306th of the March-based year on) counting into the next year. -/
theorem civilFromDays_year (days : Int) :
    (civilFromDays days).1 = yearOfEra (dayOfEra days) + eraOf days * 400 +
      if 306 ≤ dayOfEra days - startOfYear (yearOfEra (dayOfEra days)) then 1 else 0 := by
  rw [civilFromDays_eq]
  dsimp only
  obtain ⟨he0, he1⟩ := dayOfEra_mem days
  obtain ⟨-, -, hd0, hd1, -⟩ := yearOfEra_spec he0 he1
  generalize dayOfEra days - startOfYear (yearOfEra (dayOfEra days)) = doy at *
  have hwinter : monthOfIndex (monthIndex doy) ≤ 2 ↔ 306 ≤ doy := by
    simp only [monthOfIndex, monthIndex]
    split_ifs <;> omega
  simp only [hwinter]

/-- The last days of an era, from 1 January of its 400th year on, are those at or after its
146037th. -/
theorem lastJanuary_le_iff {doe : Int} (h0 : 0 ≤ doe) (h1 : doe < 146097) :
    (yearOfEra doe = 399 ∧ 306 ≤ doe - startOfYear (yearOfEra doe)) ↔ 146037 ≤ doe := by
  obtain ⟨hy0, hy1, hd0, hd1, -⟩ := yearOfEra_spec h0 h1
  generalize yearOfEra doe = yoe at *
  have hstart : yoe ≤ 398 → startOfYear yoe ≤ 145369 := by
    simp only [startOfYear]
    omega
  have h399 : startOfYear 399 = 145731 := rfl
  constructor
  · rintro ⟨rfl, hdoy⟩
    omega
  · intro hlate
    have hyoe : yoe = 399 := by omega
    subst hyoe
    omega

/-- The year of a day number has four digits exactly from 0000-01-01 (day -719528) through
9999-12-31 (day 2932896). -/
theorem civilFromDays_year_mem_iff (days : Int) :
    (0 ≤ (civilFromDays days).1 ∧ (civilFromDays days).1 ≤ 9999) ↔
      (-719528 ≤ days ∧ days ≤ 2932896) := by
  rw [civilFromDays_year]
  obtain ⟨he0, he1⟩ := dayOfEra_mem days
  obtain ⟨hy0, hy1, hd0, hd1, -⟩ := yearOfEra_spec he0 he1
  have hlast := lastJanuary_le_iff he0 he1
  have hdoe : dayOfEra days = days + 719468 - eraOf days * 146097 := rfl
  generalize yearOfEra (dayOfEra days) = yoe at *
  generalize eraOf days = era at *
  split_ifs <;> omega

/-- The year of every 64-bit count of microseconds fits in 32 bits. -/
theorem civilFromDays_year_fits {micros : Int} (h0 : -2 ^ 63 ≤ micros) (h1 : micros < 2 ^ 63) :
    -2 ^ 31 ≤ (civilFromDays (micros / microsPerDay)).1 ∧
      (civilFromDays (micros / microsPerDay)).1 < 2 ^ 31 := by
  have hdays : -106751992 ≤ micros / microsPerDay ∧ micros / microsPerDay ≤ 106751991 := by
    simp only [microsPerDay, microsPerHour, microsPerMinute, microsPerSecond]
    omega
  generalize micros / microsPerDay = days at *
  rw [civilFromDays_year]
  obtain ⟨he0, he1⟩ := dayOfEra_mem days
  obtain ⟨hy0, hy1, -, -, -⟩ := yearOfEra_spec he0 he1
  have hera : eraOf days = (days + 719468) / 146097 := rfl
  generalize yearOfEra (dayOfEra days) = yoe at *
  split_ifs <;> omega

end GraphViews.Time
