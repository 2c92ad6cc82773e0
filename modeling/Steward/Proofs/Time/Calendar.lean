/-
# Days and their dates

The date of a day is one that the calendar has (`Date.valid_ofDay`), and its day is the day again
(`Date.toDay_ofDay`).

Years are counted from March in eras of 400. A day of an era is some centuries, some spans of four
years, some years and some days in (`EraDay`); each of these ends with the year that has the leap
day, if it has one, so its last day may only come in the last of its parts.

Key definitions: `EraDay`.
Key theorems: `EraDay.year_eq`, `Date.valid_ofDay`, `Date.toDay_ofDay`.
-/
import Mathlib.Tactic.Common
import Steward.Time.Calendar

namespace Steward

/-! ### The parts of an era -/

/-- A day of an era of 400 years: the centuries, the spans of four years, the years and the days
before it. -/
structure EraDay (day centuries spans years days : Int) : Prop where
  centuries_range : 0 ≤ centuries ∧ centuries ≤ 3
  spans_range : 0 ≤ spans ∧ spans ≤ 24
  years_range : 0 ≤ years ∧ years ≤ 3
  days_range : 0 ≤ days ∧ days ≤ 365
  /-- Only the last year of a span has a leap day, and of the last spans only that of the era. -/
  leap : days = 365 → years = 3 ∧ (spans = 24 → centuries = 3)
  day_eq : day = 36524 * centuries + 1461 * spans + 365 * years + days

namespace EraDay

/-- Every day of an era has its parts. -/
theorem exists_parts {day : Int} (first : 0 ≤ day) (last : day ≤ 146096) :
    ∃ c q y d, EraDay day c q y d := by
  obtain ⟨c, r, c_range, r_range, full, day_eq⟩ : ∃ c r : Int, (0 ≤ c ∧ c ≤ 3) ∧
      (0 ≤ r ∧ r ≤ 36524) ∧ (r = 36524 → c = 3) ∧ day = 36524 * c + r := by
    refine ⟨min (day / 36524) 3, day - 36524 * min (day / 36524) 3, ?_⟩
    omega
  obtain ⟨q, u, q_range, u_range, r_eq⟩ : ∃ q u : Int, (0 ≤ q ∧ q ≤ 24) ∧
      (0 ≤ u ∧ u ≤ 1460) ∧ r = 1461 * q + u := by
    refine ⟨r / 1461, r % 1461, ?_⟩
    omega
  obtain ⟨y, d, y_range, d_range, longest, u_eq⟩ : ∃ y d : Int, (0 ≤ y ∧ y ≤ 3) ∧
      (0 ≤ d ∧ d ≤ 365) ∧ (d = 365 → y = 3) ∧ u = 365 * y + d := by
    refine ⟨min (u / 365) 3, u - 365 * min (u / 365) 3, ?_⟩
    omega
  exact ⟨c, q, y, d, c_range, q_range, y_range, d_range, by omega, by omega⟩

variable {day c q y d : Int}

theorem centuries_eq (h : EraDay day c q y d) : day / 36524 - day / 146096 = c := by
  have c_range := h.centuries_range
  have rest : 0 ≤ day - 36524 * c ∧
      (day - 36524 * c ≤ 36523 ∨ day - 36524 * c = 36524 ∧ c = 3) := by
    obtain ⟨-, q_range, y_range, d_range, leap, day_eq⟩ := h
    by_cases last : d = 365
    · have := leap last
      omega
    · omega
  omega

/-- The year of a day in its era. -/
theorem year_eq (h : EraDay day c q y d) :
    (day - day / 1460 + day / 36524 - day / 146096) / 365 = 100 * c + 4 * q + y := by
  have centuries := h.centuries_eq
  obtain ⟨c_range, q_range, y_range, d_range, leap, day_eq⟩ := h
  -- a span of four years is a day longer than `1460`, and these days may fill up another `1460`
  obtain ⟨w, hw⟩ : ∃ w, w = 24 * c + q + 365 * y + d := ⟨_, rfl⟩
  have spans : day / 1460 = 25 * c + q + w / 1460 := by
    have split : day = 1460 * (25 * c + q) + w := by omega
    omega
  have extra : w / 1460 = 0 ∧ w < 1460 ∨ w / 1460 = 1 ∧ 1460 ≤ w := by
    have w_range : 0 ≤ w ∧ w ≤ 1556 := by omega
    clear spans centuries leap
    omega
  have rest : 0 ≤ d - w / 1460 ∧ d - w / 1460 ≤ 364 := by
    clear spans centuries day_eq
    rcases extra with ⟨none, small⟩ | ⟨one, large⟩
    · have short : d ≠ 365 := fun last => by
        have := (leap last).1
        omega
      omega
    · omega
  have split : day - day / 1460 + day / 36524 - day / 146096 =
      365 * (100 * c + 4 * q + y) + (d - w / 1460) := by
    clear extra rest leap
    omega
  rw [split]
  clear split spans centuries extra leap day_eq
  omega

/-- The day of the year, counted from March. -/
theorem dayOfYear_eq (h : EraDay day c q y d) {year : Int} (at_year : year = 100 * c + 4 * q + y) :
    day - (365 * year + year / 4 - year / 100) = d := by
  obtain ⟨c_range, q_range, y_range, d_range, -, day_eq⟩ := h
  have fourth : year / 4 = 25 * c + q := by omega
  have hundredth : year / 100 = c := by omega
  rw [fourth, hundredth]
  omega

end EraDay

/-! ### Dates -/

namespace Date

/-- The date of a day is told by the parts of the day in its era. -/
theorem ofDay_eq {n c q y d : Int} (h : EraDay ((n + 719468) % 146097) c q y d) :
    ofDay n =
      let month := (5 * d + 2) / 153
      let m := if month < 10 then month + 3 else month - 9
      ⟨100 * c + 4 * q + y + (n + 719468) / 146097 * 400 + (if m ≤ 2 then 1 else 0), m.toNat,
        (d - (153 * month + 2) / 5 + 1).toNat⟩ := by
  simp only [ofDay, h.year_eq, h.dayOfYear_eq rfl]

theorem exists_parts (n : Int) : ∃ c q y d, EraDay ((n + 719468) % 146097) c q y d :=
  EraDay.exists_parts (by omega) (by omega)

/-- A day of a year that is counted from March lies in one of twelve months; February is the last.
-/
theorem month_cases {d k : Int} (d_range : 0 ≤ d ∧ d ≤ 365) (month : (5 * d + 2) / 153 = k) :
    k = 11 ∨ k = 0 ∨ k = 1 ∨ k = 2 ∨ k = 3 ∨ k = 4 ∨ k = 5 ∨ k = 6 ∨ k = 7 ∨ k = 8 ∨ k = 9 ∨
      k = 10 := by
  omega

/-- The year that ends with the last of 366 days is a leap year. -/
theorem leapYear_of_last {day c q y d : Int} (h : EraDay day c q y d) (era : Int)
    (last : d = 365) :
    leapYear (100 * c + 4 * q + y + era * 400 + 1) = true := by
  obtain ⟨c_range, q_range, -, -, leap, -⟩ := h
  obtain ⟨rfl, whole⟩ := leap last
  simp only [leapYear, Bool.and_eq_true, Bool.or_eq_true, beq_iff_eq, bne_iff_ne]
  refine ⟨by omega, ?_⟩
  by_cases span : q = 24
  · have := whole span
    exact .inr (by omega)
  · exact .inl (by omega)

/-- The calendar has the date of every day. -/
theorem valid_ofDay (n : Int) : (ofDay n).valid = true := by
  obtain ⟨c, q, y, d, parts⟩ := exists_parts n
  have d_range := parts.days_range
  have leap := fun last => leapYear_of_last parts ((n + 719468) / 146097) last
  rw [ofDay_eq parts]
  obtain ⟨k, month⟩ : ∃ k, (5 * d + 2) / 153 = k := ⟨_, rfl⟩
  simp only [month]
  clear parts
  rcases month_cases d_range month with rfl | others
  · by_cases last : d = 365
    · simp [valid, daysInMonth, leap last, last]
    · simp [valid, daysInMonth]
      split <;> omega
  · clear leap
    rcases others with rfl | rfl | rfl | rfl | rfl | rfl | rfl | rfl | rfl | rfl | rfl <;>
      simp [valid, daysInMonth] <;> omega

/-- The day of a date whose month is counted from March, and whose year begins with it. -/
theorem toDay_march {year k day : Int} (k_range : 0 ≤ k ∧ k ≤ 11) (pos : 0 ≤ day) :
    (Date.mk (year + if (if k < 10 then k + 3 else k - 9) ≤ 2 then 1 else 0)
        (if k < 10 then k + 3 else k - 9).toNat day.toNat).toDay =
      year / 400 * 146097 + (year % 400 * 365 + year % 400 / 4 - year % 400 / 100 +
        ((153 * k + 2) / 5 + day - 1)) - 719468 := by
  have same_day : (day.toNat : Int) = day := Int.toNat_of_nonneg pos
  by_cases early : k < 10
  · have month : ((k + 3).toNat : Int) = k + 3 := Int.toNat_of_nonneg (by omega)
    have late : ¬ k + 3 ≤ 2 := by omega
    have late_nat : ¬ (k + 3).toNat ≤ 2 := by omega
    have from_march : (k + 3 + 9) % 12 = k := by omega
    simp only [if_pos early, if_neg late, toDay, if_neg late_nat, month, from_march, same_day,
      Int.add_zero]
  · have month : ((k - 9).toNat : Int) = k - 9 := Int.toNat_of_nonneg (by omega)
    have next : k - 9 ≤ 2 := by omega
    have next_nat : (k - 9).toNat ≤ 2 := by omega
    have from_march : (k - 9 + 9) % 12 = k := by omega
    simp only [if_neg early, if_pos next, toDay, if_pos next_nat, month, from_march, same_day,
      Int.add_sub_cancel]

/-- The date of a day is that of no other day. -/
theorem toDay_ofDay (n : Int) : (ofDay n).toDay = n := by
  obtain ⟨c, q, y, d, parts⟩ := exists_parts n
  have of_year := parts.dayOfYear_eq rfl
  rw [ofDay_eq parts]
  obtain ⟨c_range, q_range, y_range, d_range, -, -⟩ := parts
  obtain ⟨era, era_eq⟩ : ∃ era, (n + 719468) / 146097 = era := ⟨_, rfl⟩
  obtain ⟨year, year_eq⟩ : ∃ year, 100 * c + 4 * q + y = year := ⟨_, rfl⟩
  have in_era : (year + era * 400) / 400 = era ∧ (year + era * 400) % 400 = year := by omega
  have k_range : 0 ≤ (5 * d + 2) / 153 ∧ (5 * d + 2) / 153 ≤ 11 := by omega
  have pos : 0 ≤ d - (153 * ((5 * d + 2) / 153) + 2) / 5 + 1 := by omega
  have whole : era * 146097 + (n + 719468) % 146097 = n + 719468 := by omega
  rw [year_eq] at of_year ⊢
  rw [era_eq, toDay_march k_range pos, in_era.1, in_era.2]
  clear in_era pos k_range
  omega

end Date
end Steward
