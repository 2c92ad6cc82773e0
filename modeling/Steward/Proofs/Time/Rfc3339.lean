/-
# Timestamps name their instants

The timestamp of an instant is read as the instant again, to the nanosecond
(`Instant.parse?_text`), if a timestamp can name the instant at all: its year is one that may be
read, and a leap second ends a minute (`Instant.Nameable`). What is read from a timestamp always is
such an instant (`Instant.nameable_of_parse?`).

Every field of a timestamp is a run of digits with something else behind it, so each reader takes
what was written for it and leaves the rest.

Key definitions: `Instant.Nameable`.
Key theorems: `Instant.field_padded`, `Instant.year_yearText`, `Instant.fraction_fractionText`,
`Instant.parse?_text`, `Instant.nameable_of_parse?`.
-/
import Mathlib.Data.List.TakeWhile
import Steward.Proofs.Text.Digits
import Steward.Proofs.Time.Calendar
import Steward.Time.Rfc3339

namespace Steward

/-! ### Blanks -/

namespace Text

theorem isBlank_of_isDigit {c : Char} (h : isDigit c = true) : isBlank c = false := by
  have range := toNat_of_isDigit h
  simp only [isBlank, Bool.or_eq_false_iff, Bool.and_eq_false_iff, decide_eq_false_iff_not,
    beq_eq_false_iff_ne]
  omega

theorem trimLeft_cons {c : Char} {cs : List Char} (h : isBlank c = false) :
    trimLeft (c :: cs) = c :: cs := by
  rw [trimLeft, List.dropWhile_cons_of_neg (by rw [h]; exact Bool.false_ne_true)]

/-- No blank stands before a number. -/
theorem trimLeft_padded (width n : Nat) (rest : List Char) :
    trimLeft (padded width n ++ rest) = padded width n ++ rest := by
  obtain ⟨c, cs, digits, first⟩ := padded_eq_cons width n
  rw [digits]
  exact trimLeft_cons (isBlank_of_isDigit first)

end Text

namespace Instant

open Text

/-! ### The parts of a timestamp -/

theorem mark_cons {c : Char} (h : isBlank c = false) (rest : List Char) :
    mark c (c :: rest) = some ((), rest) := by
  rw [mark, trimLeft_cons h]
  exact if_pos rfl

theorem field_padded {width n : Nat} (pos : 0 < width) (fits : n < 10 ^ width) {rest : List Char}
    (ends : Ends rest) : field width (padded width n ++ rest) = some (n, rest) := by
  have length := length_padded pos fits
  rw [field, trimLeft_padded, takeDigits_append (fun _ => isDigit_of_mem_padded) ends (by omega)
    (by omega), ofDigits_padded]

theorem year_of_digit {c : Char} (h : isDigit c = true) (cs : List Char) :
    year (c :: cs) = (takeDigits 1 4 (c :: cs)).map fun (y, r) => ((y : Int), r) := by
  rw [year, trimLeft_cons (isBlank_of_isDigit h)]
  split
  · rename_i e
    cases e
    exact absurd h (by decide)
  · rename_i e
    cases e
    exact absurd h (by decide)
  · rfl

/-- A year with a sign may have any number of digits. -/
theorem takeDigits_year (n : Nat) {rest : List Char} (ends : Ends rest) :
    takeDigits 1 (padded 4 n ++ rest).length (padded 4 n ++ rest) = some (n, rest) := by
  have pos := length_padded_pos 4 n
  rw [takeDigits_append (fun _ => isDigit_of_mem_padded) ends pos (by simp), ofDigits_padded]

theorem year_yearText (y : Int) {rest : List Char} (ends : Ends rest) :
    year (yearText y ++ rest) = some (y, rest) := by
  by_cases short : 0 ≤ y ∧ y ≤ 9999
  · obtain ⟨c, cs, digits, first⟩ := padded_eq_cons 4 y.toNat
    have length := length_padded (n := y.toNat) (show 0 < 4 by decide) (by omega)
    have taken : takeDigits 1 4 (padded 4 y.toNat ++ rest) = some (y.toNat, rest) := by
      rw [takeDigits_append (fun _ => isDigit_of_mem_padded) ends (by omega) (by omega),
        ofDigits_padded]
    have same : (y.toNat : Int) = y := Int.toNat_of_nonneg short.1
    rw [yearText, if_pos short]
    rw [digits, List.cons_append] at taken ⊢
    rw [year_of_digit first, taken, Option.map_some]
    simp only [same]
  · rw [yearText, if_neg short]
    by_cases negative : y < 0
    · have same : -(y.natAbs : Int) = y := by omega
      rw [if_pos negative, List.cons_append, year, trimLeft_cons (by decide)]
      simp only [takeDigits_year y.natAbs ends, Option.map_some, same]
    · have same : (y.natAbs : Int) = y := by omega
      rw [if_neg negative, List.cons_append, year, trimLeft_cons (by decide)]
      simp only [takeDigits_year y.natAbs ends, Option.map_some, same]

/-- The digits after the point, when zeros fill them up to nine. -/
theorem fraction_padded {width n k : Nat} (pos : 0 < width) (fits : n < 10 ^ width)
    (nine : width + k = 9) {rest : List Char} (ends : Ends rest) :
    fraction ('.' :: padded width n ++ rest) = some (n * 10 ^ k, rest) := by
  have length := length_padded pos fits
  have digits : (padded width n ++ rest).takeWhile isDigit = padded width n :=
    takeWhile_digits (fun _ => isDigit_of_mem_padded) ends
  have kept : (padded width n).take 9 = padded width n := List.take_of_length_le (by omega)
  have some_digit : (padded width n).isEmpty = false := by
    rw [List.isEmpty_eq_false_iff, ← List.length_pos_iff]
    omega
  have zeros : 9 - width = k := by omega
  rw [List.cons_append, fraction]
  simp only [digits, kept, some_digit, Bool.false_eq_true, if_false, ofDigits_padded, length, zeros,
    List.drop_left']
  rfl

theorem fraction_fractionText {n : Nat} (h : n < second) {rest : List Char} (ends : Ends rest)
    (no_point : rest.head? ≠ some '.') : fraction (fractionText n ++ rest) = some (n, rest) := by
  have h : n < 1000000000 := h
  by_cases whole : n = 0
  · rw [fractionText, if_pos whole, List.nil_append, whole]
    cases rest with
    | nil => rfl
    | cons c cs =>
      rw [fraction]
      rintro r ⟨⟩
      exact no_point rfl
  rw [fractionText, if_neg whole]
  by_cases millis : n % 1000000 = 0
  · have split : n / 1000000 * 10 ^ 6 = n := by omega
    rw [if_pos millis, fraction_padded (k := 6) (by decide) (by omega) rfl ends, split]
  rw [if_neg millis]
  by_cases micros : n % 1000 = 0
  · have split : n / 1000 * 10 ^ 3 = n := by omega
    rw [if_pos micros, fraction_padded (k := 3) (by decide) (by omega) rfl ends, split]
  · rw [if_neg micros, fraction_padded (k := 0) (by decide) (by omega) rfl ends, Nat.pow_zero,
      Nat.mul_one]

/-! ### A whole timestamp -/

/-- The instant of a date, a time of day, a fraction and an offset; second 60 is a leap second. -/
def ofFields (d : Date) (h mi s nanos : Nat) (off : Int) : Instant :=
  ⟨d.toDay * 86400 + (h * 3600 + mi * 60 + (if s = 60 then 59 else s) : Nat) - off,
    nanos + (if s = 60 then second else 0)⟩

theorem lt_of_valid {d : Date} (h : d.valid = true) : d.month < 10 ^ 2 ∧ d.day < 10 ^ 2 := by
  have days : Date.daysInMonth d.year d.month ≤ 31 := by
    unfold Date.daysInMonth
    split_ifs <;> decide
  simp only [Date.valid, Bool.and_eq_true, decide_eq_true_eq] at h
  omega

/-- No digit follows the seconds. -/
theorem ends_fraction (n : Nat) : Ends (fractionText n ++ ['Z']) := by
  unfold fractionText
  split_ifs <;> exact Ends.cons rfl

/-- The first reader of a sequence takes its part. -/
theorem bind_read {α β : Type} {x : Option α} {f : α → Option β} {a : α} (h : x = some a) :
    (x >>= f) = f a := by
  rw [h]
  rfl

/-- The fields of a timestamp are read as they were written. -/
theorem parseChars_fields (d : Date) (h mi s n : Nat) (in_range : yearInRange d.year = true)
    (valid : d.valid = true) (hours : h ≤ 23) (minutes : mi ≤ 59) (seconds : s ≤ 60)
    (nanos : n < second) :
    parseChars (yearText d.year ++ '-' :: (padded 2 d.month ++ '-' :: (padded 2 d.day ++
      'T' :: (padded 2 h ++ ':' :: (padded 2 mi ++ ':' :: (padded 2 s ++
        (fractionText n ++ ['Z']))))))) =
      if yearInRange (ofFields d h mi s n 0).date.year then some (ofFields d h mi s n 0)
      else none := by
  obtain ⟨month, day⟩ := lt_of_valid valid
  have zone : offset (trimLeft ['Z']) = some (0, []) := rfl
  have possible : (yearInRange d.year && Date.valid ⟨d.year, d.month, d.day⟩ && decide (h ≤ 23) &&
      decide (mi ≤ 59) && decide (s ≤ 60) && decide ((0 : Int).natAbs < 86400) &&
      (trimLeft []).isEmpty) = true := by
    simp [in_range, valid, hours, minutes, seconds, trimLeft]
  unfold parseChars
  -- One reader after the other takes what was written for it; what it leaves begins with a mark.
  refine (bind_read (year_yearText d.year (Ends.cons rfl))).trans ?_
  refine (bind_read (mark_cons rfl _)).trans ?_
  refine (bind_read (field_padded (by decide) month (Ends.cons rfl))).trans ?_
  refine (bind_read (mark_cons rfl _)).trans ?_
  refine (bind_read (field_padded (by decide) day (Ends.cons rfl))).trans ?_
  refine (bind_read (show daySeparator ('T' :: _) = some ((), _) from rfl)).trans ?_
  refine (bind_read (field_padded (by decide) (by omega) (Ends.cons rfl))).trans ?_
  refine (bind_read (mark_cons rfl _)).trans ?_
  refine (bind_read (field_padded (by decide) (by omega) (Ends.cons rfl))).trans ?_
  refine (bind_read (mark_cons rfl _)).trans ?_
  refine (bind_read (field_padded (by decide) (by omega) (ends_fraction n))).trans ?_
  refine (bind_read (fraction_fractionText nanos (Ends.cons rfl) (by decide))).trans ?_
  refine (bind_read zone).trans ((if_pos possible).trans ?_)
  simp only [beq_iff_eq]
  rfl

/-! ### The instants that timestamps name -/

/-- Whether a timestamp can name the instant: its year may be read, and its nanoseconds are those
of a second, or of a leap second at the end of a minute. -/
def Nameable (t : Instant) : Prop :=
  yearInRange t.date.year = true ∧ (t.inLeap = true → t.seconds % 60 = 59) ∧ t.nanos < 2 * second

theorem text_toList (t : Instant) : t.text.toList = t.stem ++ ['Z'] := String.toList_ofList

/-- The timestamp of an instant names it, to the nanosecond. -/
theorem parse?_text {t : Instant} (h : t.Nameable) : parse? t.text = some t := by
  obtain ⟨in_range, leap, nanos⟩ := h
  have of_day : 0 ≤ t.timeOfDay ∧ t.timeOfDay < 86400 := by
    rw [timeOfDay]
    omega
  have whole : t.date.toDay * 86400 + t.timeOfDay = t.seconds := by
    rw [date, Date.toDay_ofDay, timeOfDay]
    omega
  have minute : t.timeOfDay % 60 = t.seconds % 60 := by
    rw [timeOfDay]
    omega
  obtain ⟨s, s_eq⟩ : ∃ s, s = t.timeOfDay.toNat % 60 + (if t.inLeap then 1 else 0) := ⟨_, rfl⟩
  obtain ⟨n, n_eq⟩ : ∃ n, n = if t.inLeap then t.nanos - second else t.nanos := ⟨_, rfl⟩
  have fields : s ≤ 60 ∧ n < second ∧
      ofFields t.date (t.timeOfDay.toNat / 3600) (t.timeOfDay.toNat / 60 % 60) s n 0 = t := by
    by_cases leaps : t.inLeap = true
    · have at_end := leap leaps
      have late : second ≤ t.nanos := by simpa [inLeap] using leaps
      rw [if_pos leaps] at s_eq n_eq
      have sixty : s = 60 := by omega
      refine ⟨by omega, by omega, ?_⟩
      rw [ofFields, if_pos sixty, if_pos sixty]
      exact congr_arg₂ mk (by omega) (by omega)
    · have early : t.nanos < second := by simpa [inLeap] using leaps
      rw [if_neg leaps] at s_eq n_eq
      have below : s ≠ 60 := by omega
      refine ⟨by omega, by omega, ?_⟩
      rw [ofFields, if_neg below, if_neg below]
      exact congr_arg₂ mk (by omega) (by omega)
  obtain ⟨seconds, fraction, named⟩ := fields
  have read := parseChars_fields t.date (t.timeOfDay.toNat / 3600) (t.timeOfDay.toNat / 60 % 60) s n
    in_range (Date.valid_ofDay _) (by omega) (by omega) seconds fraction
  rw [named, if_pos in_range] at read
  rw [parse?, text_toList, ← read, stem]
  simp only [← s_eq, ← n_eq, List.append_assoc, List.cons_append]

/-! ### What is read from a timestamp -/

theorem fraction_lt {cs rest : List Char} {n : Nat} (h : fraction cs = some (n, rest)) :
    n < second := by
  unfold fraction at h
  split at h
  · rename_i r
    rw [Option.ite_none_left_eq_some] at h
    obtain ⟨-, h⟩ := h
    obtain ⟨kept, kept_eq⟩ : ∃ kept, kept = (r.takeWhile isDigit).take 9 := ⟨_, rfl⟩
    have digits : ∀ c ∈ kept, isDigit c = true := by
      intro c hc
      rw [kept_eq] at hc
      exact List.mem_takeWhile_imp (List.mem_of_mem_take hc)
    have nine : kept.length ≤ 9 := by
      rw [kept_eq, List.length_take]
      exact Nat.min_le_left _ _
    have value : n = ofDigits kept * 10 ^ (9 - kept.length) := by
      rw [kept_eq]
      cases h
      rfl
    have filled : second = 10 ^ kept.length * 10 ^ (9 - kept.length) := by
      rw [← Nat.pow_add, Nat.add_sub_cancel' nine]
    rw [value, filled]
    exact Nat.mul_lt_mul_of_pos_right (ofDigits_lt kept digits) (Nat.pow_pos (by decide))
  · cases h
    decide

theorem hoursAndMinutes_minutes {cs rest : List Char} {off : Int}
    (h : offset.hoursAndMinutes cs = some (off, rest)) : off % 60 = 0 := by
  simp only [offset.hoursAndMinutes, Option.bind_eq_bind, Option.bind_eq_some_iff] at h
  obtain ⟨⟨hours, _⟩, -, ⟨minutes, _⟩, -, h⟩ := h
  cases h
  omega

/-- An offset is a number of minutes. -/
theorem offset_minutes {cs rest : List Char} {off : Int} (h : offset cs = some (off, rest)) :
    off % 60 = 0 := by
  unfold offset at h
  split at h
  · cases h
    rfl
  · cases h
    rfl
  · split_ifs at h
    · cases h
      rfl
    · exact hoursAndMinutes_minutes h
    · obtain ⟨⟨ahead, _⟩, read, h⟩ := Option.map_eq_some_iff.1 h
      have minutes := hoursAndMinutes_minutes read
      cases h
      omega
  · cases h

/-- What is read from a timestamp is named by one. -/
theorem nameable_of_parse? {s : String} {t : Instant} (h : parse? s = some t) : t.Nameable := by
  unfold parse? parseChars at h
  -- Only the second, the fraction and the offset matter: the last test is on the year itself.
  obtain ⟨⟨y, _⟩, -, h⟩ := Option.bind_eq_some_iff.1 h
  obtain ⟨_, -, h⟩ := Option.bind_eq_some_iff.1 h
  obtain ⟨⟨mo, _⟩, -, h⟩ := Option.bind_eq_some_iff.1 h
  obtain ⟨_, -, h⟩ := Option.bind_eq_some_iff.1 h
  obtain ⟨⟨d, _⟩, -, h⟩ := Option.bind_eq_some_iff.1 h
  obtain ⟨_, -, h⟩ := Option.bind_eq_some_iff.1 h
  obtain ⟨⟨hours, _⟩, -, h⟩ := Option.bind_eq_some_iff.1 h
  obtain ⟨_, -, h⟩ := Option.bind_eq_some_iff.1 h
  obtain ⟨⟨minutes, _⟩, -, h⟩ := Option.bind_eq_some_iff.1 h
  obtain ⟨_, -, h⟩ := Option.bind_eq_some_iff.1 h
  obtain ⟨⟨secs, _⟩, -, h⟩ := Option.bind_eq_some_iff.1 h
  obtain ⟨⟨n, _⟩, frac, h⟩ := Option.bind_eq_some_iff.1 h
  obtain ⟨⟨off, _⟩, zone, h⟩ := Option.bind_eq_some_iff.1 h
  simp only [Option.ite_none_right_eq_some, beq_iff_eq] at h
  obtain ⟨-, in_range, h⟩ := h
  have below := fraction_lt frac
  have whole := offset_minutes zone
  cases h
  refine ⟨in_range, ?_, ?_⟩
  · intro leaps
    by_cases sixty : secs = 60
    · simp only [if_pos sixty]
      omega
    · rw [inLeap, decide_eq_true_eq] at leaps
      simp only [if_neg sixty] at leaps
      omega
  · by_cases sixty : secs = 60
    · simp only [if_pos sixty]
      omega
    · simp only [if_neg sixty]
      omega

end Instant
end Steward
