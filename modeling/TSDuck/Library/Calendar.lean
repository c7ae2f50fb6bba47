import Mathlib

/-!
# Calendars

A line of consecutive periods covers a number of days: the years of a cycle, or the months of a
year.

A date of the Gregorian calendar is found from a number of days since 1 January 1970, which may be
negative: the lengths of the years repeat every 400 years.
-/

namespace Calendar

def locate : List ℕ → ℕ → ℕ × ℕ
  | [], day => (0, day)
  | length :: rest, day =>
    if day < length then (0, day)
    else ((locate rest (day - length)).1 + 1, (locate rest (day - length)).2)

def before (lengths : List ℕ) (period : ℕ) : ℕ := (lengths.take period).sum

/-- The days before a period, and those before a day in it. -/
theorem before_locate (lengths : List ℕ) (day : ℕ) :
    before lengths (locate lengths day).1 + (locate lengths day).2 = day := by
  induction lengths generalizing day with
  | nil => exact Nat.zero_add day
  | cons length rest ih =>
    rw [locate]
    split_ifs with hday
    · exact Nat.zero_add day
    · have hrest := ih (day - length)
      rw [before] at hrest
      rw [before, List.take_succ_cons, List.sum_cons]
      omega

/-- Assumes: a day in the periods. It is found in one of them. -/
theorem locate_lt (lengths : List ℕ) {day : ℕ} (hday : day < lengths.sum) :
    ∃ length, lengths[(locate lengths day).1]? = some length ∧ (locate lengths day).2 < length := by
  induction lengths generalizing day with
  | nil => exact absurd hday (Nat.not_lt_zero day)
  | cons length rest ih =>
    rw [locate]
    split_ifs with hfirst
    · exact ⟨length, rfl, hfirst⟩
    · rw [List.sum_cons] at hday
      exact ih (by omega)

def isLeapYear (year : ℤ) : Bool :=
  year % 4 == 0 && (year % 100 != 0 || year % 400 == 0)

def monthLengths (leap : Bool) : List ℕ :=
  [31, if leap then 29 else 28, 31, 30, 31, 30, 31, 31, 30, 31, 30, 31]

def yearLength (leap : Bool) : ℕ := if leap then 366 else 365

def firstYear : ℤ := 1970

def yearLengths : List ℕ :=
  (List.range 400).map fun index : ℕ ↦ yearLength (isLeapYear (firstYear + index))

def cycleLength : ℕ := 146097

theorem sum_yearLengths : yearLengths.sum = cycleLength := by decide +kernel

theorem sum_monthLengths (leap : Bool) : (monthLengths leap).sum = yearLength leap := by
  cases leap with
  | true => rfl
  | false => rfl

theorem isLeapYear_add_cycle (year cycle : ℤ) : isLeapYear (year + 400 * cycle) = isLeapYear year := by
  unfold isLeapYear
  rw [show (year + 400 * cycle) % 4 = year % 4 by omega,
    show (year + 400 * cycle) % 100 = year % 100 by omega,
    show (year + 400 * cycle) % 400 = year % 400 by omega]

structure Date where
  year : ℤ
  month : ℕ
  day : ℕ
  deriving DecidableEq

/-- The month and the day are in their ranges. -/
structure IsDate (date : Date) : Prop where
  monthPos : 1 ≤ date.month
  monthLe : date.month ≤ 12
  dayPos : 1 ≤ date.day
  dayLe : ∃ length, (monthLengths (isLeapYear date.year))[date.month - 1]? = some length ∧
    date.day ≤ length

namespace Date

/-- The date after some days since the first year. -/
def ofDays (days : ℤ) : Date :=
  let cycle := days / cycleLength
  let year := locate yearLengths (days % cycleLength).toNat
  let number := firstYear + year.1 + 400 * cycle
  let month := locate (monthLengths (isLeapYear number)) year.2
  { year := number
    month := month.1 + 1
    day := month.2 + 1 }

def toDays (date : Date) : ℤ :=
  let cycle := (date.year - firstYear) / 400
  let index := ((date.year - firstYear) % 400).toNat
  cycle * cycleLength + before yearLengths index +
    before (monthLengths (isLeapYear date.year)) (date.month - 1) + (date.day - 1 : ℕ)

theorem locate_year (days : ℤ) :
    let year := locate yearLengths (days % cycleLength).toNat
    year.1 < 400 ∧ year.2 < yearLength (isLeapYear (firstYear + year.1)) := by
  have hmod := Int.emod_lt_of_pos days (by decide : (0 : ℤ) < cycleLength)
  have hnonneg := Int.emod_nonneg days (by decide : (cycleLength : ℤ) ≠ 0)
  obtain ⟨length, hlength, hless⟩ :=
    @locate_lt yearLengths (days % cycleLength).toNat (by rw [sum_yearLengths]; omega)
  dsimp only
  generalize locate yearLengths (days % cycleLength).toNat = year at hlength hless ⊢
  rw [yearLengths, List.getElem?_map, Option.map_eq_some_iff] at hlength
  obtain ⟨index, hindex, rfl⟩ := hlength
  obtain ⟨hrange, hindex⟩ := List.getElem?_eq_some_iff.mp hindex
  rw [List.getElem_range] at hindex
  rw [List.length_range] at hrange
  subst hindex
  exact ⟨hrange, hless⟩

theorem toDays_ofDays (days : ℤ) : (ofDays days).toDays = days := by
  obtain ⟨hindex, -⟩ := locate_year days
  have hyear := before_locate yearLengths (days % cycleLength).toNat
  have hdays := Int.mul_ediv_add_emod days cycleLength
  have hnonneg := Int.emod_nonneg days (by decide : (cycleLength : ℤ) ≠ 0)
  generalize hlocated : locate yearLengths (days % cycleLength).toNat = year at hindex hyear
  generalize hcycle : days / (cycleLength : ℤ) = cycle at hdays
  have hmonth := before_locate
    (monthLengths (isLeapYear (firstYear + year.1 + 400 * cycle))) year.2
  have hquotient : (firstYear + year.1 + 400 * cycle - firstYear) / 400 = cycle := by omega
  have hremainder : ((firstYear + year.1 + 400 * cycle - firstYear) % 400).toNat = year.1 := by
    omega
  simp only [toDays, ofDays, hlocated, hcycle, hquotient, hremainder, Nat.add_sub_cancel]
  rw [mul_comm] at hdays
  omega

/-- The month and the day of a date are in their ranges. -/
theorem isDate_ofDays (days : ℤ) : IsDate (ofDays days) := by
  obtain ⟨-, hless⟩ := locate_year days
  simp only [ofDays]
  generalize locate yearLengths (days % cycleLength).toNat = year at hless
  generalize days / (cycleLength : ℤ) = cycle
  have hleap := isLeapYear_add_cycle (firstYear + year.1) cycle
  obtain ⟨length, hlength, hday⟩ :=
    locate_lt (monthLengths (isLeapYear (firstYear + year.1 + 400 * cycle)))
      (by rw [sum_monthLengths, hleap]; exact hless)
  have hmonths : (monthLengths (isLeapYear (firstYear + year.1 + 400 * cycle))).length = 12 := rfl
  have hrange := (List.getElem?_eq_some_iff.mp hlength).1
  rw [hmonths] at hrange
  refine ⟨Nat.le_add_left 1 _, hrange, Nat.le_add_left 1 _, length, ?_, hday⟩
  exact hlength

/-- Assumes: a day of the first cycle. The year is in it. -/
theorem year_ofDays (days : ℤ) (hnonneg : 0 ≤ days) (hless : days < cycleLength) :
    firstYear ≤ (ofDays days).year ∧ (ofDays days).year < firstYear + 400 := by
  obtain ⟨hindex, -⟩ := locate_year days
  have hcycle : days / (cycleLength : ℤ) = 0 := Int.ediv_eq_zero_of_lt hnonneg hless
  simp only [ofDays, hcycle]
  omega

end Date

end Calendar
