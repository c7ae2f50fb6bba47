import TSDuck.Library.Calendar
import TSDuck.Mpeg.MJD
import TSDuck.Xml.Scan

/-!
# Times in XML attributes

A date and time is written in an attribute with six integers, and a duration with three. A duration
is read with at most 23 hours. A date is read as the six integers in a text, without regard to what
is between them, and it is not before 1970.

Scope. The local clock of a UNIX system is a parameter. Times are in milliseconds since the epoch of
the system.
-/

namespace TSDuck

/-- The difference between the local time and the time, the time which `mktime` finds for a local
time, and the current year. -/
structure LocalClock where
  offset : ℤ → ℤ
  mktime : ℤ → ℤ
  currentYear : ℤ

def LocalClock.normalized (clock : LocalClock) (seconds : ℤ) : ℤ :=
  clock.mktime seconds + clock.offset (clock.mktime seconds)

/-- The local time is on the same day and at the same minute and second, and the time is not the
second before the epoch. -/
def LocalClock.Keeps (clock : LocalClock) (seconds : ℤ) : Prop :=
  clock.mktime seconds ≠ -1 ∧ clock.normalized seconds / 86400 = seconds / 86400 ∧
    clock.normalized seconds % 3600 = seconds % 3600

namespace Time

structure Fields where
  year : ℤ
  month : ℤ
  day : ℤ
  hour : ℤ
  minute : ℤ
  second : ℤ
  deriving DecidableEq

variable (system : System) (clock : LocalClock)

def Fields.ofSeconds (seconds : ℤ) : Fields :=
  let date := Calendar.Date.ofDays (seconds / 86400)
  { year := date.year
    month := date.month
    day := date.day
    hour := seconds % 86400 / 3600
    minute := seconds % 3600 / 60
    second := seconds % 60 }

def Fields.toSeconds (fields : Fields) : ℤ :=
  (Calendar.Date.mk fields.year fields.month.toNat fields.day.toNat).toDays * 86400 +
    fields.hour * 3600 + fields.minute * 60 + fields.second

def fields (ms : ℤ) : Fields :=
  match system with
  | .unix => Fields.ofSeconds (ms.tdiv 1000)
  | .windows => Fields.ofSeconds ((ms - System.unixEpoch .windows) / 1000)

def Fields.isValid (fields : Fields) : Bool :=
  decide (1970 ≤ fields.year) && (decide (1 ≤ fields.month) && decide (fields.month ≤ 12)) &&
    (decide (1 ≤ fields.day) && decide (fields.day ≤
        ([31, 29, 31, 30, 31, 30, 31, 31, 30, 31, 30, 31] : List ℤ).getD
          (fields.month - 1).toNat 0)) &&
    (decide (fields.month ≠ 2) || Calendar.isLeapYear fields.year || decide (fields.day ≤ 28)) &&
    (decide (0 ≤ fields.hour) && decide (fields.hour ≤ 23)) &&
    (decide (0 ≤ fields.minute) && decide (fields.minute ≤ 59)) &&
    (decide (0 ≤ fields.second) && decide (fields.second ≤ 59))

def toInt64 (fields : Fields) : Option ℤ :=
  match system with
  | .windows => some (System.unixEpoch .windows + 1000 * fields.toSeconds)
  | .unix =>
    if clock.mktime fields.toSeconds = -1 then none
    else
      let normalized := clock.normalized fields.toSeconds
      some (1000 * (normalized + (fields.hour - normalized % 86400 / 3600) * 3600))

/-- Decodes six integers in a text. -/
def decode (text : UString) : Option ℤ :=
  let digits := text.map fun char ↦ if UString.isDigit char then char else ' '
  let scanned := UString.scan "%d %d %d %d %d %d %d".toList digits
  match scanned.values.map UString.int32.wrap with
  | [year, month, day, hour, minute, second] =>
    let fields : Fields :=
      { year := if year = 0 then clock.currentYear else year
        month, day, hour, minute, second }
    if scanned.input = [] ∧ fields.isValid then toInt64 system clock fields else none
  | _ => none

def dateTimeToString (ms : ℤ) : UString :=
  let f := fields system ms
  UString.formatDecimal 4 f.year ++ '-' :: (UString.formatDecimal 2 f.month ++
    '-' :: (UString.formatDecimal 2 f.day ++ ' ' :: (UString.formatDecimal 2 f.hour ++
      ':' :: (UString.formatDecimal 2 f.minute ++ ':' :: UString.formatDecimal 2 f.second))))

def timeToString (value : ℤ) : UString :=
  UString.formatDecimal 2 (value.tdiv 3600) ++ ':' ::
    (UString.formatDecimal 2 ((value.tdiv 60).tmod 60) ++
      ':' :: UString.formatDecimal 2 (value.tmod 60))

def timeFromString (text : UString) : Option ℤ :=
  let scanned := UString.scan "%d:%d:%d".toList text
  match scanned.values with
  | [hours, minutes, seconds] =>
    if scanned.isComplete ∧ (0 ≤ hours ∧ hours ≤ 23) ∧ (0 ≤ minutes ∧ minutes ≤ 59) ∧
        (0 ≤ seconds ∧ seconds ≤ 59) then
      some (hours * 3600 + minutes * 60 + seconds)
    else none
  | _ => none

theorem timeFromString_timeToString {value : ℤ} (hnonneg : 0 ≤ value) (hless : value < 2 ^ 63) :
    timeFromString (timeToString value) = if value < 86400 then some value else none := by
  obtain ⟨value, rfl⟩ := Int.eq_ofNat_of_zero_le hnonneg
  have hhours : (value : ℤ).tdiv 3600 = (value / 3600 : ℕ) := rfl
  have hminutes : ((value : ℤ).tdiv 60).tmod 60 = (value / 60 % 60 : ℕ) := rfl
  have hseconds : (value : ℤ).tmod 60 = (value % 60 : ℕ) := rfl
  have hscan : UString.scan "%d:%d:%d".toList (timeToString value) =
      ⟨[(value / 3600 : ℕ), (value / 60 % 60 : ℕ), (value % 60 : ℕ)], [], []⟩ := by
    have hcolon : ':' ∈ [' ', ':'] := by decide
    have hformat : "%d:%d:%d".toList =
        '%' :: 'd' :: ':' :: '%' :: 'd' :: ':' :: '%' :: 'd' :: [] := rfl
    rw [timeToString, hhours, hminutes, hseconds, hformat, UString.scan_next ':' hcolon 2 (by omega),
      UString.scan_next ':' hcolon 2 (by omega), UString.scan_last 2 (by omega)]
    rfl
  rw [timeFromString, hscan]
  simp only [UString.Scanned.isComplete, List.isEmpty_nil, Bool.and_self, true_and]
  by_cases hday : (value : ℤ) < 86400
  · rw [if_pos hday, if_pos (by omega)]
    congr 1
    omega
  · rw [if_neg hday, if_neg (by omega)]

/-! ### Dates -/

theorem toSeconds_ofSeconds (seconds : ℤ) : (Fields.ofSeconds seconds).toSeconds = seconds := by
  have hdate := Calendar.Date.toDays_ofDays (seconds / 86400)
  have hsame : Calendar.Date.mk (Calendar.Date.ofDays (seconds / 86400)).year
      (((Calendar.Date.ofDays (seconds / 86400)).month : ℤ).toNat)
      (((Calendar.Date.ofDays (seconds / 86400)).day : ℤ).toNat) =
        Calendar.Date.ofDays (seconds / 86400) := by
    rw [Int.toNat_natCast, Int.toNat_natCast]
  simp only [Fields.toSeconds, Fields.ofSeconds, hsame, hdate]
  omega

theorem monthLength_le (leap : Bool) {month : ℕ} (hpos : 1 ≤ month) (hle : month ≤ 12) {length : ℕ}
    (hlength : (Calendar.monthLengths leap)[month - 1]? = some length) :
    (length : ℤ) ≤ ([31, 29, 31, 30, 31, 30, 31, 31, 30, 31, 30, 31] : List ℤ).getD
        ((month : ℤ) - 1).toNat 0 ∧ (month = 2 → leap = false → length = 28) := by
  have hall : ∀ leap, ∀ month < 13, 1 ≤ month →
      ((Calendar.monthLengths leap).getD (month - 1) 0 : ℤ) ≤
          ([31, 29, 31, 30, 31, 30, 31, 31, 30, 31, 30, 31] : List ℤ).getD
            ((month : ℤ) - 1).toNat 0 ∧
        (month = 2 → leap = false → (Calendar.monthLengths leap).getD (month - 1) 0 = 28) := by
    decide
  have hmonth := hall leap month (by omega) hpos
  rwa [List.getD_eq_getElem?_getD, hlength, Option.getD_some] at hmonth

theorem monthLength_bound (leap : Bool) {index length : ℕ}
    (hlength : (Calendar.monthLengths leap)[index]? = some length) : length ≤ 31 := by
  have hall : ∀ leap, ∀ length ∈ Calendar.monthLengths leap, length ≤ 31 := by decide
  exact hall leap length (List.mem_of_getElem? hlength)

theorem isValid_ofSeconds (seconds : ℤ) (hnonneg : 0 ≤ seconds)
    (hless : seconds < Calendar.cycleLength * 86400) :
    (Fields.ofSeconds seconds).isValid = true := by
  obtain ⟨hyear, -⟩ := Calendar.Date.year_ofDays (seconds / 86400) (by omega) (by omega)
  obtain ⟨hmonthPos, hmonthLe, hdayPos, length, hlength, hdayLe⟩ :=
    Calendar.Date.isDate_ofDays (seconds / 86400)
  obtain ⟨hlengthLe, hfebruary⟩ := monthLength_le _ hmonthPos hmonthLe hlength
  have hleap : ∀ date : Calendar.Date,
      (date.month = 2 → Calendar.isLeapYear date.year = false → date.day ≤ 28) →
        (decide ((date.month : ℤ) ≠ 2) || Calendar.isLeapYear date.year ||
          decide ((date.day : ℤ) ≤ 28)) = true := by
    intro date hshort
    simp only [Bool.or_eq_true, decide_eq_true_eq]
    by_cases hmonth : date.month = 2
    · cases hyear : Calendar.isLeapYear date.year with
      | true => exact .inl (.inr rfl)
      | false => exact .inr (Int.ofNat_le.mpr (hshort hmonth hyear))
    · exact .inl (.inl fun h ↦ hmonth (Int.ofNat_inj.mp h))
  have hshort := hleap (Calendar.Date.ofDays (seconds / 86400)) fun hmonth hyear ↦
    hdayLe.trans (hfebruary hmonth hyear).le
  rw [Calendar.firstYear] at hyear
  unfold Fields.isValid Fields.ofSeconds
  dsimp only
  rw [hshort, Bool.and_true]
  simp only [Bool.and_eq_true, decide_eq_true_eq]
  omega

theorem fields_eq {ms : ℤ} (hepoch : system.unixEpoch ≤ ms) :
    fields system ms = Fields.ofSeconds ((ms - system.unixEpoch) / 1000) := by
  cases system with
  | windows => rfl
  | unix =>
    have hzero : System.unix.unixEpoch = 0 := rfl
    rw [hzero] at hepoch ⊢
    rw [fields, Int.tdiv_eq_ediv_of_nonneg hepoch, Int.sub_zero]

theorem map_formatDecimal (minWidth value : ℕ) (rest : UString) :
    (UString.formatDecimal minWidth value ++ rest).map
        (fun char ↦ if UString.isDigit char then char else ' ') =
      UString.formatDecimal minWidth value ++
        rest.map fun char ↦ if UString.isDigit char then char else ' ' := by
  obtain ⟨digits, -, hdigits, -, hformat⟩ := UString.formatDecimal_natCast minWidth value
  have hkept : ∀ char ∈ UString.formatDecimal minWidth value,
      (if UString.isDigit char then char else ' ') = id char := by
    intro char hchar
    rw [hformat, List.mem_reverse] at hchar
    obtain ⟨digit, hdigit, rfl⟩ := List.mem_map.mp hchar
    rw [(UString.isDigit_decimalDigit (hdigits digit hdigit)).1]
    rfl
  rw [List.map_append, List.map_congr_left hkept, List.map_id]

theorem scan_dateTimeToString {ms : ℤ} (hepoch : system.unixEpoch ≤ ms)
    (hless : ms - system.unixEpoch < Calendar.cycleLength * milliSecPerDay) :
    let f := fields system ms
    UString.scan "%d %d %d %d %d %d %d".toList ((dateTimeToString system ms).map
        fun char ↦ if UString.isDigit char then char else ' ') =
      ⟨[f.year, f.month, f.day, f.hour, f.minute, f.second], [], ['%', 'd']⟩ ∧
      ∀ value ∈ [f.year, f.month, f.day, f.hour, f.minute, f.second],
        UString.int32.wrap value = value := by
  have hday : milliSecPerDay = 86400000 := rfl
  have hcycle : (Calendar.cycleLength : ℤ) = 146097 := rfl
  rw [hday] at hless
  generalize hseconds : (ms - system.unixEpoch) / 1000 = seconds
  obtain ⟨hfirst, hlast⟩ := Calendar.Date.year_ofDays (seconds / 86400) (by omega) (by omega)
  obtain ⟨hmonthPos, hmonthLe, hdayPos, length, hlength, hdayLe⟩ :=
    Calendar.Date.isDate_ofDays (seconds / 86400)
  have hdayMax := monthLength_bound _ hlength
  have hfields : fields system ms = Fields.ofSeconds seconds := by
    rw [fields_eq system hepoch, hseconds]
  rw [Calendar.firstYear] at hfirst hlast
  obtain ⟨year, hyear⟩ := Int.eq_ofNat_of_zero_le
    (show 0 ≤ (Calendar.Date.ofDays (seconds / 86400)).year by omega)
  obtain ⟨hour, hhour⟩ := Int.eq_ofNat_of_zero_le (show 0 ≤ seconds % 86400 / 3600 by omega)
  obtain ⟨minute, hminute⟩ := Int.eq_ofNat_of_zero_le (show 0 ≤ seconds % 3600 / 60 by omega)
  obtain ⟨second, hsecond⟩ := Int.eq_ofNat_of_zero_le (show 0 ≤ seconds % 60 by omega)
  have hformat : "%d %d %d %d %d %d %d".toList =
      '%' :: 'd' :: ' ' :: '%' :: 'd' :: ' ' :: '%' :: 'd' :: ' ' :: '%' :: 'd' :: ' ' ::
        '%' :: 'd' :: ' ' :: '%' :: 'd' :: [' ', '%', 'd'] := rfl
  have hspace : ' ' ∈ [' ', ':'] := by decide
  dsimp only
  rw [dateTimeToString, hfields, Fields.ofSeconds, hyear, hhour, hminute, hsecond]
  dsimp only
  constructor
  · have hseparators : ∀ separator ∈ ['-', ' ', ':'],
        (if UString.isDigit separator then separator else ' ') = ' ' := by
      intro separator hseparator
      fin_cases hseparator <;> rfl
    have hrest : UString.scan [' ', '%', 'd'] [] = ⟨[], [], ['%', 'd']⟩ := rfl
    have hend := map_formatDecimal 2 second []
    rw [List.append_nil, List.map_nil, List.append_nil] at hend
    simp only [map_formatDecimal, List.map_cons, hseparators '-' (by decide),
      hseparators ' ' (by decide), hseparators ':' (by decide), hend]
    rw [hformat, UString.scan_next ' ' hspace 4 (by omega), UString.scan_next ' ' hspace 2 (by omega),
      UString.scan_next ' ' hspace 2 (by omega), UString.scan_next ' ' hspace 2 (by omega),
      UString.scan_next ' ' hspace 2 (by omega), UString.scan_last 2 (by omega), hrest]
    rfl
  · intro value hvalue
    refine UString.int32.wrap_of_inRange ?_
    simp only [List.mem_cons, List.not_mem_nil, or_false] at hvalue
    simp only [IntType.InRange, IntType.minValue, IntType.size, UString.int32]
    omega

theorem decode_dateTimeToString {ms : ℤ} (hepoch : system.unixEpoch ≤ ms) (hwhole : ms % 1000 = 0)
    (hless : ms - system.unixEpoch < Calendar.cycleLength * milliSecPerDay) :
    decode system clock (dateTimeToString system ms) = some ms ↔
      (system = .unix → clock.Keeps (ms / 1000)) := by
  have hday : milliSecPerDay = 86400000 := rfl
  have hcycle : (Calendar.cycleLength : ℤ) = 146097 := rfl
  obtain ⟨hscan, hwrap⟩ := scan_dateTimeToString system hepoch hless
  rw [hday] at hless
  have hvalues := (List.map_congr_left (g := id) hwrap).trans (List.map_id _)
  have hfields := fields_eq system hepoch
  generalize hseconds : (ms - system.unixEpoch) / 1000 = seconds at hfields
  have hvalid := isValid_ofSeconds seconds (by omega) (by omega)
  obtain ⟨hfirst, -⟩ := Calendar.Date.year_ofDays (seconds / 86400) (by omega) (by omega)
  have hyear : (Fields.ofSeconds seconds).year ≠ 0 := by
    rw [Calendar.firstYear] at hfirst
    show (Calendar.Date.ofDays (seconds / 86400)).year ≠ 0
    omega
  have hdecoded : decode system clock (dateTimeToString system ms) =
      toInt64 system clock (Fields.ofSeconds seconds) := by
    unfold decode
    dsimp only
    rw [hscan]
    rw [hvalues, hfields]
    dsimp only
    rw [if_neg hyear, if_pos ⟨rfl, hvalid⟩]
  rw [hdecoded]
  unfold toInt64
  have hepochWhole : system.unixEpoch % 1000 = 0 := by
    cases system with
    | unix => rfl
    | windows => rfl
  have htime : ms = system.unixEpoch + 1000 * seconds := by omega
  rw [toSeconds_ofSeconds]
  cases system with
  | windows =>
    rw [htime]
    exact ⟨fun _ h ↦ absurd h (by decide), fun _ ↦ rfl⟩
  | unix =>
    have hzero : System.unix.unixEpoch = 0 := rfl
    rw [hzero, Int.zero_add] at htime
    have hwholeSeconds : ms / 1000 = seconds := by omega
    have hhour : (Fields.ofSeconds seconds).hour = seconds % 86400 / 3600 := rfl
    rw [hwholeSeconds, htime, LocalClock.Keeps]
    dsimp only
    rw [hhour]
    by_cases hnone : clock.mktime seconds = -1
    · rw [if_pos hnone]
      exact ⟨fun h ↦ absurd h.symm (Option.some_ne_none _), fun h ↦ absurd hnone (h rfl).1⟩
    · rw [if_neg hnone, Option.some.injEq]
      generalize clock.normalized seconds = normalized
      constructor
      · intro hsame _
        exact ⟨hnone, by omega, by omega⟩
      · intro hkeeps
        obtain ⟨-, hdays, hhours⟩ := hkeeps rfl
        omega

end Time

end TSDuck
