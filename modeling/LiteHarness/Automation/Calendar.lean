import LiteHarness.Domain.Status

/-!
# Daily times

A daily trigger names a wall-clock time in a time zone. `nextDailyOccurrence` looks for the first day,
today or one of the three after it, whose wall-clock time comes after a given instant. A time that the
zone skips on a day is not found on that day.
-/

namespace LiteHarness.Automation

/-! ## Days -/

/-- Minutes, hours and days in milliseconds. -/
def minuteMs : ℤ := 60000

def hourMs : ℤ := 3600000

def dayMs : ℤ := 86400000

/-- The number of the first day of a month, counted from the epoch. The months are counted from zero
and may be outside of the year. -/
def monthStart (year month : ℤ) : ℤ :=
  let month' := month % 12 + 1
  -- Years of this count start in March.
  let year' := year + month / 12 - if month' ≤ 2 then 1 else 0
  let yearOfEra := year' % 400
  let dayOfYear := (153 * ((month' + 9) % 12) + 2) / 5
  year' / 400 * 146097 + yearOfEra * 365 + yearOfEra / 4 - yearOfEra / 100 + dayOfYear - 719468

/-- `Date.UTC`, which takes the years 0 to 99 for years of the last century. -/
def dateUTC (year month day hour minute : ℤ) : ℤ :=
  let year' := if 0 ≤ year ∧ year ≤ 99 then 1900 + year else year
  (monthStart year' month + day - 1) * dayMs + hour * hourMs + minute * minuteMs

/-- A calendar day. The months are counted from zero. -/
structure CivilDay where
  year : ℤ
  month : ℤ
  day : ℤ
  deriving DecidableEq

/-- `getUTCFullYear`, `getUTCMonth` and `getUTCDate` of an instant. -/
def civilDay (instant : ℤ) : CivilDay :=
  let day := instant / dayMs + 719468
  let dayOfEra := day % 146097
  let yearOfEra :=
    (dayOfEra - dayOfEra / 1460 + dayOfEra / 36524 - dayOfEra / 146096) / 365
  let dayOfYear := dayOfEra - (365 * yearOfEra + yearOfEra / 4 - yearOfEra / 100)
  let marchMonth := (5 * dayOfYear + 2) / 153
  let month := (marchMonth + 2) % 12
  { year := yearOfEra + day / 146097 * 400 + if month ≤ 1 then 1 else 0
    month := month
    day := dayOfYear - (153 * marchMonth + 2) / 5 + 1 }

/-! ## Zones -/

/-- What `formatToParts` says of an instant. The months are counted from one. -/
structure ZonedParts where
  year : ℤ
  month : ℤ
  day : ℤ
  hour : ℤ
  minute : ℤ
  deriving DecidableEq

/-- `Intl.DateTimeFormat`. -/
structure ZoneHost where
  /-- The time zone is known. -/
  knows : JsString → Bool
  /-- `zonedParts`, which throws for an instant no date has. -/
  zonedParts : ℤ → JsString → Except JsError ZonedParts

/-- What is thrown: `NonexistentLocalTimeError` or another error. -/
inductive ScheduleError where
  | nonexistentLocalTime
  | other (error : JsError)

/-- `/^([01]\d|2[0-3]):[0-5]\d$/`, with the hour and the minute. -/
def localTime? (text : JsString) : Option (ℤ × ℤ) :=
  match text with
  | [a, b, c, d, e] =>
    let digit := fun u : UInt16 ↦ (u.toNat : ℤ) - 48
    let isDigit := fun u : UInt16 ↦ 0 ≤ digit u ∧ digit u ≤ 9
    if isDigit a ∧ isDigit b ∧ c = 58 ∧ isDigit d ∧ isDigit e ∧
        10 * digit a + digit b ≤ 23 ∧ digit d ≤ 5 then
      some (10 * digit a + digit b, 10 * digit d + digit e)
    else none
  | _ => none

variable (Z : ZoneHost)

/-- `zonedParts` where it is called. -/
def zonedParts (instant : ℤ) (timeZone : JsString) : Except ScheduleError ZonedParts :=
  (Z.zonedParts instant timeZone).mapError .other

/-- The loop of `zonedLocalToUtc` and the check behind it. -/
def correctCandidate (timeZone : JsString) (year month day hour minute target : ℤ) :
    ℕ → ℤ → Except ScheduleError ℤ
  | 0, candidate => do
    let actual ← zonedParts Z candidate timeZone
    (if actual ≠ ⟨year, month, day, hour, minute⟩ then .error .nonexistentLocalTime
    else .ok candidate)
  | iterations + 1, candidate => do
    let actual ← zonedParts Z candidate timeZone
    let represented := dateUTC actual.year (actual.month - 1) actual.day actual.hour actual.minute
    (if target - represented = 0 then .ok candidate
    else correctCandidate timeZone year month day hour minute target iterations
      (candidate + (target - represented)))

/-- `zonedLocalToUtc`. -/
def zonedLocalToUtc (timeZone : JsString) (year month day hour minute : ℤ) :
    Except ScheduleError ℤ :=
  let target := dateUTC year (month - 1) day hour minute
  correctCandidate Z timeZone year month day hour minute target 6 target

/-- The loop of `nextDailyOccurrence` over the offsets of the days. -/
def searchDays (timeZone : JsString) (hour minute : ℤ) (current : ZonedParts) (after : ℤ) :
    List ℤ → Except ScheduleError ℤ
  | [] => .error (.other (.new (js "Could not calculate the next zoned schedule occurrence")))
  | offset :: offsets =>
    let date := civilDay (dateUTC current.year (current.month - 1) (current.day + offset) 0 0)
    match zonedLocalToUtc Z timeZone date.year (date.month + 1) date.day hour minute with
    | .error .nonexistentLocalTime => searchDays timeZone hour minute current after offsets
    | .error (.other error) => .error (.other error)
    | .ok candidate =>
      if after < candidate then .ok candidate
      else searchDays timeZone hour minute current after offsets

/-- `nextDailyOccurrence`. -/
def nextDailyOccurrence (timeZone localTime : JsString) (after : ℤ) : Except ScheduleError ℤ :=
  match localTime? localTime with
  | none => .error (.other (.new (js "localTime must be HH:mm")))
  | some (hour, minute) => do
    let current ← zonedParts Z after timeZone
    searchDays Z timeZone hour minute current after [0, 1, 2, 3]

/-! ## What is found is later -/

variable {Z}

theorem searchDays_gt {timeZone : JsString} {hour minute after next : ℤ} {current : ZonedParts}
    {offsets : List ℤ}
    (h : searchDays Z timeZone hour minute current after offsets = .ok next) : after < next := by
  induction offsets with
  | nil => exact absurd h nofun
  | cons offset offsets ih =>
    rw [searchDays] at h
    split at h
    · exact ih h
    · exact absurd h nofun
    · split_ifs at h with hlt
      · exact Except.ok.inj h ▸ hlt
      · exact ih h

/-- **A daily occurrence comes after the given instant.** -/
theorem nextDailyOccurrence_gt {timeZone localTime : JsString} {after next : ℤ}
    (h : nextDailyOccurrence Z timeZone localTime after = .ok next) : after < next := by
  rw [nextDailyOccurrence] at h
  split at h
  · exact absurd h nofun
  · rename_i hour minute _
    rcases hcurrent : zonedParts Z after timeZone with e | current
    · rw [hcurrent] at h
      exact absurd h nofun
    · rw [hcurrent] at h
      exact searchDays_gt h

end LiteHarness.Automation
