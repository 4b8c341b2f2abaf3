import LiteHarness.Automation.Calendar

/-!
# Dates and days

`civilDay` and `dateUTC` count the same calendar, in years of twelve months from March on and eras
of four hundred years. From the year 100 on `dateUTC` leads back from a date to its day
(`dateUTC_civilDay`), so that what `zonedParts` reads off a local time determines it to the minute.
-/

namespace LiteHarness.Automation

/-! ## Years of an era -/

/-- The days of an era before one of its years. -/
def yearStart (yearOfEra : ℤ) : ℤ := 365 * yearOfEra + yearOfEra / 4 - yearOfEra / 100

/-- The year of an era in which a day of it lies. -/
def yearOfEra (dayOfEra : ℤ) : ℤ :=
  (dayOfEra - dayOfEra / 1460 + dayOfEra / 36524 - dayOfEra / 146096) / 365

theorem yearOfEra_mono {m n : ℤ} (h : m ≤ n) (hm : 0 ≤ m) (hn : n ≤ 146096) :
    yearOfEra m ≤ yearOfEra n := by
  rw [yearOfEra, yearOfEra]
  omega

theorem yearOfEra_bounds {n : ℤ} (h : 0 ≤ n) (h' : n ≤ 146096) :
    0 ≤ yearOfEra n ∧ yearOfEra n ≤ 399 := by
  rw [yearOfEra]
  omega

/-- A year begins with its first day, and the year before ends on the day before. -/
theorem yearOfEra_yearStart : ∀ y : Fin 400, yearOfEra (yearStart y.val) = y.val ∧
    (y.val ≠ 0 → yearOfEra (yearStart y.val - 1) < y.val) := by
  decide +kernel

/-- A day lies in its year. -/
theorem yearStart_bounds {n : ℤ} (h : 0 ≤ n) (h' : n ≤ 146096) :
    yearStart (yearOfEra n) ≤ n ∧ n ≤ yearStart (yearOfEra n) + 365 := by
  obtain ⟨hy, hy'⟩ := yearOfEra_bounds h h'
  generalize hyear : yearOfEra n = year at hy hy' ⊢
  lift year to ℕ using hy
  have hlt : year < 400 := by omega
  obtain ⟨-, hprevious⟩ := yearOfEra_yearStart ⟨year, hlt⟩
  constructor
  · by_contra hbefore
    rw [yearStart] at hbefore
    have hlast := hprevious fun hzero ↦ by
      change year = 0 at hzero
      omega
    have hmono := yearOfEra_mono (m := n) (n := yearStart year - 1) (by rw [yearStart]; omega) h
      (by rw [yearStart]; omega)
    change yearOfEra (yearStart year - 1) < year at hlast
    omega
  · by_contra hbehind
    rw [yearStart] at hbehind
    obtain ⟨hnext, -⟩ := yearOfEra_yearStart ⟨year + 1, by omega⟩
    change yearOfEra (yearStart (year + 1 : ℕ)) = (year + 1 : ℕ) at hnext
    have hmono := yearOfEra_mono (m := yearStart (year + 1 : ℕ)) (n := n)
      (by rw [yearStart]; omega) (by rw [yearStart]; omega) h'
    omega

/-! ## Dates -/

/-- The day of an instant, counted from the epoch. -/
def dayOf (instant : ℤ) : ℤ := instant / dayMs

/-- The days from the first day of an era, 1 March of the year 0, to the epoch. -/
def eraDays : ℤ := 719468

/-- The month of a day in a year from March on. -/
def marchMonth (dayOfYear : ℤ) : ℤ := (5 * dayOfYear + 2) / 153

/-- The date of a day of a year from March on. The months are counted from zero in January. -/
def marchDate (era year dayOfYear : ℤ) : CivilDay where
  year := year + era * 400 + if (marchMonth dayOfYear + 2) % 12 ≤ 1 then 1 else 0
  month := (marchMonth dayOfYear + 2) % 12
  day := dayOfYear - (153 * marchMonth dayOfYear + 2) / 5 + 1

/-- Every date is that of a day of a year of an era. -/
theorem exists_marchDate (instant : ℤ) : ∃ era year dayOfYear, (0 ≤ year ∧ year ≤ 399) ∧
    (0 ≤ dayOfYear ∧ dayOfYear ≤ 365) ∧ civilDay instant = marchDate era year dayOfYear ∧
    dayOf instant = era * 146097 + yearStart year + dayOfYear - eraDays := by
  obtain ⟨day, hday⟩ : ∃ day, day = dayOf instant + eraDays := ⟨_, rfl⟩
  have hyears := yearOfEra_bounds (n := day % 146097) (by omega) (by omega)
  have hbounds := yearStart_bounds (n := day % 146097) (by omega) (by omega)
  refine ⟨day / 146097, yearOfEra (day % 146097),
    day % 146097 - yearStart (yearOfEra (day % 146097)), hyears, by omega, ?_, by omega⟩
  rw [hday]
  rfl

/-- The first day of a month, whose year and era start in March. -/
theorem monthStart_eq {era year month : ℤ} (hyear : 0 ≤ year ∧ year ≤ 399)
    (hmonth : 0 ≤ month ∧ month ≤ 11) :
    monthStart (year + era * 400 + if (month + 2) % 12 ≤ 1 then 1 else 0) ((month + 2) % 12) =
      era * 146097 + yearStart year + (153 * month + 2) / 5 - eraDays := by
  have hmod : (month + 2) % 12 % 12 = (month + 2) % 12 := by omega
  have hdiv : (month + 2) % 12 / 12 = 0 := by omega
  have hback : ((month + 2) % 12 + 1 + 9) % 12 = month := by omega
  have hleap : (if (month + 2) % 12 + 1 ≤ 2 then (1 : ℤ) else 0) =
      if (month + 2) % 12 ≤ 1 then 1 else 0 := by
    split_ifs <;> omega
  have hera : (year + era * 400) / 400 = era := by omega
  have hrest : (year + era * 400) % 400 = year := by omega
  rw [monthStart, hmod, hdiv, add_zero, hback, hleap, add_sub_cancel_right, hera, hrest, yearStart,
    eraDays]
  ring

/-- `dateUTC` leads back from a date to its day. -/
theorem monthStart_civilDay (instant : ℤ) :
    monthStart (civilDay instant).year (civilDay instant).month + (civilDay instant).day - 1 =
      dayOf instant := by
  obtain ⟨era, year, dayOfYear, hyear, hdayOfYear, hdate, hday⟩ := exists_marchDate instant
  have hmonth : 0 ≤ marchMonth dayOfYear ∧ marchMonth dayOfYear ≤ 11 := by
    rw [marchMonth]
    omega
  rw [hdate, marchDate, monthStart_eq hyear hmonth, hday]
  ring

/-- The day 1 January of the year 100. -/
def firstDay : ℤ := 36465 - eraDays

theorem year_of_firstDay_le {instant : ℤ} (h : firstDay ≤ dayOf instant) :
    100 ≤ (civilDay instant).year := by
  obtain ⟨era, year, dayOfYear, hyear, hdayOfYear, hdate, hday⟩ := exists_marchDate instant
  rw [hday, firstDay, yearStart] at h
  have hmonth : 153 * marchMonth dayOfYear ≤ 5 * dayOfYear + 2 ∧
      5 * dayOfYear + 2 < 153 * marchMonth dayOfYear + 153 := by
    rw [marchMonth]
    omega
  rw [hdate, marchDate]
  dsimp only
  generalize marchMonth dayOfYear = month at hmonth ⊢
  rcases lt_trichotomy era 0 with hera | rfl | hera
  · omega
  · -- January and February belong to the next year.
    by_cases hcarry : month ≤ 9
    · split_ifs <;> omega
    · obtain rfl | rfl : month = 10 ∨ month = 11 := by omega
      · rw [if_pos (by decide)]
        omega
      · rw [if_pos (by decide)]
        omega
  · split_ifs <;> omega

/-! ## Local times -/

/-- A time of day. -/
def clockTime (day hour minute : ℤ) : ℤ := day * dayMs + hour * hourMs + minute * minuteMs

theorem civilDay_congr {x y : ℤ} (h : dayOf x = dayOf y) : civilDay x = civilDay y := by
  change x / dayMs = y / dayMs at h
  rw [civilDay, civilDay, h]

/-- **`dateUTC` leads back from a date** of the year 100 or later, and on from it by days. -/
theorem dateUTC_civilDay {instant : ℤ} (h : firstDay ≤ dayOf instant) (days hour minute : ℤ) :
    dateUTC (civilDay instant).year (civilDay instant).month ((civilDay instant).day + days)
      hour minute = clockTime (dayOf instant + days) hour minute := by
  have hyear := year_of_firstDay_le h
  have hstart := monthStart_civilDay instant
  rw [dateUTC, if_neg (by omega), clockTime, ← hstart]
  ring

/-- What `zonedParts` reads off a local time. -/
def partsOf (localTime : ℤ) : ZonedParts where
  year := (civilDay localTime).year
  month := (civilDay localTime).month + 1
  day := (civilDay localTime).day
  hour := localTime % dayMs / hourMs
  minute := localTime % hourMs / minuteMs

/-- `represented` is the local time, to the minute. -/
theorem dateUTC_partsOf {localTime : ℤ} (h : firstDay ≤ dayOf localTime) :
    dateUTC (partsOf localTime).year ((partsOf localTime).month - 1) (partsOf localTime).day
      (partsOf localTime).hour (partsOf localTime).minute = localTime - localTime % minuteMs := by
  have hback := dateUTC_civilDay h 0 (localTime % dayMs / hourMs) (localTime % hourMs / minuteMs)
  rw [add_zero, add_zero] at hback
  change dateUTC _ ((civilDay localTime).month + 1 - 1) _ _ _ = _
  rw [add_sub_cancel_right]
  refine hback.trans ?_
  rw [clockTime, dayOf, dayMs, hourMs, minuteMs]
  omega

theorem partsOf_clockTime {day hour minute : ℤ} (hhour : 0 ≤ hour ∧ hour ≤ 23)
    (hminute : 0 ≤ minute ∧ minute ≤ 59) :
    partsOf (clockTime day hour minute) = ⟨(civilDay (day * dayMs)).year,
      (civilDay (day * dayMs)).month + 1, (civilDay (day * dayMs)).day, hour, minute⟩ := by
  have hday : dayOf (clockTime day hour minute) = dayOf (day * dayMs) := by
    rw [dayOf, dayOf, clockTime, dayMs, hourMs, minuteMs]
    omega
  have hhours : clockTime day hour minute % dayMs / hourMs = hour := by
    rw [clockTime, dayMs, hourMs, minuteMs]
    omega
  have hminutes : clockTime day hour minute % hourMs / minuteMs = minute := by
    rw [clockTime, dayMs, hourMs, minuteMs]
    omega
  rw [partsOf, civilDay_congr hday, hhours, hminutes]

end LiteHarness.Automation
