import LiteHarness.Automation.DailyTimes

/-!
# What a daily time promises

In a zone whose offsets stay below fifteen hours a daily time recurs on every date that has it
(`recurs_of_near`). `not_daily` shows why the offsets are bounded, why the years are those a `Date`
reads and writes alike, and that a date is passed over where the clocks went back over midnight.
-/

namespace LiteHarness.Automation

open Foundation

/-- **What is promised of a daily time.** -/
structure Recurs (Z : ZoneHost) (timeZone localTime : JsString) (zone : Zone) (hour minute : ℤ) :
    Prop where
  /-- The instant is found on every date that has the time, and the others are told from it. -/
  found : ∀ day, Covered (clockTime day hour minute) →
    match zonedLocalToUtc Z timeZone (civilDay (day * dayMs)).year
      ((civilDay (day * dayMs)).month + 1) (civilDay (day * dayMs)).day hour minute with
    | .ok c => zone.Occurs hour minute day c
    | .error e => e = .nonexistentLocalTime ∧ ¬zone.Has hour minute day
  /-- Of two instants it is always the first in a zone that is never ahead of UTC. -/
  first : (∀ t, zone.minutes t ≤ 0) → ∀ day c, zone.Occurs hour minute day c →
    ∀ t, zone.wall t = clockTime day hour minute → c ≤ t
  /-- And always the last in a zone that is never behind. -/
  last : (∀ t, 0 ≤ zone.minutes t) → ∀ day c, zone.Occurs hour minute day c →
    ∀ t, zone.wall t = clockTime day hour minute → t ≤ c
  next : ∀ after, Searchable after →
    zone.Next hour minute after (nextDailyOccurrence Z timeZone localTime after)
  /-- From the first occurrence on, the others are on the dates that have the time. -/
  occurrences : ∀ after next, Searchable after →
    nextDailyOccurrence Z timeZone localTime after = .ok next →
    ∃ day, zone.Occurs hour minute day next ∧
      ∀ count : ℕ, next + (5 * count + 6) * dayMs ≤ lastInstant →
        ∃ instants, occurrences Z timeZone localTime count next = .ok instants ∧
          instants.length = count ∧ zone.Consecutive hour minute day instants

variable {Z : ZoneHost} {timeZone localTime : JsString} {zone : Zone} {hour minute : ℤ}

/-- **A daily time recurs on the dates that have it.** -/
theorem recurs_of_near (hreads : Reads Z timeZone zone) (hnear : zone.Near)
    (hlocal : localTime? localTime = some (hour, minute)) :
    Recurs Z timeZone localTime zone hour minute := by
  obtain ⟨hhour, hminute⟩ := localTime?_bounds hlocal
  refine ⟨fun day hcovered ↦ ?_, fun hwest day c hc t ht ↦ ?_, fun heast day c hc t ht ↦ ?_,
    fun after hafter ↦ nextDailyOccurrence_spec hreads hnear hlocal hafter,
    fun after next hafter hnext ↦ ?_⟩
  · have hfound := zonedLocalToUtc_spec hreads hnear hhour hminute hcovered
    generalize zonedLocalToUtc Z timeZone (civilDay (day * dayMs)).year
      ((civilDay (day * dayMs)).month + 1) (civilDay (day * dayMs)).day hour minute = result
      at hfound ⊢
    rcases result with e | c
    · exact ⟨hfound.1, fun ⟨t, ht⟩ ↦ hfound.2 t ht⟩
    · exact hfound
  · refine Preferred.le_of_nonpos hnear.drift hc (fun x ↦ ?_) ht
    have hoffset := hwest x
    rw [Zone.offset, minuteMs]
    omega
  · refine Preferred.ge_of_nonneg hnear.drift hc (fun x ↦ ?_) ht
    have hoffset := heast x
    rw [Zone.offset, minuteMs]
    omega
  · have hspec := nextDailyOccurrence_spec hreads hnear hlocal hafter
    rw [hnext] at hspec
    obtain ⟨hlater, day, -, -, hoccurs, -⟩ := hspec
    refine ⟨day, hoccurs, fun count hlast ↦ ?_⟩
    have hfirst : firstInstant + 4 * dayMs ≤ next := hafter.1.trans hlater.le
    exact occurrences_spec hreads hnear hlocal count hoccurs hfirst hlast

/-! ## Zones with two changes -/

/-- The offsets of a zone that changes at two instants. -/
def offsetsAround (before : ℤ) (p : ℤ) (between : ℤ) (q : ℤ) (behind t : ℤ) : ℤ :=
  if t < p then before else if t < q then between else behind

def zoneAround (before p between q behind : ℤ) (h : p + 30 * hourMs ≤ q) : Zone where
  minutes := offsetsAround before p between q behind
  spaced := by
    have hjumps : ∀ t, JumpsAt (offsetsAround before p between q behind) t → t = p ∨ t = q := by
      intro t ht
      by_contra hother
      refine ht ?_
      rw [offsetsAround, offsetsAround]
      split_ifs <;> omega
    intro s t hst hs ht
    rcases hjumps s hs with rfl | rfl <;> rcases hjumps t ht with rfl | rfl <;>
      rw [hourMs] at * <;> omega

/-- A formatter that knows one zone, and throws where there is no `Date`. -/
def formatter (name : JsString) (zone : Zone) : ZoneHost where
  knows timeZone := decide (timeZone = name)
  zonedParts t _ :=
    if -lastInstant ≤ t ∧ t ≤ lastInstant then .ok (partsOf (zone.wall t))
    else .error (.new (js "Invalid time value"))

theorem formatter_reads (name : JsString) (zone : Zone) :
    Reads (formatter name zone) name zone := by
  intro t hfirst hlast
  refine if_pos ⟨?_, hlast⟩
  rw [firstInstant, firstDay, eraDays, dayMs] at hfirst
  rw [lastInstant]
  omega

/-- St. John's, where the clocks went back from 00:01 to 23:01 on 7 November 2010. -/
def stJohns : Zone :=
  zoneAround (-150) 1289097060000 (-210) (1289097060000 + 30 * hourMs) (-210) le_rfl

/-- Midnight recurs there. -/
theorem recurs_stJohns :
    Recurs (formatter (js "America/St_Johns") stJohns) (js "America/St_Johns") (js "00:00") stJohns
      0 0 :=
  recurs_of_near (formatter_reads _ stJohns) (fun t ↦ by
    change -900 < offsetsAround _ _ _ _ _ t ∧ offsetsAround _ _ _ _ _ t < 900
    rw [offsetsAround]
    split_ifs <;> decide) (by decide +kernel)

/-! ## What is not promised -/

/-- UTC. -/
def utc : Zone := zoneAround 0 0 0 (30 * hourMs) 0 le_rfl

/-- Offsets of forty hours, which the correction does not come back from. -/
def farZone : Zone :=
  zoneAround (-2400) 1727928000000 2400 (1727928000000 + 70 * hourMs) (-3600) (by decide)

/-- The clocks go back by more than half a day, and the next day forward by more than a whole one.
-/
def turnedZone : Zone :=
  zoneAround (-30) 1728004200000 (-840) (1728004200000 + 35 * hourMs) 840 (by decide)

/-- **Not promised**: a date that has the time at a later instant is passed over where the clocks
went back over midnight; an instant is not found where offsets are large; an error is thrown
although two of the four dates have the time, at the end of the years that a `Date` can hold, and a
year is taken for one of the last century. -/
theorem not_daily :
    ((nextDailyOccurrence (formatter (js "America/St_Johns") stJohns) (js "America/St_Johns")
        (js "00:00") 1289099400000).toOption = some 1289187000000 ∧
      stJohns.wall 1289100600000 = clockTime 14920 0 0 ∧ 1289099400000 < (1289100600000 : ℤ) ∧
      dayOf (stJohns.wall 1289099400000) < 14920 ∧ 14920 < dayOf (stJohns.wall 1289187000000)) ∧
    ((zonedLocalToUtc (formatter (js "Far") farZone) (js "Far") 2024 10 4 0 0).toOption = none ∧
      farZone.wall (1728000000000 + 60 * hourMs) = clockTime 20000 0 0) ∧
    ((nextDailyOccurrence (formatter (js "Turned") turnedZone) (js "Turned") (js "00:10")
        1728004200000).toOption = none ∧
      dayOf (turnedZone.wall 1728004200000) = 19999 ∧
      turnedZone.wall (1728000600000 + 30 * minuteMs) = clockTime 20000 0 10) ∧
    ((nextDailyOccurrence (formatter (js "UTC") utc) (js "UTC") (js "00:00")
        lastInstant).toOption = none ∧
      utc.wall (lastInstant + dayMs) = clockTime (dayOf (utc.wall lastInstant) + 1) 0 0) ∧
    (nextDailyOccurrence (formatter (js "UTC") utc) (js "UTC") (js "00:00")
        (-60589296000000)).toOption = some (-631152000000) ∧
      utc.wall (-60589209600000) = clockTime (dayOf (utc.wall (-60589296000000)) + 1) 0 0 := by
  decide +kernel

end LiteHarness.Automation
